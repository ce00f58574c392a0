import Hydration.Context.Parser
import Hydration.Proofs.Life.Proceeding
import Hydration.Proofs.Passive.Confined
import Hydration.Proofs.Passive.Settling
import Hydration.Proofs.Siblings.Queues
import Hydration.Proofs.Siblings.Refreshing

/-!
# Pages that run in parallel

Two pages run in parallel if they do the same to the bindings that stand for each
other.  Everything that happens to such a binding happens to its twin, at the same
time and for the same reason.  The bindings of extra elements stand for none: all
that ever happened to them is one report that their context is amiss.
-/

namespace Hydration

/-- The same, as it happens to another binding. -/
def Event.retell (key : BindingId) : Event → Event
  | noticed _ notice phase wanted fault isHeard => noticed key notice phase wanted fault isHeard
  | arguments _ => arguments key
  | constructing _ name given => constructing key name given
  | constructed _ number removable => constructed key number removable
  | failed _ attempt fault => failed key attempt fault
  | destructing _ number name => destructing key number name
  | event => event

theorem Event.isOf_retell
    {event : Event}
    {key : BindingId}
    (own : event.isOf key)
    (twin other : BindingId) :
    (event.retell twin).isOf other = decide (twin = other) := by
  cases event with
  | loading | told | heard => cases own
  | _ => rfl

/-- All that happened to a binding, newest first. -/
def Page.story (page : Page) (key : BindingId) : List Event :=
  page.history.filter (Event.isOf key)

/-- A call of a binding, as it stands for another binding. -/
def Call.handOver (key : BindingId) : Call → Call
  | notice _ noticed fault => notice key noticed fault
  | launch _ attempt => launch key attempt
  | arrive _ attempt outcome => arrive key attempt outcome
  | construct _ attempt stage => construct key attempt stage
  | settle _ => settle key
  | teardown _ => teardown key
  | dismantle _ => dismantle key
  | vacated _ => vacated key
  | remount _ => remount key
  | retire _ => retire key
  | bury _ => bury key
  | call => call

/--
Whether a request changes the viewport, shows or hides an element that is not
extra, or carries imports on.
-/
def Request.isMild (isExtra : ElementId → Bool) : Request → Bool
  | resize _ | drive _ | release _ => true
  | reveal element _ => !isExtra element
  | _ => false

/-- Whether what was read as the context of an element is amiss, so that it cannot be watched. -/
def Factories.Refuses (factories : Factories) (element : ElementId) :
    Except ContextFault Context → Prop
  | .error _ => True
  | .ok context => ∃ condition ∈ context.conditions, condition.source? factories element = none

/-- Whether the context that is written on an element is amiss. -/
def Hooks.Refuses (hooks : Hooks) (tree : Tree) (element : ElementId) : Prop :=
  hooks.factories.Refuses element
    (Context.parseWith ((hooks.readContext.read tree element).getD "") hooks.defaultMonitor)

/--
All monitors follow the viewport or an element, the trees agree on the elements
that are not extra, and the context of each extra element is amiss.
-/
structure Contrast.IsFair (contrast : Contrast) : Prop where
  headless : contrast.hooks.factories.IsHeadless
  attributes :
    ∀ element, contrast.isExtra element = false → ∀ name,
      contrast.mixed.attribute? element name = contrast.plain.attribute? element name
  refused :
    ∀ element, contrast.isExtra element → contrast.hooks.Refuses contrast.mixed element

/-- The elements of a list that are not extra. -/
def Contrast.originals (contrast : Contrast) (elements : List ElementId) : List ElementId :=
  elements.filter fun element => !contrast.isExtra element

/-- Calls that do the same for bindings and monitors that stand for each other. -/
inductive Call.Matches (contrast : Contrast) (links : Links) : Call → Call → Prop where
  | own
      {call : Call}
      {key twin : BindingId}
      (owned : call.isOf key)
      (gentle : call.ends = false)
      (pair : links.bindings key twin) :
      Matches contrast links call (call.handOver twin)
  | asked
      {request : Request}
      (mild : request.isMild contrast.isExtra) :
      Matches contrast links (.request request) (.request request)
  | wish
      {verb : Verb}
      {key twin : BindingId}
      (gentle : verb ≠ .destroy)
      (pair : links.bindings key twin) :
      Matches contrast links (.request (.bind verb key)) (.request (.bind verb twin))
  | script (script : ScriptId) (position : Nat) (subject subjectTwin : Option BindingId) :
      Matches contrast links (.script script position subject)
        (.script script position subjectTwin)
  | deliver
      {monitors monitorsTwin : List MonitorId}
      (related : List.Forall₂ links.monitors monitors monitorsTwin) :
      Matches contrast links (.deliver monitors) (.deliver monitorsTwin)
  | pin
      {monitors monitorsTwin : List MonitorId}
      (related : List.Forall₂ links.monitors monitors monitorsTwin) :
      Matches contrast links (.pin monitors) (.pin monitorsTwin)
  | hydrate (elements : List ElementId) :
      Matches contrast links (.hydrate contrast.hooks (contrast.originals elements))
        (.hydrate contrast.hooks elements)
  | drive (queue : QueueName) :
      Matches contrast links (.drive queue) (.drive queue)

/-- More may stand for each other than before. -/
structure Links.Extends (links more : Links) : Prop where
  bindings : ∀ key twin, links.bindings key twin → more.bindings key twin
  monitors : ∀ key twin, links.monitors key twin → more.monitors key twin

theorem Call.Matches.mono
    {contrast : Contrast}
    {links more : Links}
    {call twin : Call}
    (same : call.Matches contrast links twin)
    (grown : links.Extends more) :
    call.Matches contrast more twin := by
  cases same with
  | own owned gentle pair => exact .own owned gentle (grown.bindings _ _ pair)
  | asked mild => exact .asked mild
  | wish gentle pair => exact .wish gentle (grown.bindings _ _ pair)
  | script => exact .script _ _ _ _
  | deliver related => exact .deliver (related.imp grown.monitors)
  | pin related => exact .pin (related.imp grown.monitors)
  | hydrate => exact .hydrate _
  | drive => exact .drive _

/-- Tasks that do the same for bindings that stand for each other. -/
structure Task.Twins (links : Links) (task twin : Task) : Prop where
  bindings : links.bindings task.binding twin.binding
  attempt : twin.attempt = task.attempt
  pending : twin.pending = task.pending

namespace Page

/-- Whether all that happened to a binding is one report that its context is amiss. -/
def Rejects (page : Page) (key : BindingId) : Prop :=
  ∃ binding fault heard heardToo,
    page.binding? key = some binding ∧ binding.IsFresh ∧
      page.story key =
        [.noticed key .onMountError .unmounted false (some (.configuration fault)) heardToo,
          .noticed key .mountError .unmounted false (some (.configuration fault)) heard]

/-- Whether a binding is of an extra element. -/
def isExtra (page : Page) (contrast : Contrast) (key : BindingId) : Bool :=
  (page.binding? key).any fun binding => contrast.isExtra binding.element

/-- Two pages that do the same to bindings that stand for each other. -/
structure Parallel (contrast : Contrast) (links : Links) (plain mixed : Page) : Prop where
  fair : contrast.IsFair
  registry : mixed.registry = plain.registry
  catalog : mixed.catalog = plain.catalog
  constructors : mixed.constructors = plain.constructors
  instances : mixed.instances = plain.instances
  scripts : mixed.scripts = plain.scripts
  idle : plain.HasIdleScripts
  scene : plain.scene.Alike contrast links mixed.scene
  executor : plain.executor.Related (Task.Twins links) mixed.executor
  stack : List.Forall₂ (Call.Matches contrast links) plain.stack mixed.stack
  ordered : InOrder links.bindings
  twins :
    ∀ key twin, links.bindings key twin →
      ∃ binding, plain.binding? key = some binding ∧ mixed.binding? twin = some binding ∧
        contrast.isExtra binding.element = false ∧ binding.hooks = contrast.hooks
  covered : ∀ key < plain.bindings.size, ∃ twin, links.bindings key twin
  stories :
    ∀ key twin, links.bindings key twin →
      mixed.story twin = (plain.story key).map (Event.retell twin)
  plainSilent : ∀ key, plain.bindings.size ≤ key → plain.story key = []
  mixedSilent : ∀ twin, mixed.bindings.size ≤ twin → mixed.story twin = []
  others :
    ∀ twin < mixed.bindings.size, (∀ key, ¬ links.bindings key twin) →
      mixed.isExtra contrast twin ∧ mixed.Rejects twin
  plainModules : plain.modules = List.range plain.bindings.size
  mixedModules : mixed.modules = List.range mixed.bindings.size

/-- Whether a binding was rejected depends on it and its story alone. -/
theorem Rejects.congr
    {page after : Page}
    {key : BindingId}
    (rejects : page.Rejects key)
    (binding : after.binding? key = page.binding? key)
    (story : after.story key = page.story key) :
    after.Rejects key := by
  unfold Rejects at rejects ⊢
  rwa [binding, story]

theorem story_record (page : Page) (event : Event) (key : BindingId) :
    (page.record event).story key =
      if event.isOf key then event :: page.story key else page.story key := by
  simp only [story, record, List.filter_cons]

namespace Parallel

variable {contrast : Contrast} {links : Links} {plain mixed : Page} {key twin : BindingId}

theorem plainKnown
    (parallel : plain.Parallel contrast links mixed)
    (pair : links.bindings key twin) :
    key < plain.bindings.size := by
  obtain ⟨_, found, _⟩ := parallel.twins key twin pair
  exact Table.lt_size_of_found found

theorem mixedKnown
    (parallel : plain.Parallel contrast links mixed)
    (pair : links.bindings key twin) :
    twin < mixed.bindings.size := by
  obtain ⟨_, _, found, _⟩ := parallel.twins key twin pair
  exact Table.lt_size_of_found found

/-- Calls that match come before those under way. -/
theorem push
    {calls callsTwin : List Call}
    (parallel : plain.Parallel contrast links mixed)
    (same : List.Forall₂ (Call.Matches contrast links) calls callsTwin) :
    (plain.push calls).Parallel contrast links (mixed.push callsTwin) :=
  { parallel with stack := List.rel_append same parallel.stack }

/-- Something happens to bindings that stand for each other. -/
theorem record
    (parallel : plain.Parallel contrast links mixed)
    (pair : links.bindings key twin)
    (event : Event)
    (own : event.isOf key) :
    (plain.record event).Parallel contrast links (mixed.record (event.retell twin)) := by
  refine { parallel with
    stories := fun other otherTwin otherPair => ?_
    plainSilent := fun other beyond => ?_
    mixedSilent := fun other beyond => ?_
    others := fun otherTwin known unlinked => ?_ }
  · have same := parallel.ordered.eq_iff pair otherPair
    rw [story_record, story_record, Event.isOf_retell own, Event.isOf_eq own,
      parallel.stories other otherTwin otherPair]
    by_cases here : key = other
    · cases here
      cases same.mp rfl
      simp
    · simp [here, mt same.mpr here]
  · have different : key ≠ other :=
      Nat.ne_of_lt (Nat.lt_of_lt_of_le (parallel.plainKnown pair) beyond)
    rw [story_record, Event.isOf_eq own, if_neg (by simpa using different)]
    exact parallel.plainSilent other beyond
  · have different : twin ≠ other :=
      Nat.ne_of_lt (Nat.lt_of_lt_of_le (parallel.mixedKnown pair) beyond)
    rw [story_record, Event.isOf_retell own, if_neg (by simpa using different)]
    exact parallel.mixedSilent other beyond
  · obtain ⟨extra, rejects⟩ := parallel.others otherTwin known unlinked
    have different : twin ≠ otherTwin := by
      rintro rfl
      exact unlinked key pair
    refine ⟨extra, rejects.congr rfl ?_⟩
    rw [story_record, Event.isOf_retell own, if_neg (by simpa using different)]

/-- Something happens that is no matter of bindings. -/
theorem recordAside
    (parallel : plain.Parallel contrast links mixed)
    (event : Event)
    (foreign : ∀ key, event.isOf key = false) :
    (plain.record event).Parallel contrast links (mixed.record event) := by
  have still (page : Page) (key : BindingId) : (page.record event).story key = page.story key := by
    simp [story_record, foreign]
  refine { parallel with
    stories := fun key twin pair => ?_
    plainSilent := fun key beyond => (still plain key).trans (parallel.plainSilent key beyond)
    mixedSilent := fun twin beyond => (still mixed twin).trans (parallel.mixedSilent twin beyond)
    others := fun twin known unlinked => ?_ }
  · rw [still, still]
    exact parallel.stories key twin pair
  · obtain ⟨extra, rejects⟩ := parallel.others twin known unlinked
    exact ⟨extra, rejects.congr rfl (still mixed twin)⟩

/-- Bindings that stand for each other change together. -/
theorem changeBinding
    (parallel : plain.Parallel contrast links mixed)
    (pair : links.bindings key twin)
    (change : Binding → Binding)
    (bond : ∀ binding, (change binding).bond = binding.bond) :
    (plain.changeBinding key change).Parallel contrast links
      (mixed.changeBinding twin change) := by
  refine { parallel with
    twins := fun other otherTwin otherPair => ?_
    covered := fun other known => ?_
    plainSilent := fun other beyond => ?_
    mixedSilent := fun other beyond => ?_
    others := fun otherTwin known unlinked => ?_
    plainModules := ?_
    mixedModules := ?_ }
  · obtain ⟨binding, found, foundTwin, spared, strategies⟩ :=
      parallel.twins other otherTwin otherPair
    have same := parallel.ordered.eq_iff otherPair pair
    rw [binding?_changeBinding, binding?_changeBinding, found, foundTwin]
    by_cases here : other = key
    · rw [if_pos here, if_pos (same.mp here)]
      refine ⟨change binding, rfl, rfl, ?_, ?_⟩
      · exact (congrArg (contrast.isExtra ∘ Bond.element) (bond binding)).trans spared
      · exact (congrArg Bond.hooks (bond binding)).trans strategies
    · rw [if_neg here, if_neg (mt same.mpr here)]
      exact ⟨binding, rfl, rfl, spared, strategies⟩
  · exact parallel.covered other (Nat.lt_of_lt_of_eq known (Table.size_modify _ _ _))
  · exact parallel.plainSilent other ((Table.size_modify _ _ _).symm.trans_le beyond)
  · exact parallel.mixedSilent other ((Table.size_modify _ _ _).symm.trans_le beyond)
  · obtain ⟨extra, rejects⟩ := parallel.others otherTwin
      (Nat.lt_of_lt_of_eq known (Table.size_modify _ _ _)) unlinked
    have still :
        (mixed.changeBinding twin change).binding? otherTwin = mixed.binding? otherTwin := by
      rw [binding?_changeBinding, if_neg]
      rintro rfl
      exact unlinked key pair
    refine ⟨?_, rejects.congr still rfl⟩
    rw [isExtra, still]
    exact extra
  · exact parallel.plainModules.trans (congrArg List.range (Table.size_modify _ _ _).symm)
  · exact parallel.mixedModules.trans (congrArg List.range (Table.size_modify _ _ _).symm)

end Parallel

end Page

end Hydration
