import Hydration.Proofs.Life.Working

/-!
# Changes confined to one binding

Carrying on with the life of a binding touches that binding alone: nothing in
its surroundings changes, no binding gets another element, context or watch, and
all that comes under way is the binding's own, its scripts included.

But for a remount that begins another attempt, what is left to be done weighs
less than the call that was carried on.
-/

namespace Hydration

/-- Whether a listener of the host got a value. -/
def Event.isHeard : Event → Bool
  | heard _ _ _ => true
  | _ => false

theorem Event.isHeard_of_isOf {event : Event} {key : BindingId} (own : event.isOf key) :
    event.isHeard = false := by
  cases event with
  | heard => cases own
  | _ => rfl

/-- What a binding looks at, and with which strategies. -/
structure Outlook where
  element : ElementId
  context : Except ContextFault Context
  hooks : Hooks
  watch : Option WatchId

def Binding.outlook (binding : Binding) : Outlook :=
  ⟨binding.element, binding.context, binding.hooks, binding.watch⟩

theorem Binding.Evolves.outlook {before after : Binding} (evolves : before.Evolves after) :
    after.outlook = before.outlook := by
  obtain ⟨_, _, _, rfl, _⟩ := evolves
  rfl

namespace Page

/-- The outlook of a binding that has been made. -/
def outlook? (page : Page) (key : BindingId) : Option Outlook :=
  (page.binding? key).map Binding.outlook

/-- The watch of a binding. -/
def watch? (page : Page) (key : BindingId) : Option WatchId :=
  (page.outlook? key).bind Outlook.watch

/-- The surroundings of the bindings are as before, and so is what each of them looks at. -/
structure Frames (before after : Page) : Prop where
  scene : after.scene = before.scene
  scripts : after.scripts = before.scripts
  outlook : ∀ key, after.outlook? key = before.outlook? key

theorem Frames.refl (page : Page) : page.Frames page :=
  ⟨rfl, rfl, fun _ => rfl⟩

theorem Frames.trans
    {first second third : Page}
    (earlier : first.Frames second)
    (later : second.Frames third) :
    first.Frames third :=
  ⟨later.scene.trans earlier.scene, later.scripts.trans earlier.scripts,
    fun key => (later.outlook key).trans (earlier.outlook key)⟩

/-- What the listeners of the host have heard, newest first. -/
def hearings (page : Page) : List Event :=
  page.history.filter Event.isHeard

/--
The change is one of a single binding, which leaves at most so much to be done.
No listener of the host hears of it.
-/
structure Confined (key : BindingId) (heft : Nat) (before after : Page) : Prop
    extends before.Frames after where
  hearings : after.hearings = before.hearings
  stack :
    ∃ added, after.stack = added ++ before.stack ∧
      (∀ call ∈ added, call.subject? = some key ∧ call.ends = false) ∧ heftOf added ≤ heft

namespace Confined

variable {key : BindingId} {page first second third : Page} {heft more : Nat}

theorem of_eq
    {after : Page}
    (scene : after.scene = page.scene)
    (scripts : after.scripts = page.scripts)
    (stack : after.stack = page.stack)
    (bindings : after.bindings = page.bindings)
    (history : after.history = page.history) :
    page.Confined key 0 after :=
  ⟨⟨scene, scripts, fun other => by simp only [outlook?, binding?, bindings]⟩,
    by simp only [Page.hearings, history], [], stack, by simp, Nat.le_refl _⟩

theorem refl (page : Page) : page.Confined key 0 page :=
  .of_eq rfl rfl rfl rfl rfl

theorem trans
    (earlier : first.Confined key heft second)
    (later : second.Confined key more third) :
    first.Confined key (heft + more) third := by
  obtain ⟨inner, before, innerOwn, innerHeft⟩ := earlier.stack
  obtain ⟨outer, after, outerOwn, outerHeft⟩ := later.stack
  refine ⟨earlier.toFrames.trans later.toFrames, later.hearings.trans earlier.hearings,
    outer ++ inner, ?_, ?_, ?_⟩
  · rw [after, before, List.append_assoc]
  · intro call member
    exact (List.mem_append.mp member).elim (outerOwn call) (innerOwn call)
  · rw [heftOf_append]
    omega

theorem mono
    (confined : first.Confined key heft second)
    (enough : heft ≤ more) :
    first.Confined key more second := by
  obtain ⟨frames, hearings, added, stack, own, light⟩ := confined
  exact ⟨frames, hearings, added, stack, own, Nat.le_trans light enough⟩

theorem weaken
    (confined : first.Confined key 0 second) :
    first.Confined key heft second :=
  confined.mono (Nat.zero_le heft)

theorem trans_weightless
    (earlier : first.Confined key 0 second)
    (later : second.Confined key heft third) :
    first.Confined key heft third :=
  (earlier.trans later).mono (Nat.le_of_eq (Nat.zero_add heft))

theorem push
    (page : Page)
    {calls : List Call}
    (own : ∀ call ∈ calls, call.subject? = some key ∧ call.ends = false)
    (light : heftOf calls ≤ heft) :
    page.Confined key heft (page.push calls) :=
  ⟨⟨rfl, rfl, fun _ => rfl⟩, rfl, calls, rfl, own, light⟩

theorem record
    (page : Page)
    {event : Event}
    (unheard : event.isHeard = false) :
    page.Confined key 0 (page.record event) :=
  ⟨⟨rfl, rfl, fun _ => rfl⟩, List.filter_cons_of_neg (by simp [unheard]), [], rfl, by simp,
    Nat.le_refl _⟩

/-- A binding may change in all but its outlook. -/
theorem changeBinding
    {other : BindingId}
    {change : Binding → Binding}
    (same : ∀ binding, (change binding).outlook = binding.outlook) :
    page.Confined key 0 (page.changeBinding other change) := by
  refine ⟨⟨rfl, rfl, ?_⟩, rfl, [], rfl, by simp, Nat.le_refl _⟩
  intro third
  simp only [outlook?, binding?_changeBinding]
  split
  · rw [Option.map_map]
    exact congrArg (Option.map · _) (funext same)
  · rfl

theorem setWanted (page : Page) (other : BindingId) (wanted : Bool) :
    page.Confined key 0 (page.setWanted other wanted) :=
  .changeBinding fun _ => rfl

theorem setCallback (page : Page) (key : BindingId) (notice : Notice) (script : ScriptId) :
    page.Confined key 0 (page.setCallback key notice script) :=
  .changeBinding fun _ => rfl

/-- What a life is at work with is confined to its binding. -/
theorem of_works {after : Page} (works : page.Works key heft after) :
    page.Confined key heft after := by
  obtain ⟨change, bindings, evolves⟩ := works.bindings
  obtain ⟨events, history, own⟩ := works.history
  obtain ⟨added, stack, ownCalls, light⟩ := works.stack
  refine ⟨⟨works.scene, works.scripts, fun other => ?_⟩, ?_, added, stack,
    fun call member => ?_, light⟩
  · have changed : page.Confined key 0 (page.changeBinding key change) :=
      .changeBinding fun binding => (evolves binding).outlook
    rw [← changed.outlook other]
    simp only [outlook?, binding?, bindings, Page.changeBinding]
  · have unheard : events.filter Event.isHeard = [] :=
      List.filter_eq_nil_iff.mpr fun event member => by
        simp [Event.isHeard_of_isOf (own event member)]
    rw [Page.hearings, history, List.filter_append, unheard]
    rfl
  · obtain ⟨subject, gentle, _⟩ := ownCalls call member
    exact ⟨subject, gentle⟩

theorem mount (page : Page) (key : BindingId) : page.Confined key 28 (page.mount key) := by
  rcases Works.mount_cases page key with ⟨_, same⟩ | ⟨_, works⟩
  · rw [same]
    exact (refl page).weaken
  · exact (setWanted page key true).trans_weightless (.of_works works)

theorem unmount (page : Page) (key : BindingId) : page.Confined key 11 (page.unmount key) := by
  rcases Works.unmount_cases page key with ⟨_, same⟩ | ⟨_, works⟩
  · rw [same]
    exact (refl page).weaken
  · exact (setWanted page key false).trans_weightless (.of_works works)

theorem launch (page : Page) (key : BindingId) (attempt : Nat) :
    page.Confined key 25 (page.launch key attempt) := by
  obtain ⟨_, _, added, reports, same, brings⟩ := launch_eq page key attempt
  rw [same]
  refine ⟨⟨rfl, rfl, fun _ => rfl⟩, ?_, added, rfl, ?_⟩
  · simp [Page.hearings, List.filter_append, List.filter_map, Function.comp_def, Event.isHeard]
  · rcases brings with rfl | ⟨outcome, rfl⟩
    · simp
    · simp

theorem remount (page : Page) (key : BindingId) : page.Confined key 28 (page.remount key) := by
  unfold Page.remount
  split
  · exact mount page key
  · exact (refl page).weaken

/-- A binding that is not wanted is not mounted again. -/
theorem remount_of_unwanted
    (unwanted : page.wants key = false) :
    page.Confined key 0 (page.remount key) := by
  have late : page.remount key = page := by
    simp [Page.remount, unwanted]
  rw [late]
  exact refl page

/--
Carrying on a call of a binding that does not lead to its end is confined to the
binding, and but for a remount it leaves less to be done.
-/
theorem carryOn
    {call : Call}
    (own : call.isOf key)
    (gentle : call.ends = false) :
    ∃ heft, page.Confined key heft (page.carryOn call) ∧
      (call ≠ .remount key → heft < call.heft) := by
  have same := Call.subject?_of_isOf own
  have worked (works : call.works) :
      ∃ heft, page.Confined key heft (page.carryOn call) ∧
        (call ≠ .remount key → heft < call.heft) := by
    obtain ⟨heft, light, works⟩ := Works.carryOn page own works
    exact ⟨heft, of_works works, fun _ => light⟩
  cases call with
  | request | script | deliver | pin | hydrate | destroyEach | drive => cases own
  | retire | bury => cases gentle
  | launch other attempt =>
      cases same
      exact ⟨25, launch page key attempt, fun _ => by simp⟩
  | remount other =>
      cases same
      exact ⟨28, remount page key, fun other => (other rfl).elim⟩
  | notice | arrive | construct | settle | teardown | dismantle | vacated => exact worked rfl

end Confined

end Page

end Hydration
