import Hydration.Proofs.Life.Working

/-!
# Calm pages

A page is calm as long as nobody asks anything of a binding by name, neither the
host nor a script: both may change the viewport, the visible elements and the
tree, open gates, drive queues and hydrate, but bindings hear of their contexts
alone.

Carrying on with the life of a binding on a calm page keeps everything that
watches depend on, and it keeps what is wanted of every binding.
-/

namespace Hydration

/-- Whether a request is about the surroundings of the bindings and not about one of them. -/
def Request.isCalm : Request → Bool
  | drive _ | resize _ | reveal _ _ | mark _ _ _ | append _ _ | release _ | hydrate _ => true
  | _ => false

def Act.isCalm : Act → Bool
  | page request => request.isCalm
  | own _ => false

def Script.IsCalm (script : Script) : Prop :=
  ∀ action ∈ script.actions, action.act.isCalm

/-- Whether a call neither asks something of a binding by name nor leads to its end. -/
def Call.isCalm : Call → Bool
  | .request asked => asked.isCalm
  | retire _ | bury _ | destroyEach _ => false
  | _ => true

/-- Whether a call neither asks for anything itself, nor tells listeners, nor makes bindings. -/
def Call.isInward : Call → Bool
  | request _ | deliver _ | hydrate _ _ | retire _ | bury _ | destroyEach _ => false
  | _ => true

/-- Whether the host leaves the bindings and the scene to hydration. -/
def Move.IsCalm : Move → Prop
  | ask request => request.isCalm
  | script actions => Script.IsCalm ⟨actions⟩
  | scene _ | bind _ _ _ _ _ => False
  | _ => True

/-- What a binding watches and what is wanted of it have not changed, and it has not ended. -/
structure Binding.Alike (before after : Binding) : Prop where
  element : after.element = before.element
  context : after.context = before.context
  hooks : after.hooks = before.hooks
  watch : after.watch = before.watch
  wanted : after.wanted = before.wanted
  phase : after.phase = .destroyed → before.phase = .destroyed

theorem Binding.Alike.refl (binding : Binding) : binding.Alike binding :=
  ⟨rfl, rfl, rfl, rfl, rfl, id⟩

theorem Binding.Alike.trans
    {first second third : Binding}
    (earlier : first.Alike second)
    (later : second.Alike third) :
    first.Alike third where
  element := later.element.trans earlier.element
  context := later.context.trans earlier.context
  hooks := later.hooks.trans earlier.hooks
  watch := later.watch.trans earlier.watch
  wanted := later.wanted.trans earlier.wanted
  phase destroyed := earlier.phase (later.phase destroyed)

theorem Binding.Evolves.alike {before after : Binding} (evolves : before.Evolves after) :
    before.Alike after := by
  obtain ⟨_, _, _, rfl, living⟩ := evolves
  exact ⟨rfl, rfl, rfl, rfl, rfl, living⟩

/-- What goes on in the life of a binding, but not to its end, is calm. -/
theorem Call.isCalm_of_subject?
    {call : Call}
    {key : BindingId}
    (own : call.subject? = some key)
    (gentle : call.ends = false) :
    call.isCalm := by
  cases call with
  | request | destroyEach => cases own
  | retire | bury => cases gentle
  | _ => rfl

/-- What a calm action asks is calm, whatever binding it is run for. -/
theorem Act.isCalm_request?
    {act : Act}
    {subject : Option BindingId}
    {request : Request}
    (calm : act.isCalm)
    (asked : Page.Act.request? act subject = some request) :
    request.isCalm := by
  cases act with
  | own verb => cases calm
  | page direct =>
      cases asked
      exact calm

/-- Changing an entry keeps what holds of all entries if it holds of the changed entry. -/
theorem forall_mem_modify
    {α : Type}
    {property : α → Prop}
    {entries : List α}
    {key : Nat}
    {change : α → α}
    (holds : ∀ entry ∈ entries, property entry)
    (keeps : ∀ entry, property entry → property (change entry)) :
    ∀ entry ∈ entries.modify key change, property entry := by
  intro entry member
  obtain ⟨position, found⟩ := List.mem_iff_getElem?.mp member
  rw [List.getElem?_modify] at found
  obtain ⟨before, there, changed⟩ := Option.map_eq_some_iff.mp found
  have held := holds before (List.mem_of_getElem? there)
  rw [← changed]
  split
  · exact keeps before held
  · exact held

namespace Page

/-- Whether all scripts of a page are calm. -/
def HasCalmScripts (page : Page) : Prop :=
  ∀ script ∈ page.scripts.entries, script.IsCalm

/-- The scene and the bindings' wishes are as before, and what came under way is calm. -/
structure Keeps (before after : Page) : Prop where
  scene : after.scene = before.scene
  scripts : before.HasCalmScripts → after.HasCalmScripts
  stack : ∃ added, after.stack = added ++ before.stack ∧ ∀ call ∈ added, call.isCalm
  kept :
    ∀ key binding, before.binding? key = some binding →
      ∃ now, after.binding? key = some now ∧ binding.Alike now
  made : ∀ key, before.binding? key = none → after.binding? key = none

namespace Keeps

variable {page : Page} {key : BindingId}

/-- Everything else of a page may change. -/
theorem of_push
    {after : Page}
    (added : List Call)
    (scene : after.scene = page.scene)
    (scripts : after.scripts = page.scripts)
    (stack : after.stack = added ++ page.stack)
    (bindings : after.bindings = page.bindings)
    (calm : ∀ call ∈ added, call.isCalm) :
    page.Keeps after := by
  refine ⟨scene, ?_, ⟨added, stack, calm⟩, ?_, ?_⟩
  · simp only [HasCalmScripts, scripts]
    exact id
  · intro key binding found
    exact ⟨binding, by simpa only [binding?, bindings] using found, .refl _⟩
  · intro key absent
    simpa only [binding?, bindings] using absent

theorem of_eq
    {after : Page}
    (scene : after.scene = page.scene)
    (scripts : after.scripts = page.scripts)
    (stack : after.stack = page.stack)
    (bindings : after.bindings = page.bindings) :
    page.Keeps after :=
  .of_push [] scene scripts stack bindings (by simp)

theorem refl (page : Page) : page.Keeps page :=
  .of_eq rfl rfl rfl rfl

theorem trans
    {first second third : Page}
    (earlier : first.Keeps second)
    (later : second.Keeps third) :
    first.Keeps third := by
  refine ⟨later.scene.trans earlier.scene, fun calm => later.scripts (earlier.scripts calm),
    ?_, ?_, fun key absent => later.made key (earlier.made key absent)⟩
  · obtain ⟨inner, before, calmBefore⟩ := earlier.stack
    obtain ⟨outer, after, calmAfter⟩ := later.stack
    refine ⟨outer ++ inner, by rw [after, before, List.append_assoc], ?_⟩
    intro call member
    exact (List.mem_append.mp member).elim (calmAfter call) (calmBefore call)
  · intro key binding found
    obtain ⟨middle, there, first⟩ := earlier.kept key binding found
    obtain ⟨now, here, second⟩ := later.kept key middle there
    exact ⟨now, here, first.trans second⟩

theorem push
    (page : Page)
    {calls : List Call}
    (calm : ∀ call ∈ calls, call.isCalm) :
    page.Keeps (page.push calls) :=
  .of_push calls rfl rfl rfl rfl calm

theorem record (page : Page) (event : Event) : page.Keeps (page.record event) :=
  .of_eq rfl rfl rfl rfl

theorem changeBinding
    {change : Binding → Binding}
    (alike :
      ∀ binding, page.binding? key = some binding → binding.Alike (change binding)) :
    page.Keeps (page.changeBinding key change) := by
  refine ⟨rfl, id, ⟨[], rfl, by simp⟩, ?_, ?_⟩
  · intro other binding found
    rw [binding?_changeBinding, found]
    split
    · next same =>
        subst same
        exact ⟨change binding, rfl, alike binding found⟩
    · exact ⟨binding, rfl, .refl _⟩
  · intro other absent
    rw [binding?_changeBinding, absent]
    split <;> rfl

/-- A life at work keeps what watches depend on. -/
theorem of_works
    {heft : Nat}
    {after : Page}
    (works : page.Works key heft after) :
    page.Keeps after := by
  obtain ⟨change, bindings, evolves⟩ := works.bindings
  obtain ⟨added, stack, own, _⟩ := works.stack
  have changed : page.Keeps (page.changeBinding key change) :=
    .changeBinding fun binding _ => (evolves binding).alike
  have same (other : BindingId) :
      after.binding? other = (page.changeBinding key change).binding? other := by
    simp only [binding?, bindings, Page.changeBinding]
  refine ⟨works.scene, ?_, ⟨added, stack, fun call member => ?_⟩, ?_, ?_⟩
  · simp only [HasCalmScripts, works.scripts]
    exact id
  · obtain ⟨subject, gentle, _⟩ := own call member
    exact Call.isCalm_of_subject? subject gentle
  · simpa only [same] using changed.kept
  · simpa only [same] using changed.made

/-- What is wanted of a binding already may be wanted again. -/
theorem setWanted
    {wanted : Bool}
    (already : ∀ binding, page.binding? key = some binding → binding.wanted = wanted) :
    page.Keeps (page.setWanted key wanted) :=
  .changeBinding fun binding found =>
    ⟨rfl, rfl, rfl, rfl, (already binding found).symm, id⟩

/-- A mount makes a wish; what follows keeps it. -/
theorem mount
    {binding : Binding}
    (found : page.binding? key = some binding)
    (living : binding.phase ≠ .destroyed) :
    (page.setWanted key true).Keeps (page.mount key) := by
  rw [← phase_of_found found] at living
  exact .of_works ((Works.mount_cases page key).resolve_left fun ended => living ended.1).2

/-- An unmount makes a wish; what follows keeps it. -/
theorem unmount
    {binding : Binding}
    (found : page.binding? key = some binding)
    (living : binding.phase ≠ .destroyed) :
    (page.setWanted key false).Keeps (page.unmount key) := by
  rw [← phase_of_found found] at living
  exact .of_works ((Works.unmount_cases page key).resolve_left fun ended => living ended.1).2

theorem launch (page : Page) (key : BindingId) (attempt : Nat) :
    page.Keeps (page.launch key attempt) := by
  obtain ⟨_, _, added, _, same, brings⟩ := launch_eq page key attempt
  rw [same]
  refine .of_push added rfl rfl rfl rfl ?_
  rcases brings with rfl | ⟨outcome, rfl⟩
  · simp
  · simp [Call.isCalm]

/-- A binding is mounted again only if that is wanted of it already. -/
theorem remount (page : Page) (key : BindingId) : page.Keeps (page.remount key) := by
  unfold Page.remount
  split
  · next again =>
      cases found : page.binding? key with
      | none =>
          simp [wants, found] at again
      | some binding =>
          rw [wants_of_found found, phase_of_found found] at again
          obtain ⟨wanted, unmounted⟩ := again
          have already : page.Keeps (page.setWanted key true) :=
            .setWanted fun other there => by
              cases found.symm.trans there
              exact wanted
          exact already.trans (.mount found (by simp [unmounted]))
  · exact .refl page

theorem drive (page : Page) (queue : QueueName) : page.Keeps (page.drive queue) := by
  unfold Page.drive
  split
  · exact .refl page
  · exact .push page (by simp [Call.isCalm])

theorem driveNext (page : Page) (queue : QueueName) : page.Keeps (page.driveNext queue) := by
  obtain ⟨_, _, added, same, brings⟩ := driveNext_eq page queue
  rw [same]
  refine .of_push added rfl rfl rfl rfl ?_
  rcases brings with rfl | rfl | ⟨binding, attempt, outcome, rfl⟩ <;> simp [Call.isCalm]

theorem hydrate (page : Page) (root : ElementId) : page.Keeps (page.hydrate root) := by
  refine Keeps.trans ?_ (.push _ (by simp [Call.isCalm]))
  exact .of_eq rfl rfl rfl rfl

/-- A calm script asks for something calm, and stays calm. -/
theorem runScript
    {script : ScriptId}
    {position : Nat}
    {subject : Option BindingId}
    {after : Page}
    (plays : page.Plays script position subject after)
    (calm : page.HasCalmScripts) :
    page.Keeps after := by
  cases plays with
  | finished => exact .refl page
  | skips => exact .push page (by simp [Call.isCalm])
  | @plays known action stored here _ _ =>
      have gentle : action.act.isCalm :=
        calm known (List.mem_of_getElem? stored) action (List.mem_of_getElem? here)
      have spent : page.Keeps { page with
          scripts := page.scripts.modify script fun script => Script.spend script position } := by
        refine ⟨rfl, fun _ => ?_, ⟨[], rfl, by simp⟩,
          fun _ binding found => ⟨binding, found, .refl _⟩, fun _ => id⟩
        exact forall_mem_modify calm fun script calm =>
          forall_mem_modify calm fun action gentle => gentle
      refine spent.trans (.push _ fun call member => ?_)
      rcases List.mem_append.mp member with asked | waiting
      · obtain ⟨request, asks, rfl⟩ := List.mem_map.mp asked
        exact Act.isCalm_request? gentle (Option.mem_toList.mp asks)
      · rw [List.mem_singleton.mp waiting]
        rfl

/-- Carrying on with a call that is inward keeps what watches depend on. -/
theorem carryOn
    {call : Call}
    (calm : page.HasCalmScripts)
    (inward : call.isInward) :
    page.Keeps (page.carryOn call) := by
  have worked {key : BindingId} (own : call.isOf key) (works : call.works) :
      page.Keeps (page.carryOn call) := by
    obtain ⟨_, _, works⟩ := Works.carryOn page own works
    exact .of_works works
  cases call with
  | request | deliver | hydrate | retire | bury | destroyEach => cases inward
  | pin => exact .refl page
  | script script position subject => exact .runScript (page.plays script position subject) calm
  | launch key attempt => exact .launch page key attempt
  | remount key => exact .remount page key
  | drive queue => exact .driveNext page queue
  | notice key | arrive key | construct key | settle key | teardown key | dismantle key
  | vacated key => exact worked (decide_eq_true (Eq.refl key)) rfl

end Keeps

end Page

end Hydration
