import Hydration.Proofs.Life.Proceeding
import Hydration.Proofs.Watching.Calm

/-!
# What hydration knows remains

Bindings are made, listed and forgotten by hydration and by an end of all
bindings, and by nothing else.  Scripts may ask for either; tame scripts do not,
and then all that comes under way between the elements of a pass is tame as well.
-/

namespace Hydration

/-- Whether a request neither hydrates nor ends all bindings. -/
def Request.isTame : Request → Bool
  | hydrate _ | destroyAll => false
  | _ => true

def Act.isTame : Act → Bool
  | page request => request.isTame
  | own _ => true

/-- Whether a call neither makes bindings nor ends all of them. -/
def Call.isTame : Call → Bool
  | .request asked => asked.isTame
  | hydrate _ _ | destroyEach _ => false
  | _ => true

theorem Call.isTame_of_isOrdinary {call : Call} (ordinary : call.isOrdinary) : call.isTame := by
  cases call with
  | request request => cases request <;> first | rfl | cases ordinary
  | hydrate | destroyEach => cases ordinary
  | _ => rfl

/-- What a tame action asks is tame, whatever binding it is run for. -/
theorem Act.isTame_request?
    {act : Act}
    {subject : Option BindingId}
    {request : Request}
    (tame : act.isTame)
    (asked : Page.Act.request? act subject = some request) :
    request.isTame := by
  cases act with
  | page direct =>
      cases asked
      exact tame
  | own verb =>
      cases subject with
      | none => cases asked
      | some key =>
          cases asked
          rfl

namespace Page

/-- Whether no script hydrates or ends all bindings. -/
def IsTame (page : Page) : Prop :=
  ∀ script ∈ page.scripts.entries, ∀ action ∈ script.actions, action.act.isTame

/--
The strategies, the bindings and what hydration knows of them are as before, and
what came under way is tame if all scripts are.
-/
structure Remains (before after : Page) : Prop where
  hooks : after.hooks = before.hooks
  modules : after.modules = before.modules
  size : after.bindings.size = before.bindings.size
  bond : ∀ key, after.bond? key = before.bond? key
  scripts : before.IsTame → after.IsTame
  stack :
    ∃ added, after.stack = added ++ before.stack ∧ (before.IsTame → ∀ call ∈ added, call.isTame)

namespace Remains

variable {page : Page} {key : BindingId}

/-- Everything else of a page may change. -/
theorem of_eq
    {after : Page}
    (hooks : after.hooks = page.hooks)
    (modules : after.modules = page.modules)
    (bindings : after.bindings = page.bindings)
    (scripts : after.scripts = page.scripts)
    (stack : after.stack = page.stack) :
    page.Remains after := by
  refine ⟨hooks, modules, by rw [bindings], ?_, ?_, [], stack, by simp⟩
  · intro key
    simp only [bond?, binding?, bindings]
  · simp only [IsTame, scripts]
    exact id

theorem refl (page : Page) : page.Remains page :=
  .of_eq rfl rfl rfl rfl rfl

theorem trans
    {first second third : Page}
    (earlier : first.Remains second)
    (later : second.Remains third) :
    first.Remains third := by
  refine ⟨later.hooks.trans earlier.hooks, later.modules.trans earlier.modules,
    later.size.trans earlier.size, fun key => (later.bond key).trans (earlier.bond key),
    fun tame => later.scripts (earlier.scripts tame), ?_⟩
  obtain ⟨inner, before, tameBefore⟩ := earlier.stack
  obtain ⟨outer, after, tameAfter⟩ := later.stack
  refine ⟨outer ++ inner, by rw [after, before, List.append_assoc], ?_⟩
  intro tame call member
  exact (List.mem_append.mp member).elim (tameAfter (earlier.scripts tame) call)
    (tameBefore tame call)

theorem of_proceeds {before after : Page} (proceeds : before.Proceeds after) :
    before.Remains after := by
  refine ⟨proceeds.hooks, proceeds.modules, proceeds.size, proceeds.bond, ?_, ?_⟩
  · simp only [IsTame, proceeds.scripts]
    exact id
  · obtain ⟨added, stack, ordinary⟩ := proceeds.stack
    exact ⟨added, stack, fun _ call member => Call.isTame_of_isOrdinary (ordinary call member)⟩

theorem push
    (page : Page)
    {calls : List Call}
    (tame : ∀ call ∈ calls, call.isTame) :
    page.Remains (page.push calls) :=
  ⟨rfl, rfl, rfl, fun _ => rfl, id, calls, rfl, fun _ => tame⟩

theorem launch (page : Page) (key : BindingId) (attempt : Nat) :
    page.Remains (page.launch key attempt) := by
  obtain ⟨_, _, added, _, same, brings⟩ := launch_eq page key attempt
  rw [same]
  refine ⟨rfl, rfl, rfl, fun _ => rfl, id, added, rfl, fun _ => ?_⟩
  rcases brings with rfl | ⟨outcome, rfl⟩
  · simp
  · simp [Call.isTame]

theorem driveNext (page : Page) (queue : QueueName) : page.Remains (page.driveNext queue) := by
  obtain ⟨_, _, added, same, brings⟩ := driveNext_eq page queue
  rw [same]
  refine ⟨rfl, rfl, rfl, fun _ => rfl, id, added, rfl, fun _ => ?_⟩
  rcases brings with rfl | rfl | ⟨binding, attempt, outcome, rfl⟩ <;> simp [Call.isTame]

theorem runScript
    {script : ScriptId}
    {position : Nat}
    {subject : Option BindingId}
    {after : Page}
    (plays : page.Plays script position subject after) :
    page.Remains after := by
  cases plays with
  | finished => exact .refl page
  | skips => exact .push page (by simp [Call.isTame])
  | @plays known action stored here _ _ =>
      refine ⟨rfl, rfl, rfl, fun _ => rfl, fun tame => ?_, _, rfl, fun tame call member => ?_⟩
      · exact forall_mem_modify tame fun script tame =>
          forall_mem_modify tame fun action gentle => gentle
      · rcases List.mem_append.mp member with asked | waiting
        · obtain ⟨request, asks, rfl⟩ := List.mem_map.mp asked
          have gentle : action.act.isTame :=
            tame known (List.mem_of_getElem? stored) action (List.mem_of_getElem? here)
          exact Act.isTame_request? gentle (Option.mem_toList.mp asks)
        · rw [List.mem_singleton.mp waiting]
          rfl

theorem answer
    {request : Request}
    (page : Page)
    (tame : request.isTame) :
    page.Remains (page.answer request) := by
  have rescened (page : Page) (scene : Scene) : page.Remains { page with scene } :=
    .of_eq rfl rfl rfl rfl rfl
  cases request with
  | hydrate | destroyAll => cases tame
  | bind verb key => exact .of_proceeds (.obey page verb key)
  | drive queue =>
      simp only [Page.answer, Page.drive]
      split
      · exact .refl page
      · exact .push page (by simp [Call.isTame])
  | toggle | resize | reveal =>
      exact (rescened page _).trans (.push _ (by simp [Call.isTame]))
  | mark | append | cancel | dropSubscription | dropMonitor => exact rescened page _
  | release gate => exact .of_eq rfl rfl rfl rfl rfl

/-- A tame call leaves the bindings and what hydration knows of them. -/
theorem carryOn
    {call : Call}
    (page : Page)
    (tame : call.isTame) :
    page.Remains (page.carryOn call) := by
  have owned {key : BindingId} (own : call.isOf key)
      (unlaunched : ∀ attempt, call ≠ .launch key attempt) :
      page.Remains (page.carryOn call) :=
    .of_proceeds (.carryOn own unlaunched)
  cases call with
  | hydrate | destroyEach => cases tame
  | request request => exact .answer page tame
  | script script position subject => exact .runScript (page.plays script position subject)
  | deliver monitors => exact .of_proceeds (.deliver page monitors)
  | pin => exact .refl page
  | launch key attempt => exact .launch page key attempt
  | drive queue => exact .driveNext page queue
  | notice other | arrive other | construct other | settle other | teardown other
  | dismantle other | vacated other | remount other | retire other | bury other =>
      exact owned (decide_eq_true (Eq.refl other)) (by simp)

end Remains

end Page

end Hydration
