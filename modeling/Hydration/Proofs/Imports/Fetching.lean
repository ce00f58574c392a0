import Hydration.Proofs.Imports.Provision
import Hydration.Proofs.Life.Proceeding
import Hydration.Proofs.Life.Wishes

/-!
# Imports of a page

Wherever a host provides options and modules, before anything happens or between
any two steps, a page holds what was provided last.  A step either leaves all
imports alone, or it looks at one: at a new one that an attempt starts, or at one
that waits in a queue.  An import that is looked at lands or goes on waiting, and
what lands is what it was to bring from its start on.
-/

namespace Hydration

/-- Whether an import lands by a call. -/
def Call.isArrival : Call → Bool
  | arrive _ _ _ => true
  | _ => false

theorem Call.isArrival_of_isOrdinary {call : Call} (ordinary : call.isOrdinary) :
    call.isArrival = false := by
  cases call <;> first | rfl | cases ordinary

/-- Whether a move leaves what was provided as it is. -/
def Move.keepsProvisions : Move → Bool
  | .catalog _ | .registry _ => false
  | _ => true

namespace Page

/-- A page right after the host has provided something. -/
def provide (page : Page) : Provision → Page
  | .options entry =>
      { page with registry := page.registry.register entry.path entry.options entry.nickname }
  | .ready path module => page.setCatalog (page.catalog.define path module)
  | .lazy path loads lastLoad =>
      page.setCatalog (page.catalog.defineLazy path ⟨path, loads, lastLoad, 0, none⟩)

/--
The pages that `start` comes to, with what the host has provided on the way, first
to last.  It provides at any moment; its other moves are made at rest.
-/
inductive Provided (start : Page) : List Provision → Page → Prop where
  | here :
      Provided start [] start
  | provide
      {told : List Provision}
      {page : Page}
      (provision : Provision)
      (earlier : Provided start told page) :
      Provided start (told ++ [provision]) (page.provide provision)
  | move
      {told : List Provision}
      {page : Page}
      (move : Move)
      (earlier : Provided start told page)
      (rest : page.isAtRest)
      (keeps : move.keepsProvisions) :
      Provided start told (page.move move)
  | step
      {told : List Provision}
      {page : Page}
      (earlier : Provided start told page) :
      Provided start told page.step

theorem Provided.trans
    {start middle page : Page}
    {told later : List Provision}
    (first : Provided start told middle)
    (second : Provided middle later page) :
    Provided start (told ++ later) page := by
  induction second with
  | here => simpa using first
  | provide provision _ inductionHypothesis =>
      rw [← List.append_assoc]
      exact inductionHypothesis.provide provision
  | move move _ rest keeps inductionHypothesis => exact inductionHypothesis.move move rest keeps
  | step _ inductionHypothesis => exact inductionHypothesis.step

theorem life_provide (page : Page) (provision : Provision) (key : BindingId) :
    (page.provide provision).life key = page.life key := by
  cases provision <;> exact life_congr rfl rfl rfl rfl rfl

/-- The life of a binding is reached whatever is provided meanwhile. -/
theorem Provided.lives
    {start page : Page}
    {told : List Provision}
    (begins : start.Begins)
    (provided : Provided start told page)
    (key : BindingId) :
    Life.Reached key (fun _ _ => True) (page.life key) := by
  induction provided with
  | here => exact .begin (begins.life key)
  | provide provision _ inductionHypothesis =>
      rw [life_provide]
      exact inductionHypothesis
  | @move told page move _ _ _ inductionHypothesis =>
      exact inductionHypothesis.disturbed (page.disturbed_move move key)
  | @step told page _ inductionHypothesis =>
      have present (busy : (page.life key).calls ≠ []) :=
        inductionHypothesis.present_of_busy (.inl busy)
      rcases page.step_life present with disturbed | ⟨call, outer, _, _, calls, carried⟩
      · exact inductionHypothesis.disturbed disturbed
      · exact inductionHypothesis.carried (present (by simp [calls])) calls trivial carried

/-- Imports, what was provided and what bindings tie together are left alone. -/
structure Abides (before after : Page) : Prop where
  registry : after.registry = before.registry
  catalog : after.catalog = before.catalog
  unfinished : (after.executor.unfinished : Multiset Task) = before.executor.unfinished
  stack : ∃ added, after.stack = added ++ before.stack ∧ ∀ call ∈ added, call.isArrival = false
  bond : ∀ key bond, before.bond? key = some bond → after.bond? key = some bond

namespace Abides

theorem refl (page : Page) : page.Abides page :=
  ⟨rfl, rfl, rfl, ⟨[], rfl, by simp⟩, fun _ _ => id⟩

theorem trans
    {first second third : Page}
    (earlier : first.Abides second)
    (later : second.Abides third) :
    first.Abides third := by
  refine ⟨later.registry.trans earlier.registry, later.catalog.trans earlier.catalog,
    later.unfinished.trans earlier.unfinished, ?_,
    fun key bond found => later.bond key bond (earlier.bond key bond found)⟩
  obtain ⟨inner, before, harmless⟩ := earlier.stack
  obtain ⟨outer, after, harmlessToo⟩ := later.stack
  refine ⟨outer ++ inner, by rw [after, before, List.append_assoc], ?_⟩
  intro call member
  exact (List.mem_append.mp member).elim (harmlessToo call) (harmless call)

theorem of_proceeds {before after : Page} (proceeds : before.Proceeds after) :
    before.Abides after := by
  refine ⟨proceeds.registry, proceeds.catalog, by rw [proceeds.executor], ?_,
    fun key bond found => (proceeds.bond key).trans found⟩
  obtain ⟨added, stack, ordinary⟩ := proceeds.stack
  exact ⟨added, stack, fun call member => Call.isArrival_of_isOrdinary (ordinary call member)⟩

theorem push
    (page : Page)
    {calls : List Call}
    (harmless : ∀ call ∈ calls, call.isArrival = false) :
    page.Abides (page.push calls) :=
  ⟨rfl, rfl, rfl, ⟨calls, rfl, harmless⟩, fun _ _ => id⟩

/-- What neither imports nor bindings see may change. -/
theorem of_eq
    {before after : Page}
    (registry : after.registry = before.registry)
    (catalog : after.catalog = before.catalog)
    (unfinished : (after.executor.unfinished : Multiset Task) = before.executor.unfinished)
    (stack : after.stack = before.stack)
    (bindings : after.bindings = before.bindings) :
    before.Abides after := by
  refine ⟨registry, catalog, unfinished, ⟨[], stack, by simp⟩, fun key bond found => ?_⟩
  rw [bond?, binding?, bindings]
  exact found

theorem addBinding (page : Page) (binding : Binding) : page.Abides (page.addBinding binding) := by
  refine ⟨rfl, rfl, rfl, ⟨[], rfl, by simp⟩, fun key bond found => ?_⟩
  have old : key ≠ page.bindings.size := by
    rintro rfl
    rw [bond?, binding?, Table.get?_size] at found
    cases found
  rw [bond?, binding?_addBinding, if_neg old]
  exact found

theorem answer (page : Page) (request : Request) : page.Abides (page.answer request) := by
  have rescened (page : Page) (scene : Scene) : page.Abides { page with scene } :=
    .of_eq rfl rfl rfl rfl rfl
  cases request with
  | bind verb key => exact .of_proceeds (.obey page verb key)
  | drive queue =>
      simp only [Page.answer, Page.drive]
      split
      · exact .refl page
      · exact .push page (by simp [Call.isArrival])
  | toggle | resize | reveal =>
      exact (rescened page _).trans (.push _ (by simp [Call.isArrival]))
  | mark | append | cancel | dropSubscription | dropMonitor => exact rescened page _
  | release gate => exact .of_eq rfl rfl (Executor.unfinished_release _ gate) rfl rfl
  | hydrate root =>
      have forgotten (modules : List BindingId) : page.Abides { page with modules } :=
        .of_eq rfl rfl rfl rfl rfl
      exact (forgotten _).trans (.push _ (by simp [Call.isArrival]))
  | destroyAll =>
      have forgotten : page.Abides { page with modules := [] } := .of_eq rfl rfl rfl rfl rfl
      exact forgotten.trans (.push _ (by simp [Call.isArrival]))

theorem runScript
    {page after : Page}
    {script : ScriptId}
    {position : Nat}
    {subject : Option BindingId}
    (plays : page.Plays script position subject after) :
    page.Abides after := by
  cases plays with
  | finished => exact .refl page
  | skips => exact .push page (by simp [Call.isArrival])
  | plays =>
      have spent (scripts : Table Script) : page.Abides { page with scripts } :=
        .of_eq rfl rfl rfl rfl rfl
      refine (spent _).trans (.push _ fun call member => ?_)
      rcases List.mem_append.mp member with asked | waiting
      · obtain ⟨request, _, rfl⟩ := List.mem_map.mp asked
        rfl
      · rw [List.mem_singleton.mp waiting]
        rfl

theorem hydrateNext (page : Page) (hooks : Hooks) (elements : List ElementId) :
    page.Abides (page.hydrateNext hooks elements) := by
  cases elements with
  | nil => exact .refl page
  | cons element rest =>
      have waiting : page.Abides (page.push [.hydrate hooks rest]) :=
        .push page (by simp [Call.isArrival])
      have listed (page : Page) (modules : List BindingId) : page.Abides { page with modules } :=
        .of_eq rfl rfl rfl rfl rfl
      simp only [Page.hydrateNext]
      split
      · exact waiting
      · exact ((waiting.trans (.addBinding _ _)).trans (listed _ _)).trans
          (.push _ (by simp [Call.isArrival]))

theorem destroyNext (page : Page) (bindings : List BindingId) :
    page.Abides (page.destroyNext bindings) := by
  cases bindings with
  | nil => exact .refl page
  | cons key rest => exact .push page (by simp [Call.isArrival])

/-- All calls but those that look at an import leave imports alone. -/
theorem carryOn
    (page : Page)
    {call : Call}
    (unlaunched : ∀ key attempt, call ≠ .launch key attempt)
    (undriven : ∀ queue, call ≠ .drive queue) :
    page.Abides (page.carryOn call) := by
  have owned {key : BindingId} (own : call.isOf key) : page.Abides (page.carryOn call) :=
    .of_proceeds (.carryOn own fun attempt => unlaunched key attempt)
  cases call with
  | request request => exact .answer page request
  | script key position subject => exact .runScript (page.plays key position subject)
  | deliver monitors => exact .of_proceeds (.deliver page monitors)
  | pin => exact .refl page
  | hydrate hooks elements => exact .hydrateNext page hooks elements
  | destroyEach bindings => exact .destroyNext page bindings
  | launch key attempt => exact (unlaunched key attempt rfl).elim
  | drive queue => exact (undriven queue rfl).elim
  | notice other | arrive other | construct other | settle other | teardown other
  | dismantle other | vacated other | remount other | retire other | bury other =>
      exact owned (decide_eq_true (Eq.refl other))

end Abides

/--
What becomes of an import that is not among the unfinished any more: it lands or
goes on waiting.  If it was `seen`, it waits for a gate that is closed.
-/
inductive Looked (before : Page) (task : Task) (seen : Prop) (after : Page) : Prop where
  | lands
      {outcome : Except MountFault Module}
      (registry : after.registry = before.registry)
      (bindings : after.bindings = before.bindings)
      (arrived :
        before.catalog.poll before.executor.opened task.pending = some (outcome, after.catalog))
      (unfinished : (after.executor.unfinished : Multiset Task) = before.executor.unfinished)
      (stack : after.stack = .arrive task.binding task.attempt outcome :: before.stack)
  | waits
      (registry : after.registry = before.registry)
      (bindings : after.bindings = before.bindings)
      (catalog : after.catalog = before.catalog)
      (unfinished :
        (after.executor.unfinished : Multiset Task) = task ::ₘ before.executor.unfinished)
      (stack : after.stack = before.stack)
      (closed : seen → ∃ gate, task.pending.awaited? before.executor.opened = some gate)

/-- What carrying on with a call means for imports; the call was already taken off. -/
inductive Fetched (page : Page) : Call → Page → Prop where
  | aside
      {call : Call}
      {after : Page}
      (abides : page.Abides after) :
      Fetched page call after
  /-- An attempt starts its import. -/
  | starts
      {key : BindingId}
      {attempt : Nat}
      {binding : Binding}
      {after : Page}
      (found : page.binding? key = some binding)
      (current : isCurrent binding attempt)
      (looked :
        Looked
          { page with
            catalog := (page.startImport binding.hooks.importer binding.name).catalog }
          ⟨key, attempt, (page.startImport binding.hooks.importer binding.name).pending⟩
          (binding.hooks.spawning = .immediate) after) :
      Fetched page (.launch key attempt) after
  /-- A queue looks at a task that waits. -/
  | resumes
      {queue : QueueName}
      {task : Task}
      {others : Executor Task}
      {after : Page}
      (taken :
        (page.executor.unfinished : Multiset Task) = task ::ₘ others.unfinished)
      (looked : Looked ({ page with executor := others }.push [.drive queue]) task True after) :
      Fetched page (.drive queue) after

theorem Spawns.looked
    {before after : Page}
    {spawning : Spawning}
    {task : Task}
    (spawned : before.Spawns spawning task after) :
    before.Looked task (spawning = .immediate) after := by
  cases spawned with
  | waits closed => exact .waits rfl rfl rfl (Executor.unfinished_spawn _ _ task) rfl closed
  | lands _ arrived => exact .lands rfl rfl arrived rfl rfl

/-- An attempt that is current has its import started and looked at. -/
theorem looked_launch
    {page : Page}
    {key : BindingId}
    {attempt : Nat}
    {binding : Binding}
    (found : page.binding? key = some binding)
    (current : isCurrent binding attempt) :
    Looked
      { page with catalog := (page.startImport binding.hooks.importer binding.name).catalog }
      ⟨key, attempt, (page.startImport binding.hooks.importer binding.name).pending⟩
      (binding.hooks.spawning = .immediate) (page.launch key attempt) := by
  have launches := page.launches key attempt
  generalize page.launch key attempt = after at launches ⊢
  cases launches with
  | late done => exact (done binding found current).elim
  | starts reports there _ spawned =>
      cases found.symm.trans there
      -- the report of a load is of no importance to imports
      cases spawned.looked with
      | lands registry bindings arrived unfinished stack =>
          exact .lands registry bindings arrived unfinished stack
      | waits registry bindings catalog unfinished stack closed =>
          exact .waits registry bindings catalog unfinished stack closed

theorem fetched_launch (page : Page) (key : BindingId) (attempt : Nat) :
    page.Fetched (.launch key attempt) (page.launch key attempt) := by
  have looked {binding : Binding} (found : page.binding? key = some binding)
      (current : isCurrent binding attempt) := looked_launch found current
  have launches := page.launches key attempt
  generalize page.launch key attempt = after at launches looked ⊢
  cases launches with
  | late => exact .aside (.refl page)
  | starts _ found current => exact .starts found current (looked found current)

theorem fetched_driveNext (page : Page) (queue : QueueName) :
    page.Fetched (.drive queue) (page.driveNext queue) := by
  have drained := Executor.unfinished_drain page.executor queue
  have drives := page.drives queue
  generalize page.driveNext queue = after at drives ⊢
  cases drives with
  | drained => exact .aside (.of_eq rfl rfl drained rfl rfl)
  | lands taken arrived =>
      exact .resumes (drained.symm.trans (Executor.unfinished_of_next? taken))
        (.lands rfl rfl arrived rfl rfl)
  | @waits task others gate taken closed =>
      exact .resumes (drained.symm.trans (Executor.unfinished_of_next? taken))
        (.waits rfl rfl rfl (Executor.unfinished_wait _ gate queue task) rfl
          fun _ => ⟨gate, closed⟩)

/-- Every call leaves imports alone, starts one or looks at one. -/
theorem fetched_carryOn (page : Page) (call : Call) : page.Fetched call (page.carryOn call) := by
  by_cases launches : ∃ key attempt, call = .launch key attempt
  · obtain ⟨key, attempt, rfl⟩ := launches
    exact fetched_launch page key attempt
  · by_cases drives : ∃ queue, call = .drive queue
    · obtain ⟨queue, rfl⟩ := drives
      exact fetched_driveNext page queue
    · push Not at launches drives
      exact .aside (.carryOn page launches drives)

end Page

end Hydration
