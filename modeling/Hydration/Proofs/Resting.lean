import Hydration.Proofs.Imports.Fetching
import Hydration.Proofs.Passive.Minding
import Mathlib.Algebra.Order.BigOperators.Group.List
import Mathlib.Algebra.Order.Group.Nat

/-!
# Every page comes to rest

Scripts may ask for anything, but each of their actions only a limited number of
times; and what goes on between two actions comes to an end.  Four numbers say
so, the first that changes going down at each step: what may still be asked of
the page, how often a wish may still turn, how many wanted bindings lose their
instance, and how much there is to do until then.  The third is needed because a
wanted binding whose instance has left begins another attempt to mount.
-/

namespace Hydration

/-- Whether something is asked of the page and not of one binding. -/
def Call.asks : Call → Nat
  | request (.bind _ _) => 0
  | request _ => 1
  | _ => 0

/-- How often a call may turn a wish before anything else is asked of the page. -/
def Call.turns : Call → Nat
  | request (.bind .start _) | request (.bind .destroy _) => 2
  | request (.bind .mount _) | request (.bind .unmount _) | retire _ => 1
  | deliver monitors => 2 * monitors.length
  | hydrate _ elements => 3 * elements.length + 1
  | destroyEach bindings => 3 * bindings.length + 1
  | _ => 0

/-- Whether a call is on the way of an instance that leaves. -/
def Call.vacates : Call → Bool
  | teardown _ | dismantle _ | vacated _ | remount _ => true
  | _ => false

/-- What calls ask of the page. -/
def asked (calls : List Call) : Nat :=
  (calls.map Call.asks).sum

/-- How often calls may turn a wish. -/
def turned (calls : List Call) : Nat :=
  (calls.map Call.turns).sum

@[simp] theorem asked_nil : asked [] = 0 := rfl

@[simp] theorem asked_cons (call : Call) (calls : List Call) :
    asked (call :: calls) = call.asks + asked calls := by
  simp [asked]

@[simp] theorem asked_append (first second : List Call) :
    asked (first ++ second) = asked first + asked second := by
  simp [asked]

@[simp] theorem turned_nil : turned [] = 0 := rfl

@[simp] theorem turned_cons (call : Call) (calls : List Call) :
    turned (call :: calls) = call.turns + turned calls := by
  simp [turned]

@[simp] theorem turned_append (first second : List Call) :
    turned (first ++ second) = turned first + turned second := by
  simp [turned]

theorem Call.asks_of_isOrdinary {call : Call} (ordinary : call.isOrdinary) : call.asks = 0 := by
  cases call with
  | request request => cases request <;> first | rfl | cases ordinary
  | _ => rfl

theorem asked_eq_zero {calls : List Call} (harmless : ∀ call ∈ calls, call.asks = 0) :
    asked calls = 0 := by
  induction calls with
  | nil => rfl
  | cons call rest inductionHypothesis =>
      rw [asked_cons, harmless call List.mem_cons_self,
        inductionHypothesis fun other member => harmless other (List.mem_cons_of_mem _ member)]

theorem turned_eq_zero {calls : List Call} (harmless : ∀ call ∈ calls, call.turns = 0) :
    turned calls = 0 := by
  induction calls with
  | nil => rfl
  | cons call rest inductionHypothesis =>
      rw [turned_cons, harmless call List.mem_cons_self,
        inductionHypothesis fun other member => harmless other (List.mem_cons_of_mem _ member)]

theorem Call.asks_of_subject? {call : Call} {key : BindingId} (own : call.subject? = some key) :
    call.asks = 0 := by
  cases call with
  | request => cases own
  | _ => rfl

theorem Call.turns_of_subject?
    {call : Call}
    {key : BindingId}
    (own : call.subject? = some key)
    (gentle : call.ends = false) :
    call.turns = 0 := by
  cases call with
  | request | deliver | pin | hydrate | destroyEach | drive => cases own
  | retire => cases gentle
  | _ => rfl

/-- The instance of a wanted binding leaves by what is on the way already. -/
theorem Life.Carried.countP_vacates
    {key : BindingId}
    {call : Call}
    {before after : Life}
    (happened : Life.Carried key call before after)
    (gentle : call.ends = false)
    (wanted : before.wanted = true) :
    after.calls.countP Call.vacates ≤
      before.calls.countP Call.vacates + if call.vacates then 1 else 0 := by
  cases happened with
  | settleUnwanted _ unwanted => simp [unwanted] at wanted
  | retireMounted | retire | bury => cases gentle
  | _ => simp [Life.push, Life.fail, Life.begin, List.countP_cons, Call.vacates]

/-- The tasks that are queued and do not wait for a gate. -/
def Executor.queued {τ : Type} (executor : Executor τ) : Nat :=
  executor.page.incoming.length + executor.page.ready.length +
    (executor.host.incoming.length + executor.host.ready.length)

namespace Executor

variable {τ : Type}

theorem queued_spawn (executor : Executor τ) (queue : QueueName) (task : τ) :
    (executor.spawn queue task).queued = executor.queued + 1 := by
  cases queue <;> simp [queued, spawn, change] <;> omega

theorem queued_drain (executor : Executor τ) (queue : QueueName) :
    (executor.drain queue).queued = executor.queued := by
  cases queue <;> simp [queued, drain, change] <;> omega

theorem queued_of_next?
    {executor others : Executor τ}
    {queue : QueueName}
    {task : τ}
    (next : executor.next? queue = some (task, others)) :
    others.queued + 1 = executor.queued := by
  unfold next? at next
  split at next
  · cases next
  · next first rest ready =>
    cases next
    cases queue <;> simp [queued, change, Executor.queue] at ready ⊢ <;> simp [ready] <;> omega

end Executor

namespace Page

/-- How many actions all scripts together may still do. -/
def budget (page : Page) : Nat :=
  (page.scripts.entries.map fun script => (script.actions.map Action.remaining).sum).sum

/-- How long a script is. -/
def scriptLength (page : Page) (script : ScriptId) : Nat :=
  ((page.scripts.get? script).map fun known => known.actions.length).getD 0

/-- More than the length of any script. -/
def unit (page : Page) : Nat :=
  (page.scripts.entries.map fun script => script.actions.length).sum + 2

/-- More than what is to be done for a call until something is asked of the page. -/
def cost (page : Page) : Call → Nat
  | .script script position _ => page.scriptLength script - position + 1
  | .deliver _ | .drive _ => 1
  | .bury _ => 5 * page.unit
  | .request _ | .hydrate _ _ | .destroyEach _ | .retire _ => 0
  | call => call.heft * page.unit

/-- More than what is to be done for a task that lands. -/
def taskCost (page : Page) : Nat :=
  25 * page.unit + 1

/-- What may still be asked of the page. -/
def pleas (page : Page) : Nat :=
  2 * page.budget + asked page.stack

/-- How often a wish may turn before anything else is asked of the page. -/
def whims (page : Page) : Nat :=
  turned page.stack

/-- Whether a wanted binding loses its instance by a call. -/
def isLoss (page : Page) (call : Call) : Bool :=
  call.vacates && (call.subject?.any page.wants)

/-- How many calls are on the way of instances of wanted bindings that leave. -/
def losses (page : Page) : Nat :=
  page.stack.countP page.isLoss

/-- What is to be done until something is asked of the page. -/
def labour (page : Page) : Nat :=
  (page.stack.map page.cost).sum + page.executor.queued * page.taskCost

/-- The first of the four numbers that changes goes down. -/
inductive Lighter (before after : Page) : Prop where
  | pleas
      (less : after.pleas < before.pleas)
  | whims
      (asks : after.pleas ≤ before.pleas)
      (less : after.whims < before.whims)
  | losses
      (asks : after.pleas ≤ before.pleas)
      (turns : after.whims ≤ before.whims)
      (less : after.losses < before.losses)
  | labour
      (asks : after.pleas ≤ before.pleas)
      (turns : after.whims ≤ before.whims)
      (leaves : after.losses ≤ before.losses)
      (less : after.labour < before.labour)

variable {page after : Page} {call : Call} {outer : List Call} {key : BindingId}

theorem unit_of_scripts (scripts : after.scripts = page.scripts) : after.unit = page.unit := by
  rw [unit, unit, scripts]

theorem cost_of_scripts (scripts : after.scripts = page.scripts) : after.cost = page.cost := by
  funext call
  cases call <;> simp only [cost, scriptLength, unit, scripts]

theorem unit_pos (page : Page) : 0 < page.unit :=
  Nat.succ_pos _

theorem scriptLength_lt_unit (page : Page) (script : ScriptId) :
    page.scriptLength script + 2 ≤ page.unit := by
  unfold scriptLength unit
  cases found : page.scripts.get? script with
  | none => simp
  | some known =>
      have member : known.actions.length ∈ page.scripts.entries.map fun script =>
          script.actions.length :=
        List.mem_map.mpr ⟨known, List.mem_of_getElem? found, rfl⟩
      have within := List.le_sum_of_mem member
      simpa using within

/-- A gentle call of a binding costs no more than its heft. -/
theorem cost_le_heft
    (own : call.subject? = some key)
    (gentle : call.ends = false) :
    page.cost call ≤ call.heft * page.unit := by
  cases call with
  | request | deliver | pin | hydrate | destroyEach | drive => cases own
  | retire | bury => cases gentle
  | script script position subject =>
      have short := page.scriptLength_lt_unit script
      simp only [cost, Call.heft]
      omega
  | _ => exact Nat.le_refl _

theorem sum_cost_le_heftOf
    {calls : List Call}
    (own : ∀ call ∈ calls, call.subject? = some key ∧ call.ends = false) :
    (calls.map page.cost).sum ≤ heftOf calls * page.unit := by
  induction calls with
  | nil => exact Nat.zero_le _
  | cons call rest inductionHypothesis =>
      obtain ⟨mine, others⟩ := List.forall_mem_cons.mp own
      rw [List.map_cons, List.sum_cons, heftOf_cons, Nat.add_mul]
      exact Nat.add_le_add (cost_le_heft mine.1 mine.2) (inductionHypothesis others)

/-- An ordinary change asks nothing more of the page. -/
theorem Proceeds.pleas_eq
    (proceeds : ({ page with stack := outer } : Page).Proceeds after)
    (stack : page.stack = call :: outer) :
    after.pleas + call.asks = page.pleas := by
  obtain ⟨added, pushed, ordinary⟩ := proceeds.stack
  have harmless : asked added = 0 :=
    asked_eq_zero fun other member => Call.asks_of_isOrdinary (ordinary other member)
  have scripts : after.budget = page.budget := by
    rw [budget, proceeds.scripts, budget]
  replace pushed : after.stack = added ++ outer := pushed
  rw [Page.pleas, Page.pleas, scripts, pushed, stack, asked_append, asked_cons, harmless]
  omega

/-- What is asked of the page is done once. -/
theorem lighter_answer
    {request : Request}
    (stack : page.stack = .request request :: outer)
    (general : ∀ verb key, request ≠ .bind verb key) :
    page.Lighter page.step := by
  have asks : (Call.request request).asks = 1 := by
    cases request with
    | bind verb key => exact (general verb key rfl).elim
    | _ => rfl
  have answered :
      page.step.scripts = page.scripts ∧ asked page.step.stack = asked outer := by
    rw [step_of_stack stack, carryOn]
    cases request with
    | bind verb key => exact (general verb key rfl).elim
    | drive queue =>
        simp only [answer, drive]
        split <;> exact ⟨rfl, by simp [push, Call.asks]⟩
    | toggle | resize | reveal | hydrate | destroyAll =>
        exact ⟨rfl, by simp [answer, refresh, Page.hydrate, Page.destroyAll, push, Call.asks]⟩
    | mark | append | release | cancel | dropSubscription | dropMonitor => exact ⟨rfl, rfl⟩
  refine .pleas ?_
  have budget : page.step.budget = page.budget := by
    rw [Page.budget, answered.1, Page.budget]
  rw [Page.pleas, Page.pleas, budget, answered.2, stack, asked_cons, asks]
  omega

theorem turned_obey (page : Page) (verb : Verb) (key : BindingId) :
    turned (page.obey verb key).stack <
      (Call.request (.bind verb key)).turns + turned page.stack := by
  cases verb with
  | start =>
      have starts := page.starts key
      rw [obey]
      generalize page.start key = after at starts ⊢
      cases starts with
      | late => simp [Call.turns]
      | unread => simp [report, push, Call.turns]
      | refused => simp [report, push, Call.turns]
      | watched =>
          split <;> simp [push, giveWatch, changeBinding, Call.turns]
  | mount =>
      simp only [obey, mount]
      split
      · simp [Call.turns]
      · split <;> simp [push, setWanted, changeBinding, Call.turns]
  | unmount =>
      simp only [obey, unmount]
      split <;> simp [push, setWanted, changeBinding, Call.turns]
  | destroy =>
      simp only [obey, destroy]
      split <;> simp [push, Call.turns]

/-- What is asked of a binding turns its wish, or leads to what turns it, once. -/
theorem lighter_obey
    {verb : Verb}
    (stack : page.stack = .request (.bind verb key) :: outer) :
    page.Lighter page.step := by
  have proceeds : ({ page with stack := outer } : Page).Proceeds page.step := by
    rw [step_of_stack stack]
    exact .obey _ verb key
  refine .whims (Nat.le_of_eq (proceeds.pleas_eq stack)) ?_
  have less := turned_obey { page with stack := outer } verb key
  rw [Page.whims, Page.whims, stack, turned_cons, step_of_stack stack]
  exact less

/-- A call that leaves nothing behind is done. -/
theorem lighter_of_popped
    (stack : page.stack = call :: outer)
    (popped : page.step = { page with stack := outer })
    (costly : 0 < page.cost call) :
    page.Lighter page.step := by
  rw [popped]
  refine .labour ?_ ?_ ?_ ?_
  · simp [Page.pleas, Page.budget, stack]
  · simp [Page.whims, stack]
  · simp only [Page.losses, stack, List.countP_cons]
    exact Nat.le_add_right _ _
  · have same : ({ page with stack := outer } : Page).cost = page.cost := cost_of_scripts rfl
    simp only [Page.labour, stack, same, taskCost, unit, List.map_cons, List.sum_cons]
    omega

/-- Whoever is told of a monitor, one wish is turned at most. -/
theorem turned_hear (page : Page) (listener : Listener) (value : Bool) :
    turned (page.hear listener value).stack ≤ turned page.stack + 1 := by
  have told (page : Page) (audience : Audience) (value : Bool) :
      turned (page.tell audience value).stack ≤ turned page.stack + 1 := by
    cases audience with
    | host => exact Nat.le_succ _
    | binding key => cases value <;> simp [tell, push, Call.turns, Nat.add_comm]
  cases listener with
  | host => simp [hear, push, record, Call.turns]
  | watch watch =>
      simp only [hear]
      split
      · exact Nat.le_succ _
      · split
        · exact Nat.le_succ _
        · next entry _ _ audience _ =>
          have pinned : turned (page.push [.pin entry.monitors]).stack = turned page.stack := by
            simp [push, Call.turns]
          exact pinned ▸ told (page.push [.pin entry.monitors]) audience _

/-- A monitor that flipped is told of once. -/
theorem lighter_deliver
    {monitors : List MonitorId}
    (stack : page.stack = .deliver monitors :: outer) :
    page.Lighter page.step := by
  have proceeds : ({ page with stack := outer } : Page).Proceeds page.step := by
    rw [step_of_stack stack]
    exact .deliver _ monitors
  cases monitors with
  | nil => exact lighter_of_popped stack (step_of_stack stack) Nat.one_pos
  | cons monitor rest =>
      refine .whims (Nat.le_of_eq (proceeds.pleas_eq stack)) ?_
      rw [Page.whims, Page.whims, stack, turned_cons, step_of_stack stack, carryOn, deliver]
      dsimp only
      split
      · simp [push, Call.turns]
      · next listener _ =>
          refine Nat.lt_of_le_of_lt (turned_hear _ listener _) ?_
          simp [push, Call.turns]
          omega

/-- A binding that is about to end is wanted no more. -/
theorem lighter_retire (stack : page.stack = .retire key :: outer) : page.Lighter page.step := by
  have proceeds : ({ page with stack := outer } : Page).Proceeds page.step := by
    rw [step_of_stack stack]
    exact .retire _ key
  refine .whims (Nat.le_of_eq (proceeds.pleas_eq stack)) ?_
  rw [Page.whims, Page.whims, stack, turned_cons, step_of_stack stack, carryOn, retire]
  split <;> simp [push, setWanted, changeBinding, Call.turns]

theorem lighter_destroyEach
    {bindings : List BindingId}
    (stack : page.stack = .destroyEach bindings :: outer) :
    page.Lighter page.step := by
  have same : page.step.budget = page.budget := by
    rw [step_of_stack stack]
    cases bindings <;> rfl
  have asks : asked page.step.stack = asked outer := by
    rw [step_of_stack stack]
    cases bindings <;> simp [carryOn, destroyNext, push, Call.asks]
  refine .whims ?_ ?_
  · rw [Page.pleas, Page.pleas, same, asks, stack, asked_cons]
    omega
  · rw [Page.whims, Page.whims, stack, turned_cons, step_of_stack stack]
    cases bindings with
    | nil => simp [carryOn, destroyNext, Call.turns]
    | cons => simp [carryOn, destroyNext, push, Call.turns]; omega

theorem lighter_hydrate
    {hooks : Hooks}
    {elements : List ElementId}
    (stack : page.stack = .hydrate hooks elements :: outer) :
    page.Lighter page.step := by
  have hydrated :
      page.step.budget = page.budget ∧ asked page.step.stack = asked outer ∧
        turned page.step.stack < (Call.hydrate hooks elements).turns + turned outer := by
    rw [step_of_stack stack]
    cases elements with
    | nil => exact ⟨rfl, rfl, by simp [carryOn, hydrateNext, Call.turns]⟩
    | cons element rest =>
        simp only [carryOn, hydrateNext]
        split
        · exact ⟨rfl, by simp [push, Call.asks], by simp [push, Call.turns]⟩
        · refine ⟨rfl, by simp [push, addBinding, Call.asks], ?_⟩
          simp [push, addBinding, Call.turns]
          omega
  obtain ⟨budget, asks, turns⟩ := hydrated
  refine .whims ?_ ?_
  · rw [Page.pleas, Page.pleas, budget, asks, stack, asked_cons]
    omega
  · rwa [Page.whims, Page.whims, stack, turned_cons]

/-- What a call leaves to be done is less than the call, and nothing else is asked. -/
theorem lighter_of_added
    (added : List Call)
    (stack : page.stack = call :: outer)
    (scripts : after.scripts = page.scripts)
    (wants : after.wants = page.wants)
    (pushed : after.stack = added ++ outer)
    (asks : asked added = 0)
    (turns : turned added = 0)
    (losses : added.countP page.isLoss ≤ if page.isLoss call then 1 else 0)
    (less :
      (added.map page.cost).sum + after.executor.queued * page.taskCost <
        page.cost call + page.executor.queued * page.taskCost) :
    page.Lighter after := by
  have sameLoss : after.isLoss = page.isLoss := by
    funext other
    simp only [isLoss, wants]
  refine .labour ?_ ?_ ?_ ?_
  · rw [Page.pleas, Page.pleas, budget, scripts, ← budget, pushed, stack, asked_append,
      asked_cons, asks]
    omega
  · rw [Page.whims, Page.whims, pushed, stack, turned_append, turned_cons, turns]
    omega
  · rw [Page.losses, Page.losses, sameLoss, pushed, stack, List.countP_append, List.countP_cons]
    omega
  · rw [Page.labour, Page.labour, cost_of_scripts scripts, taskCost, unit_of_scripts scripts,
      ← taskCost, pushed, stack, List.map_append, List.sum_append, List.map_cons, List.sum_cons]
    omega

/-- A sum in which one term changes. -/
theorem sum_map_modify
    {α : Type}
    (weight : α → Nat)
    (change : α → α)
    {entries : List α}
    {index : Nat}
    {entry : α}
    (found : entries[index]? = some entry) :
    ((entries.modify index change).map weight).sum + weight entry =
      (entries.map weight).sum + weight (change entry) := by
  induction entries generalizing index with
  | nil => cases found
  | cons first rest inductionHypothesis =>
      cases index with
      | zero =>
          cases found
          simp only [List.modify_zero_cons, List.map_cons, List.sum_cons]
          omega
      | succ index =>
          have later := inductionHypothesis found
          simp only [List.modify_succ_cons, List.map_cons, List.sum_cons]
          omega

/-- An action that is done may be done once less. -/
theorem budget_spend
    {script : ScriptId}
    {known : Script}
    {position : Nat}
    {action : Action}
    (stored : page.scripts.get? script = some known)
    (found : known.actions[position]? = some action)
    (left : 0 < action.remaining) :
    ({ page with
        scripts := page.scripts.modify script fun known => Script.spend known position } :
      Page).budget + 1 = page.budget := by
  have once := sum_map_modify Action.remaining
    (fun action => { action with remaining := action.remaining - 1 }) found
  have total := sum_map_modify (fun script : Script => (script.actions.map Action.remaining).sum)
    (fun known => Script.spend known position) stored
  have others : ((Script.spend known position).actions.map Action.remaining).sum + 1 =
      (known.actions.map Action.remaining).sum := by
    simp only [Script.spend]
    dsimp only at once
    omega
  simp only [budget, Table.modify]
  omega

/-- A script is over, or it passes over an action, or it does one. -/
theorem runScript_cases
    (page : Page)
    (script : ScriptId)
    (position : Nat)
    (subject : Option BindingId) :
    page.runScript script position subject = page ∨
      position < page.scriptLength script ∧
        page.runScript script position subject =
          page.push [.script script (position + 1) subject] ∨
      ∃ requests : List Request, requests.length ≤ 1 ∧
        (page.runScript script position subject).stack =
          requests.map .request ++ .script script (position + 1) subject :: page.stack ∧
        (page.runScript script position subject).budget + 1 = page.budget := by
  have plays := page.plays script position subject
  generalize page.runScript script position subject = after at plays ⊢
  cases plays with
  | finished => exact .inl rfl
  | skips stored here =>
      refine .inr (.inl ⟨?_, rfl⟩)
      have bound := (List.getElem?_eq_some_iff.mp here).1
      simpa [scriptLength, stored] using bound
  | @plays _ action stored here _ left =>
      refine .inr (.inr ⟨(Act.request? action.act subject).toList, ?_, ?_, ?_⟩)
      · cases Act.request? action.act subject <;> simp
      · simp [push]
      · exact budget_spend stored here left

theorem lighter_runScript
    {script : ScriptId}
    {position : Nat}
    {subject : Option BindingId}
    (stack : page.stack = .script script position subject :: outer) :
    page.Lighter page.step := by
  have taken := step_of_stack stack
  rcases runScript_cases { page with stack := outer } script position subject with
    ended | ⟨within, passed⟩ | ⟨requests, few, pushed, budget⟩
  · exact lighter_of_popped stack (taken.trans ended) (Nat.succ_pos _)
  · rw [taken, carryOn, passed]
    refine lighter_of_added _ stack rfl rfl rfl rfl rfl ?_ ?_
    · simp [isLoss, Call.vacates]
    · simp only [push, List.map_cons, List.map_nil, List.sum_cons, List.sum_nil, cost]
      replace within : position < page.scriptLength script := within
      omega
  · have once : asked (requests.map .request) ≤ 1 := by
      rcases requests with _ | ⟨request, _ | ⟨other, more⟩⟩
      · exact Nat.zero_le 1
      · cases request <;> simp [Call.asks]
      · simp at few
    refine .pleas ?_
    replace budget : page.step.budget + 1 = page.budget := by
      rw [taken]
      exact budget
    replace pushed : page.step.stack =
        requests.map .request ++ .script script (position + 1) subject :: outer := by
      rw [taken]
      exact pushed
    rw [Page.pleas, Page.pleas, stack, pushed, asked_append, asked_cons, asked_cons]
    simp only [Call.asks]
    omega

/-- An own call changes the wish of no binding, unless its binding is to end. -/
theorem wants_carryOn
    (own : call.isOf key)
    (lasting : call ≠ .retire key) :
    (page.carryOn call).wants = page.wants := by
  funext other
  by_cases same : other = key
  · subst same
    cases found : page.binding? other with
    | none =>
        have absent : (page.carryOn call).binding? other = none := by
          by_cases launches : ∃ attempt, call = .launch other attempt
          · obtain ⟨attempt, rfl⟩ := launches
            simp only [carryOn, launch, found]
          · have proceeds : page.Proceeds (page.carryOn call) :=
              .carryOn own fun attempt starts => launches ⟨attempt, starts⟩
            have same := proceeds.bond other
            simpa [bond?, found] using same
        simp only [wants, found, absent]
    | some binding =>
        rcases (carryOn_carried found own).wanted with kept | ⟨retires, _⟩
        · exact kept
        · exact (lasting retires).elim
  · obtain ⟨instances, _, left⟩ := life_carryOn_other page own (Ne.symm same)
    exact congrArg Life.wanted left

theorem isLoss_of_subject? (own : call.subject? = some key) :
    page.isLoss call = (call.vacates && page.wants key) := by
  rw [isLoss, own, Option.any_some]

/-- Instances of a wanted binding leave by the calls that are on the way already. -/
theorem countP_isLoss_added
    {added : List Call}
    (stack : page.stack = call :: outer)
    (own : call.isOf key)
    (gentle : call.ends = false)
    (pushed : page.step.stack = added ++ outer)
    (owned : ∀ call ∈ added, call.subject? = some key) :
    added.countP page.isLoss ≤ if page.isLoss call then 1 else 0 := by
  cases wanted : page.wants key with
  | false =>
      have none : added.countP page.isLoss = 0 := by
        refine List.countP_eq_zero.mpr fun other member => ?_
        rw [isLoss_of_subject? (owned other member), wanted, Bool.and_false]
        exact Bool.false_ne_true
      rw [none]
      exact Nat.zero_le _
  | true =>
      have present : (page.life key).present := by
        cases found : page.binding? key with
        | none => simp [wants, found] at wanted
        | some binding => exact (life_of_found found).1
      obtain ⟨_, carried⟩ := step_carried stack own present
      have few := carried.countP_vacates gentle wanted
      have mine :
          added.countP page.isLoss ≤ (added.filter (Call.isOf key)).countP Call.vacates := by
        rw [List.countP_filter]
        refine List.countP_mono_left fun other member loses => ?_
        obtain ⟨leaves, _⟩ := Bool.and_eq_true_iff.mp loses
        rcases Call.isOf_or_script (owned other member) with isOf | ⟨script, position, rfl⟩
        · rw [leaves, isOf]
          rfl
        · cases leaves
      have after : (page.step.life key).calls =
          added.filter (Call.isOf key) ++ outer.filter (Call.isOf key) := by
        rw [life, pushed, List.filter_append]
      rw [after, List.countP_append] at few
      rw [isLoss_of_subject? (Call.subject?_of_isOf own), wanted, Bool.and_true]
      dsimp only at few
      omega

/-- A gentle call that is a binding's own costs its heft. -/
theorem cost_of_isOf
    (own : call.isOf key)
    (gentle : call.ends = false) :
    page.cost call = call.heft * page.unit := by
  cases call with
  | request | script | deliver | pin | hydrate | destroyEach | drive => cases own
  | retire | bury => cases gentle
  | _ => rfl

theorem stack_mount
    {binding : Binding}
    (found : page.binding? key = some binding)
    (unmounted : binding.phase = .unmounted) :
    (page.mount key).stack =
      [.notice key .willMount none, .launch key (binding.attempt + 1)] ++ page.stack := by
  simp only [mount, found, unmounted]
  rfl

/-- A binding that is wanted again begins another attempt, and has lost its instance. -/
theorem lighter_remount (stack : page.stack = .remount key :: outer) : page.Lighter page.step := by
  have taken := step_of_stack stack
  have proceeds : ({ page with stack := outer } : Page).Proceeds page.step := by
    rw [taken]
    exact .remount _ key
  by_cases again : page.wants key ∧ page.phase key = .unmounted
  · obtain ⟨wanted, unmounted⟩ := again
    cases found : page.binding? key with
    | none => simp [wants, found] at wanted
    | some binding =>
        have mounts : page.step.stack =
            [.notice key .willMount none, .launch key (binding.attempt + 1)] ++ outer := by
          rw [taken, carryOn, remount, if_pos ⟨wanted, unmounted⟩]
          exact stack_mount found ((phase_of_found found).symm.trans unmounted)
        have wants : page.step.isLoss = page.isLoss := by
          have own : (Call.remount key).isOf key := decide_eq_true rfl
          funext other
          rw [isLoss, isLoss, taken, wants_carryOn own (by simp)]
          rfl
        refine .losses (Nat.le_of_eq (proceeds.pleas_eq stack)) ?_ ?_
        · rw [Page.whims, Page.whims, mounts, stack]
          simp [Call.turns]
        · rw [Page.losses, Page.losses, wants, mounts, stack]
          simp [isLoss, Call.vacates, wanted]
  · refine lighter_of_popped stack (taken.trans ?_) (by simp [cost, unit_pos])
    exact if_neg again

/-- An own call of a binding that does not lead to its end. -/
theorem lighter_own
    (stack : page.stack = call :: outer)
    (own : call.isOf key)
    (gentle : call.ends = false)
    (unlaunched : ∀ attempt, call ≠ .launch key attempt) :
    page.Lighter page.step := by
  by_cases again : call = .remount key
  · exact lighter_remount (again ▸ stack)
  · have taken := step_of_stack stack
    have proceeds : ({ page with stack := outer } : Page).Proceeds page.step := by
      rw [taken]
      exact .carryOn own unlaunched
    have exists_confined : ∃ heft,
        ({ page with stack := outer } : Page).Confined key heft page.step ∧
          (call ≠ .remount key → heft < call.heft) := by
      rw [taken]
      exact Confined.carryOn own gentle
    obtain ⟨heft, confined, light⟩ := exists_confined
    obtain ⟨added, pushed, owned, total⟩ := confined.stack
    have mine (other : Call) (member : other ∈ added) : other.subject? = some key :=
      (owned other member).1
    refine lighter_of_added _ stack proceeds.scripts ?_ pushed ?_ ?_ ?_ ?_
    · rw [taken]
      exact wants_carryOn own (by rintro rfl; cases gentle)
    · exact asked_eq_zero fun other member => Call.asks_of_subject? (mine other member)
    · exact turned_eq_zero fun other member =>
        Call.turns_of_subject? (mine other member) (owned other member).2
    · exact countP_isLoss_added stack own gentle pushed mine
    · have cheap : (added.map page.cost).sum ≤ heft * page.unit :=
        (sum_cost_le_heftOf owned).trans (Nat.mul_le_mul_right _ total)
      have less : heft * page.unit < page.cost call := by
        rw [cost_of_isOf own gentle]
        exact Nat.mul_lt_mul_of_pos_right (light again) page.unit_pos
      rw [proceeds.executor]
      dsimp only
      omega

/-- An import that is started lands at once, or it is queued. -/
theorem launch_cases (page : Page) (key : BindingId) (attempt : Nat) :
    ∃ added, (page.launch key attempt).stack = added ++ page.stack ∧
      (added = [] ∧ (page.launch key attempt).executor.queued ≤ page.executor.queued + 1 ∨
        (∃ outcome, added = [.arrive key attempt outcome]) ∧
          (page.launch key attempt).executor.queued = page.executor.queued) := by
  have launches := page.launches key attempt
  generalize page.launch key attempt = after at launches ⊢
  cases launches with
  | late => exact ⟨[], rfl, .inl ⟨rfl, Nat.le_succ _⟩⟩
  | starts _ _ _ spawned =>
      cases spawned with
      | waits => exact ⟨[], rfl, .inl ⟨rfl, (Executor.queued_spawn _ _ _).le⟩⟩
      | @lands outcome => exact ⟨_, rfl, .inr ⟨⟨outcome, rfl⟩, rfl⟩⟩

theorem lighter_launch
    {attempt : Nat}
    (stack : page.stack = .launch key attempt :: outer) :
    page.Lighter page.step := by
  have taken := step_of_stack stack
  have own : (Call.launch key attempt).isOf key := decide_eq_true rfl
  have scripts : page.step.scripts = page.scripts := by
    rw [taken]
    exact (Confined.launch _ key attempt).scripts
  have wants : page.step.wants = page.wants := by
    rw [taken]
    exact wants_carryOn own (by simp)
  obtain ⟨added, pushed, cases⟩ := launch_cases { page with stack := outer } key attempt
  have unit := page.scriptLength_lt_unit 0
  replace taken : page.step = ({ page with stack := outer } : Page).launch key attempt := taken
  rw [← taken] at pushed cases
  dsimp only at cases
  have whole : page.taskCost = 25 * page.unit + 1 := rfl
  have price : page.cost (.launch key attempt) = 26 * page.unit := rfl
  rcases cases with ⟨rfl, queued⟩ | ⟨⟨outcome, rfl⟩, queued⟩
  · refine lighter_of_added _ stack scripts wants pushed rfl rfl (Nat.zero_le _) ?_
    have more := Nat.mul_le_mul_right page.taskCost queued
    rw [Nat.add_mul] at more
    simp only [List.map_nil, List.sum_nil]
    omega
  · refine lighter_of_added _ stack scripts wants pushed rfl rfl ?_ ?_
    · simp [isLoss, Call.vacates]
    · have landing : page.cost (.arrive key attempt outcome) = 25 * page.unit := rfl
      simp only [List.map_cons, List.sum_cons, List.map_nil, List.sum_nil, queued]
      omega

theorem lighter_bury (stack : page.stack = .bury key :: outer) : page.Lighter page.step := by
  have taken := step_of_stack stack
  have own : (Call.bury key).isOf key := decide_eq_true rfl
  have proceeds : ({ page with stack := outer } : Page).Proceeds page.step := by
    rw [taken]
    exact .bury _ key
  have wants : page.step.wants = page.wants := by
    rw [taken]
    exact wants_carryOn own (by simp)
  have pushed :
      page.step.stack = [.notice key .didDestroy none, .notice key .onDestroy none] ++ outer := by
    rw [taken]
    simp only [carryOn, bury]
    split <;> rfl
  refine lighter_of_added _ stack proceeds.scripts wants pushed rfl rfl ?_ ?_
  · simp [isLoss, Call.vacates]
  · have unit := page.unit_pos
    rw [proceeds.executor]
    simp only [List.map_cons, List.sum_cons, List.map_nil, List.sum_nil, cost, Call.heft]
    omega

/-- A task that is looked at is queued no more. -/
theorem lighter_drive
    {queue : QueueName}
    (stack : page.stack = .drive queue :: outer) :
    page.Lighter page.step := by
  have taken := step_of_stack stack
  have drained := Executor.queued_drain page.executor queue
  rw [taken, carryOn]
  have drives := Page.drives { page with stack := outer } queue
  generalize Page.driveNext { page with stack := outer } queue = after at drives ⊢
  have total {executor : Executor Task} {task : Task}
      (next : (page.executor.drain queue).next? queue = some (task, executor)) :
      page.executor.queued * page.taskCost =
        executor.queued * page.taskCost + page.taskCost := by
    rw [← drained, ← Executor.queued_of_next? next, Nat.add_mul, Nat.one_mul]
  have whole : page.taskCost = 25 * page.unit + 1 := rfl
  have goesOn : page.cost (.drive queue) = 1 := rfl
  have unit := page.unit_pos
  cases drives with
  | drained =>
      refine lighter_of_added [] stack rfl rfl rfl rfl rfl (Nat.zero_le _) ?_
      simp only [drained, cost, List.map_nil, List.sum_nil]
      omega
  | @lands task executor outcome catalog next =>
      have landing : page.cost (.arrive task.binding task.attempt outcome) = 25 * page.unit := rfl
      refine lighter_of_added [.arrive task.binding task.attempt outcome, .drive queue]
        stack rfl rfl rfl rfl rfl ?_ ?_
      · simp [isLoss, Call.vacates]
      · have less := total next
        simp only [push, List.map_cons, List.sum_cons, List.map_nil, List.sum_nil]
        omega
  | @waits task executor gate next =>
      refine lighter_of_added [.drive queue] stack rfl rfl rfl rfl rfl ?_ ?_
      · simp [isLoss, Call.vacates]
      · have less := total next
        have same : (executor.wait gate queue task).queued = executor.queued := rfl
        simp only [push, same, List.map_cons, List.sum_cons, List.map_nil, List.sum_nil]
        omega

/-- Each step leaves less to be done. -/
theorem lighter_step (busy : ¬ page.isAtRest) : page.Lighter page.step := by
  cases stack : page.stack with
  | nil => exact (busy (by simp [isAtRest, stack])).elim
  | cons call outer =>
      have owned {key : BindingId} (own : call.isOf key) (gentle : call.ends = false)
          (unlaunched : ∀ attempt, call ≠ .launch key attempt) : page.Lighter page.step :=
        lighter_own stack own gentle unlaunched
      cases call with
      | request request =>
          by_cases bound : ∃ verb key, request = .bind verb key
          · obtain ⟨verb, key, rfl⟩ := bound
            exact lighter_obey stack
          · exact lighter_answer stack fun verb key same => bound ⟨verb, key, same⟩
      | script => exact lighter_runScript stack
      | deliver => exact lighter_deliver stack
      | pin => exact lighter_of_popped stack (step_of_stack stack) (by simp [cost, unit_pos])
      | launch => exact lighter_launch stack
      | retire => exact lighter_retire stack
      | bury => exact lighter_bury stack
      | hydrate => exact lighter_hydrate stack
      | destroyEach => exact lighter_destroyEach stack
      | drive => exact lighter_drive stack
      | notice key | arrive key | construct key | settle key | teardown key | dismantle key
      | vacated key | remount key =>
          exact owned (decide_eq_true (Eq.refl key)) rfl (by simp)

/-- Steps leave less and less to be done. -/
theorem lighter_wellFounded : WellFounded fun after before : Page => before.Lighter after := by
  let numbers (page : Page) := (page.pleas, page.whims, page.losses, page.labour)
  have falling := (Prod.lex Nat.lt_wfRel (Prod.lex Nat.lt_wfRel
    (Prod.lex Nat.lt_wfRel Nat.lt_wfRel))).wf
  refine Subrelation.wf ?_ (InvImage.wf numbers falling)
  intro after before lighter
  have ordered :
      Prod.Lex (· < ·) (Prod.Lex (· < ·) (Prod.Lex (· < ·) (· < ·))) (numbers after)
        (numbers before) := by
    simp only [Prod.lex_def, numbers]
    cases lighter <;> omega
  exact ordered

/-- What a call brings under way comes before all that was there. -/
theorem exists_pushed (stack : page.stack = call :: outer) :
    ∃ added, page.step.stack = added ++ outer := by
  rw [step_of_stack stack]
  have looked {before after : Page} {task : Task} {seen : Prop}
      (looked : before.Looked task seen after) :
      ∃ added, after.stack = added ++ before.stack := by
    cases looked with
    | lands _ _ _ _ stack => exact ⟨[_], stack⟩
    | waits _ _ _ _ stack => exact ⟨[], stack⟩
  cases fetched_carryOn { page with stack := outer } call with
  | aside abides =>
      obtain ⟨added, pushed, _⟩ := abides.stack
      exact ⟨added, pushed⟩
  | starts _ _ launched => exact looked launched
  | resumes _ resumed =>
      obtain ⟨added, pushed⟩ := looked resumed
      exact ⟨added ++ [.drive _], by simpa [push] using pushed⟩

/--
Whatever is under way, the calls that come before others end, and then the others
go on where they were.  What holds until then and is kept by each step holds then.
-/
theorem unwinds
    {motive : Page → Prop}
    (keeps :
      ∀ page call inner, page.stack = call :: inner ++ outer → motive page → motive page.step)
    (page : Page)
    (inner : List Call)
    (stack : page.stack = inner ++ outer)
    (holds : motive page) :
    ∃ after, page.Leads after ∧ after.stack = outer ∧ motive after := by
  induction page using lighter_wellFounded.induction generalizing inner with
  | _ page inductionHypothesis =>
      cases inner with
      | nil => exact ⟨page, .here page, stack, holds⟩
      | cons call rest =>
          have busy : ¬ page.isAtRest := by simp [isAtRest, stack]
          obtain ⟨added, pushed⟩ := exists_pushed stack
          obtain ⟨after, leads, reached⟩ := inductionHypothesis page.step (lighter_step busy)
            (added ++ rest) (pushed.trans (List.append_assoc ..).symm)
            (keeps page call rest stack holds)
          exact ⟨after, .step leads, reached⟩

theorem exists_rest (page : Page) : ∃ after, page.Leads after ∧ after.isAtRest := by
  have unwound : ∃ after, page.Leads after ∧ after.stack = [] ∧ True :=
    unwinds (fun _ _ _ _ _ => trivial) page page.stack (List.append_nil _).symm trivial
  obtain ⟨after, leads, stack, _⟩ := unwound
  exact ⟨after, leads, by simp [isAtRest, stack]⟩

/-- Every page comes to rest. -/
theorem comes_to_rest (page : Page) : ∃ limit, (page.run limit).isAtRest := by
  obtain ⟨after, leads, rest⟩ := page.exists_rest
  obtain ⟨limit, rfl⟩ := leads.exists_run
  exact ⟨limit, rest⟩

end Page

end Hydration
