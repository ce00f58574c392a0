import Hydration.Proofs.Imports.Pledging

/-!
# Where imports wait

An import that is looked at as soon as it starts waits in the queue of the page,
and the others in that of the host.  A task that waits for a gate is not in a
queue, and its gate is closed; when the gate opens the task goes back to the
queue it came from.  So once a queue is empty, all imports that belong to it wait
for gates that are closed.
-/

namespace Hydration

/-- A gate that is still closed when another one opens is still waited for. -/
theorem Import.awaited?_cons
    {μ : Type}
    {opened : List String}
    {pending : Import μ}
    {gate other : String}
    (awaited : pending.awaited? opened = some gate)
    (different : gate ≠ other) :
    pending.awaited? (other :: opened) = some gate := by
  cases pending with
  | settled => cases awaited
  | loading load cache =>
      obtain ⟨waits, closed⟩ := Option.filter_eq_some_iff.mp awaited
      exact Option.filter_eq_some_iff.mpr ⟨waits, by simpa [different] using closed⟩

namespace Executor

variable {belongs : QueueName → Task → Prop} {executor : Executor Task}

/-- Tasks are in queues they belong to, or they wait for a gate that is closed to go there. -/
structure Houses (belongs : QueueName → Task → Prop) (executor : Executor Task) : Prop where
  incoming : ∀ name, ∀ task ∈ (executor.queue name).incoming, belongs name task
  ready : ∀ name, ∀ task ∈ (executor.queue name).ready, belongs name task
  waiting : ∀ waiter ∈ executor.waiters, belongs waiter.queue waiter.task
  closed :
    ∀ waiter ∈ executor.waiters,
      waiter.task.pending.awaited? executor.opened = some waiter.gate

namespace Houses

theorem of_unfinished (none : executor.unfinished = []) : executor.Houses belongs := by
  obtain ⟨queues, waiters⟩ := empty_of_unfinished none
  exact ⟨fun name => by simp [queues name], fun name => by simp [queues name],
    by simp [waiters], by simp [waiters]⟩

theorem mono
    {more : QueueName → Task → Prop}
    (houses : executor.Houses belongs)
    (among : ∀ name task, belongs name task → more name task) :
    executor.Houses more :=
  ⟨fun name task member => among _ _ (houses.incoming name task member),
    fun name task member => among _ _ (houses.ready name task member),
    fun waiter member => among _ _ (houses.waiting waiter member), houses.closed⟩

/-- A queue may change as long as its tasks belong to it. -/
theorem change
    {name : QueueName}
    {change : Queue Task → Queue Task}
    (houses : executor.Houses belongs)
    (incoming : ∀ task ∈ (change (executor.queue name)).incoming, belongs name task)
    (ready : ∀ task ∈ (change (executor.queue name)).ready, belongs name task) :
    (executor.change name change).Houses belongs := by
  refine ⟨fun other => ?_, fun other => ?_, ?_, ?_⟩
  · rw [queue_change]
    split
    · next same => rwa [same]
    · exact houses.incoming other
  · rw [queue_change]
    split
    · next same => rwa [same]
    · exact houses.ready other
  · rw [waiters_change]
    exact houses.waiting
  · rw [waiters_change, opened_change]
    exact houses.closed

theorem spawn
    {name : QueueName}
    {task : Task}
    (houses : executor.Houses belongs)
    (home : belongs name task) :
    (executor.spawn name task).Houses belongs :=
  houses.change
    (List.forall_mem_append.mpr ⟨houses.incoming name, List.forall_mem_singleton.mpr home⟩)
    (houses.ready name)

theorem enqueue
    {name : QueueName}
    {task : Task}
    (houses : executor.Houses belongs)
    (home : belongs name task) :
    (executor.enqueue name task).Houses belongs :=
  houses.change (houses.incoming name)
    (List.forall_mem_append.mpr ⟨houses.ready name, List.forall_mem_singleton.mpr home⟩)

theorem drain (houses : executor.Houses belongs) (name : QueueName) :
    (executor.drain name).Houses belongs :=
  houses.change (fun _ => List.not_mem_nil.elim)
    (List.forall_mem_append.mpr ⟨houses.ready name, houses.incoming name⟩)

/-- The task that a queue hands out belongs to it. -/
theorem of_next?
    {name : QueueName}
    {task : Task}
    {others : Executor Task}
    (houses : executor.Houses belongs)
    (taken : executor.next? name = some (task, others)) :
    belongs name task ∧ others.Houses belongs := by
  have ready := houses.ready name
  unfold next? at taken
  split at taken
  · cases taken
  · next first rest shape =>
    rw [shape] at ready
    cases taken
    obtain ⟨home, more⟩ := List.forall_mem_cons.mp ready
    exact ⟨home, houses.change (houses.incoming name) more⟩

theorem wait
    {name : QueueName}
    {task : Task}
    {gate : String}
    (houses : executor.Houses belongs)
    (home : belongs name task)
    (awaited : task.pending.awaited? executor.opened = some gate) :
    (executor.wait gate name task).Houses belongs :=
  ⟨houses.incoming, houses.ready,
    List.forall_mem_append.mpr ⟨houses.waiting, List.forall_mem_singleton.mpr home⟩,
    List.forall_mem_append.mpr ⟨houses.closed, List.forall_mem_singleton.mpr awaited⟩⟩

/-- Those who wait for the gate that opens go back to where they came from. -/
theorem release (houses : executor.Houses belongs) (gate : String) :
    (executor.release gate).Houses belongs := by
  have recalled (called : List (Waiter Task)) (homes : ∀ waiter ∈ called,
      belongs waiter.queue waiter.task) (executor : Executor Task)
      (houses : executor.Houses belongs) :
      (called.foldl (fun executor waiter => executor.enqueue waiter.queue waiter.task)
        executor).Houses belongs := by
    induction called generalizing executor with
    | nil => exact houses
    | cons waiter rest inductionHypothesis =>
        obtain ⟨home, homes⟩ := List.forall_mem_cons.mp homes
        exact inductionHypothesis homes _ (houses.enqueue home)
  refine recalled _ (fun waiter member => houses.waiting waiter (List.mem_of_mem_filter member)) _
    ⟨houses.incoming, houses.ready,
      fun waiter member => houses.waiting waiter (List.mem_of_mem_filter member), ?_⟩
  intro waiter member
  obtain ⟨old, different⟩ := List.mem_filter.mp member
  exact Import.awaited?_cons (houses.closed waiter old) (of_decide_eq_true different)

/-- Once a queue is empty the unfinished tasks that belong to it wait for closed gates. -/
theorem waits_of_empty
    {name : QueueName}
    {task : Task}
    (houses : executor.Houses belongs)
    (empty : executor.queue name = ⟨[], []⟩)
    (home : ∀ other, belongs other task → other = name)
    (unfinished : task ∈ executor.unfinished) :
    ∃ gate, ⟨gate, name, task⟩ ∈ executor.waiters ∧
      task.pending.awaited? executor.opened = some gate := by
  have absent (other : QueueName)
      (member : task ∈ (executor.queue other).incoming ∨ task ∈ (executor.queue other).ready) :
      False := by
    obtain rfl := home other (member.elim (houses.incoming other task) (houses.ready other task))
    simp [empty] at member
  simp only [Executor.unfinished, List.mem_append] at unfinished
  rcases unfinished with ((incoming | ready) | incoming | ready) | waits
  · exact (absent .page (.inl incoming)).elim
  · exact (absent .page (.inr ready)).elim
  · exact (absent .host (.inl incoming)).elim
  · exact (absent .host (.inr ready)).elim
  · obtain ⟨⟨gate, other, _⟩, member, rfl⟩ := List.mem_map.mp waits
    obtain rfl := home other (houses.waiting _ member)
    exact ⟨gate, member, houses.closed _ member⟩

end Houses

end Executor

namespace Page

variable {page after : Page} {call : Call}

/-- Whether a task is one of a binding whose imports wait in a queue. -/
def Sends (page : Page) (name : QueueName) (task : Task) : Prop :=
  ∃ bond, page.bond? task.binding = some bond ∧ bond.hooks.spawning.queue = name

/-- Imports are in the queues of their bindings, or they wait for gates that are closed. -/
def Houses (page : Page) : Prop :=
  page.executor.Houses page.Sends

/-- Queues change only when an import starts, when one is looked at, or when a gate opens. -/
theorem executor_carryOn
    (page : Page)
    (unlaunched : ∀ key attempt, call ≠ .launch key attempt)
    (undriven : ∀ queue, call ≠ .drive queue)
    (unreleased : ∀ gate, call ≠ .request (.release gate)) :
    (page.carryOn call).executor = page.executor := by
  have owned {key : BindingId} (own : call.isOf key) :
      (page.carryOn call).executor = page.executor :=
    (Proceeds.carryOn own fun attempt => unlaunched key attempt).executor
  cases call with
  | request request =>
      cases request with
      | bind verb key => exact (Proceeds.obey page verb key).executor
      | release gate => exact (unreleased gate rfl).elim
      | drive queue =>
          simp only [carryOn, answer, drive]
          split <;> rfl
      | toggle | resize | reveal | mark | append | cancel | dropSubscription | dropMonitor
      | hydrate | destroyAll => rfl
  | script script position subject =>
      have plays := page.plays script position subject
      rw [carryOn]
      generalize page.runScript script position subject = after at plays ⊢
      cases plays <;> rfl
  | deliver monitors => exact (Proceeds.deliver page monitors).executor
  | pin => rfl
  | hydrate hooks elements =>
      cases elements with
      | nil => rfl
      | cons element rest =>
          simp only [carryOn, hydrateNext]
          split <;> rfl
  | destroyEach bindings => cases bindings <;> rfl
  | launch key attempt => exact (unlaunched key attempt rfl).elim
  | drive queue => exact (undriven queue rfl).elim
  | notice other | arrive other | construct other | settle other | teardown other
  | dismantle other | vacated other | remount other | retire other | bury other =>
      exact owned (decide_eq_true (Eq.refl other))

theorem houses_launch
    (houses : page.Houses)
    (key : BindingId)
    (attempt : Nat) :
    (page.launch key attempt).executor.Houses page.Sends := by
  have launches := page.launches key attempt
  generalize page.launch key attempt = after at launches ⊢
  cases launches with
  | late => exact houses
  | @starts binding after reports found current spawned =>
      cases spawned with
      | waits => exact Executor.Houses.spawn houses ⟨binding.bond, bond?_of_found found, rfl⟩
      | lands => exact houses

theorem houses_driveNext (houses : page.Houses) (queue : QueueName) :
    (page.driveNext queue).executor.Houses page.Sends := by
  have drained := houses.drain queue
  have drives := page.drives queue
  generalize page.driveNext queue = after at drives ⊢
  cases drives with
  | drained => exact drained
  | lands taken => exact (drained.of_next? taken).2
  | waits taken closed =>
      obtain ⟨home, rest⟩ := drained.of_next? taken
      exact rest.wait home closed

/-- As long as bonds stay, imports belong where they did. -/
theorem Sends.mono
    (bond : ∀ key bond, page.bond? key = some bond → after.bond? key = some bond)
    (name : QueueName)
    (task : Task)
    (sends : page.Sends name task) :
    after.Sends name task := by
  obtain ⟨tied, found, home⟩ := sends
  exact ⟨tied, bond _ _ found, home⟩

theorem Houses.step (houses : page.Houses) : page.step.Houses := by
  have moved : page.step.executor.Houses page.Sends := by
    cases stack : page.stack with
    | nil => rwa [step_of_nil stack]
    | cons call outer =>
        have popped : ({ page with stack := outer } : Page).Houses := houses
        rw [step_of_stack stack]
        by_cases launches : ∃ key attempt, call = .launch key attempt
        · obtain ⟨key, attempt, rfl⟩ := launches
          exact houses_launch popped key attempt
        · by_cases drives : ∃ queue, call = .drive queue
          · obtain ⟨queue, rfl⟩ := drives
            exact houses_driveNext popped queue
          · by_cases releases : ∃ gate, call = .request (.release gate)
            · obtain ⟨gate, rfl⟩ := releases
              exact Executor.Houses.release popped gate
            · push Not at launches drives releases
              rw [executor_carryOn _ launches drives releases]
              exact popped
  exact moved.mono (Sends.mono fun _ _ => bond?_step)

theorem Houses.move (houses : page.Houses) (move : Move) : (page.move move).Houses := by
  have same : (page.move move).executor = page.executor := by
    cases move <;> rfl
  have kept : (page.move move).executor.Houses page.Sends := by
    rw [same]
    exact houses
  exact kept.mono (Sends.mono fun _ _ found => bond?_move found move)

end Page

/-- Along a run imports are in the queues of their bindings, or they wait for closed gates. -/
theorem Run.houses
    {free : Move → Prop}
    {start page : Page}
    {passed : List Page}
    (begins : start.Begins)
    (run : Run free start passed page) :
    page.Houses := by
  induction run with
  | begin => exact .of_unfinished begins.unfinished
  | move move _ _ _ inductionHypothesis => exact inductionHypothesis.move move
  | step _ inductionHypothesis => exact inductionHypothesis.step

end Hydration
