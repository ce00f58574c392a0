import Hydration.Request

/-!
# Queues and gates

Imports that wait are queued.  A queue takes in what was spawned on it when it is
driven, and carries its tasks on first come, first served.  A task that waits for
a closed gate leaves the queue; when the gate opens, those who wait for it go to
the back of their queues in the order they began to wait.
-/

namespace Hydration

/-- The tasks of one queue. -/
structure Queue (τ : Type) where
  /-- Spawned and not yet taken in. -/
  incoming : List τ
  /-- To be carried on, in this order. -/
  ready : List τ
  deriving Repr

/-- A task that waits for a gate. -/
structure Waiter (τ : Type) where
  gate : String
  queue : QueueName
  task : τ
  deriving Repr

/-- Two queues of tasks and the gates they wait for. -/
structure Executor (τ : Type) where
  page : Queue τ
  host : Queue τ
  /-- The gates that are open. -/
  opened : List String
  /-- Those who wait, in the order they began to. -/
  waiters : List (Waiter τ)

namespace Executor

variable {τ : Type}

/-- No tasks; all gates are closed. -/
def empty : Executor τ := ⟨⟨[], []⟩, ⟨[], []⟩, [], []⟩

def queue (executor : Executor τ) : QueueName → Queue τ
  | .page => executor.page
  | .host => executor.host

def change (executor : Executor τ) (name : QueueName) (change : Queue τ → Queue τ) :
    Executor τ :=
  match name with
  | .page => { executor with page := change executor.page }
  | .host => { executor with host := change executor.host }

/-- What a queue is after one of them has changed. -/
theorem queue_change
    (executor : Executor τ)
    (name other : QueueName)
    (change : Queue τ → Queue τ) :
    (executor.change name change).queue other =
      if other = name then change (executor.queue name) else executor.queue other := by
  cases name <;> cases other <;> rfl

@[simp] theorem opened_change
    (executor : Executor τ)
    (name : QueueName)
    (change : Queue τ → Queue τ) :
    (executor.change name change).opened = executor.opened := by
  cases name <;> rfl

@[simp] theorem waiters_change
    (executor : Executor τ)
    (name : QueueName)
    (change : Queue τ → Queue τ) :
    (executor.change name change).waiters = executor.waiters := by
  cases name <;> rfl

/-- Adds a task to what a queue will take in. -/
def spawn (executor : Executor τ) (name : QueueName) (task : τ) : Executor τ :=
  executor.change name fun queue => { queue with incoming := queue.incoming ++ [task] }

/-- A queue takes in what was spawned on it. -/
def drain (executor : Executor τ) (name : QueueName) : Executor τ :=
  executor.change name fun queue => ⟨[], queue.ready ++ queue.incoming⟩

/-- The first task of a queue, and the queues without it. -/
def next? (executor : Executor τ) (name : QueueName) : Option (τ × Executor τ) :=
  match (executor.queue name).ready with
  | [] => none
  | task :: rest =>
      some (task, executor.change name fun queue => { queue with ready := rest })

/-- A task of a queue begins to wait for a gate. -/
def wait (executor : Executor τ) (gate : String) (name : QueueName) (task : τ) :
    Executor τ :=
  { executor with waiters := executor.waiters ++ [⟨gate, name, task⟩] }

/-- Adds a task to the back of a queue. -/
def enqueue (executor : Executor τ) (name : QueueName) (task : τ) : Executor τ :=
  executor.change name fun queue => { queue with ready := queue.ready ++ [task] }

/-- Opens a gate: those who wait for it go to the back of their queues. -/
def release (executor : Executor τ) (gate : String) : Executor τ :=
  let called := executor.waiters.filter fun waiter => waiter.gate = gate
  let opened :=
    { executor with
      opened := gate :: executor.opened
      waiters := executor.waiters.filter fun waiter => waiter.gate ≠ gate }
  called.foldl (fun executor waiter => executor.enqueue waiter.queue waiter.task) opened

/-- The tasks that were spawned and have not been carried to their end. -/
def unfinished (executor : Executor τ) : List τ :=
  executor.page.incoming ++ executor.page.ready ++
    (executor.host.incoming ++ executor.host.ready) ++
    executor.waiters.map Waiter.task

/-- Where no task is unfinished all queues are empty, and nobody waits. -/
theorem empty_of_unfinished
    {executor : Executor τ}
    (none : executor.unfinished = []) :
    (∀ name, executor.queue name = ⟨[], []⟩) ∧ executor.waiters = [] := by
  simp only [unfinished, List.append_eq_nil_iff, List.map_eq_nil_iff] at none
  obtain ⟨⟨⟨incoming, ready⟩, hostIncoming, hostReady⟩, waiters⟩ := none
  refine ⟨?_, waiters⟩
  rintro (_ | _)
  · exact congr (congrArg Queue.mk incoming) ready
  · exact congr (congrArg Queue.mk hostIncoming) hostReady

end Executor

end Hydration
