import Hydration.Page.Basic

/-!
# Driving queues

A queue that is driven takes in what was spawned on it, looks at its first task,
and goes on until no task is ready.  Driving a queue that is being driven does
nothing.
-/

namespace Hydration

namespace Page

/-- Whether a call under way drives a queue. -/
def isDriven (page : Page) (queue : QueueName) : Bool :=
  page.stack.any (Call.drives queue)

/-- Begins to drive a queue, unless it is being driven. -/
def drive (page : Page) (queue : QueueName) : Page :=
  if page.isDriven queue then page else page.push [.drive queue]

/-- Looks at the first task of a queue. -/
def driveNext (page : Page) (queue : QueueName) : Page :=
  let drained := page.executor.drain queue
  match drained.next? queue with
  | none => { page with executor := drained }
  | some (task, executor) =>
      let going := { page with executor }.push [.drive queue]
      match page.catalog.poll executor.opened task.pending with
      | some (outcome, catalog) =>
          { going with catalog }.push [.arrive task.binding task.attempt outcome]
      | none =>
          match task.pending.awaited? executor.opened with
          | none => going
          | some gate => { going with executor := executor.wait gate queue task }

end Page

end Hydration
