import Hydration.Executor
import Mathlib.Data.List.Forall2

/-!
# Queues that are worked through together

Two executors have the same gates open, and in each place as many tasks, which
stand for each other in order.  Whatever is done to both leaves them so.
-/

namespace Hydration

/-- Tasks that stand for each other wait for the same gate, to be queued in the same queue. -/
structure Waiter.Twins {τ : Type} (twins : τ → τ → Prop) (plain mixed : Waiter τ) : Prop where
  gate : mixed.gate = plain.gate
  queue : mixed.queue = plain.queue
  task : twins plain.task mixed.task

namespace Executor

variable {τ : Type} {twins : τ → τ → Prop} {plain mixed : Executor τ}

/-- Tasks that stand for each other are in the same places. -/
structure Related (twins : τ → τ → Prop) (plain mixed : Executor τ) : Prop where
  incoming : ∀ name, List.Forall₂ twins (plain.queue name).incoming (mixed.queue name).incoming
  ready : ∀ name, List.Forall₂ twins (plain.queue name).ready (mixed.queue name).ready
  opened : mixed.opened = plain.opened
  waiters : List.Forall₂ (Waiter.Twins twins) plain.waiters mixed.waiters

namespace Related

theorem mono
    {more : τ → τ → Prop}
    (related : plain.Related twins mixed)
    (among : ∀ task twin, twins task twin → more task twin) :
    plain.Related more mixed :=
  ⟨fun name => (related.incoming name).imp among, fun name => (related.ready name).imp among,
    related.opened,
    related.waiters.imp fun _ _ waiters => ⟨waiters.gate, waiters.queue, among _ _ waiters.task⟩⟩

/-- An executor without tasks is related to itself. -/
theorem of_unfinished {executor : Executor τ} (none : executor.unfinished = []) :
    executor.Related twins executor := by
  obtain ⟨queues, waiters⟩ := empty_of_unfinished none
  exact ⟨fun name => by simp [queues name], fun name => by simp [queues name], rfl,
    by simp [waiters]⟩

/-- A queue may change if it changes on both sides. -/
theorem change
    {name : QueueName}
    {change changeTwin : Queue τ → Queue τ}
    (related : plain.Related twins mixed)
    (incoming :
      List.Forall₂ twins (change (plain.queue name)).incoming
        (changeTwin (mixed.queue name)).incoming)
    (ready :
      List.Forall₂ twins (change (plain.queue name)).ready
        (changeTwin (mixed.queue name)).ready) :
    (plain.change name change).Related twins (mixed.change name changeTwin) := by
  refine ⟨fun other => ?_, fun other => ?_, ?_, ?_⟩
  · rw [queue_change, queue_change]
    split
    · exact incoming
    · exact related.incoming other
  · rw [queue_change, queue_change]
    split
    · exact ready
    · exact related.ready other
  · rw [opened_change, opened_change, related.opened]
  · rw [waiters_change, waiters_change]
    exact related.waiters

theorem spawn
    {task twin : τ}
    (related : plain.Related twins mixed)
    (name : QueueName)
    (pair : twins task twin) :
    (plain.spawn name task).Related twins (mixed.spawn name twin) :=
  related.change (List.rel_append (related.incoming name) (.cons pair .nil)) (related.ready name)

theorem enqueue
    {task twin : τ}
    (related : plain.Related twins mixed)
    (name : QueueName)
    (pair : twins task twin) :
    (plain.enqueue name task).Related twins (mixed.enqueue name twin) :=
  related.change (related.incoming name) (List.rel_append (related.ready name) (.cons pair .nil))

theorem drain (related : plain.Related twins mixed) (name : QueueName) :
    (plain.drain name).Related twins (mixed.drain name) :=
  related.change .nil (List.rel_append (related.ready name) (related.incoming name))

theorem wait
    {task twin : τ}
    (related : plain.Related twins mixed)
    (gate : String)
    (name : QueueName)
    (pair : twins task twin) :
    (plain.wait gate name task).Related twins (mixed.wait gate name twin) :=
  ⟨related.incoming, related.ready, related.opened,
    List.rel_append related.waiters (.cons ⟨rfl, rfl, pair⟩ .nil)⟩

/-- The first tasks of a queue stand for each other, if there are any. -/
theorem next? (related : plain.Related twins mixed) (name : QueueName) :
    plain.next? name = none ∧ mixed.next? name = none ∨
      ∃ task twin rest restTwin, plain.next? name = some (task, rest) ∧
        mixed.next? name = some (twin, restTwin) ∧ twins task twin ∧
          rest.Related twins restTwin := by
  have ready := related.ready name
  unfold Executor.next?
  cases plainReady : (plain.queue name).ready with
  | nil =>
      rw [plainReady, List.forall₂_nil_left_iff] at ready
      rw [ready]
      exact .inl ⟨rfl, rfl⟩
  | cons task rest =>
      rw [plainReady] at ready
      obtain ⟨twin, restTwin, pair, others, mixedReady⟩ := List.forall₂_cons_left_iff.mp ready
      rw [mixedReady]
      exact .inr ⟨task, twin, _, _, rfl, rfl, pair, related.change (related.incoming name) others⟩

theorem release (related : plain.Related twins mixed) (gate : String) :
    (plain.release gate).Related twins (mixed.release gate) := by
  have called : List.Forall₂ (Waiter.Twins twins)
      (plain.waiters.filter fun waiter => waiter.gate = gate)
      (mixed.waiters.filter fun waiter => waiter.gate = gate) :=
    List.rel_filter (fun _ _ waiters => by simp only [waiters.gate]) related.waiters
  have opened :
      ({ plain with
          opened := gate :: plain.opened
          waiters := plain.waiters.filter fun waiter => waiter.gate ≠ gate } : Executor τ).Related
        twins
        { mixed with
          opened := gate :: mixed.opened
          waiters := mixed.waiters.filter fun waiter => waiter.gate ≠ gate } :=
    ⟨related.incoming, related.ready, congrArg (gate :: ·) related.opened,
      List.rel_filter (fun _ _ waiters => by simp only [waiters.gate]) related.waiters⟩
  refine List.rel_foldl (fun _ _ related waiter twin waiters => ?_) opened called
  simp only [waiters.queue]
  exact related.enqueue _ waiters.task

end Related

end Executor

end Hydration
