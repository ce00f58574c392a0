import Hydration.Executor
import Mathlib.Algebra.Order.Group.Multiset
import Mathlib.Tactic.Abel

/-!
# What a queue still has to do

A task is unfinished from the moment it is spawned until its queue hands it out
for good.  Draining a queue and opening a gate move tasks about but lose none
and double none.
-/

namespace Hydration.Executor

variable {τ : Type}

/-- The unfinished tasks by the place where they are. -/
theorem unfinished_eq (executor : Executor τ) :
    (executor.unfinished : Multiset τ) =
      (executor.page.incoming : Multiset τ) + executor.page.ready +
        ((executor.host.incoming : Multiset τ) + executor.host.ready) +
        (executor.waiters.map Waiter.task : List τ) := by
  simp only [unfinished, Multiset.coe_add]

/-- Changing a queue changes what is unfinished by what it does to that queue. -/
theorem unfinished_change
    (executor : Executor τ)
    (name : QueueName)
    (change : Queue τ → Queue τ)
    {added : Multiset τ}
    (adds :
      ((change (executor.queue name)).incoming : Multiset τ) +
          (change (executor.queue name)).ready =
        added + (((executor.queue name).incoming : Multiset τ) +
          (executor.queue name).ready)) :
    ((executor.change name change).unfinished : Multiset τ) =
      added + executor.unfinished := by
  cases name with
  | page =>
      simp only [queue] at adds
      simp only [Executor.change, unfinished_eq, adds]
      abel
  | host =>
      simp only [queue] at adds
      simp only [Executor.change, unfinished_eq, adds]
      abel

theorem unfinished_spawn (executor : Executor τ) (name : QueueName) (task : τ) :
    ((executor.spawn name task).unfinished : Multiset τ) =
      task ::ₘ executor.unfinished := by
  rw [← Multiset.singleton_add]
  apply unfinished_change
  simp only [← Multiset.coe_add, Multiset.coe_singleton]
  abel

theorem unfinished_enqueue (executor : Executor τ) (name : QueueName) (task : τ) :
    ((executor.enqueue name task).unfinished : Multiset τ) =
      task ::ₘ executor.unfinished := by
  rw [← Multiset.singleton_add]
  apply unfinished_change
  simp only [← Multiset.coe_add, Multiset.coe_singleton]
  abel

theorem unfinished_drain (executor : Executor τ) (name : QueueName) :
    ((executor.drain name).unfinished : Multiset τ) = executor.unfinished := by
  rw [← zero_add (executor.unfinished : Multiset τ)]
  apply unfinished_change
  simp only [← Multiset.coe_add, Multiset.coe_nil]
  abel

theorem unfinished_wait
    (executor : Executor τ)
    (gate : String)
    (name : QueueName)
    (task : τ) :
    ((executor.wait gate name task).unfinished : Multiset τ) =
      task ::ₘ executor.unfinished := by
  rw [← Multiset.singleton_add]
  simp only [unfinished_eq, wait, List.map_append, List.map_cons, List.map_nil,
    ← Multiset.coe_add, Multiset.coe_singleton]
  abel

/-- The task that a queue hands out was unfinished, and the others still are. -/
theorem unfinished_of_next?
    {executor others : Executor τ}
    {name : QueueName}
    {task : τ}
    (next : executor.next? name = some (task, others)) :
    (executor.unfinished : Multiset τ) = task ::ₘ others.unfinished := by
  unfold next? at next
  split at next
  · cases next
  · next first rest ready =>
      cases next
      cases name with
      | page =>
          simp only [queue] at ready
          simp only [unfinished_eq, Executor.change, ready, ← Multiset.cons_coe,
            ← Multiset.singleton_add]
          abel
      | host =>
          simp only [queue] at ready
          simp only [unfinished_eq, Executor.change, ready, ← Multiset.cons_coe,
            ← Multiset.singleton_add]
          abel

/-- Calling waiters back makes each of their tasks unfinished once more. -/
private theorem unfinished_recall (called : List (Waiter τ)) (executor : Executor τ) :
    ((called.foldl (fun executor waiter => executor.enqueue waiter.queue waiter.task)
        executor).unfinished : Multiset τ) =
      (called.map Waiter.task : List τ) + (executor.unfinished : Multiset τ) := by
  induction called generalizing executor with
  | nil => simp
  | cons waiter rest inductionHypothesis =>
      simp only [List.foldl_cons, inductionHypothesis, unfinished_enqueue, List.map_cons,
        ← Multiset.cons_coe, Multiset.cons_add, Multiset.add_cons]

theorem unfinished_release (executor : Executor τ) (gate : String) :
    ((executor.release gate).unfinished : Multiset τ) = executor.unfinished := by
  have split :
      (executor.waiters.map Waiter.task : Multiset τ) =
        ((executor.waiters.filter fun waiter => waiter.gate = gate).map Waiter.task :
          List τ) +
        ((executor.waiters.filter fun waiter => waiter.gate ≠ gate).map Waiter.task :
          List τ) := by
    rw [← Multiset.map_coe, ← Multiset.map_coe, ← Multiset.map_coe, ← Multiset.map_add]
    congr 1
    rw [Multiset.coe_add, Multiset.coe_eq_coe]
    simpa using
      (List.filter_append_perm (fun waiter => decide (waiter.gate = gate))
        executor.waiters).symm
  simp only [release, unfinished_recall]
  rw [unfinished_eq, unfinished_eq executor, split]
  abel

end Hydration.Executor
