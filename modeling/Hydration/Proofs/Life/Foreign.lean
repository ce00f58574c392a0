import Hydration.Proofs.Life.View
import Hydration.Proofs.Life.Working

/-!
# What happens to other bindings

Carrying on a call of one binding leaves the lives of all others as they are.
Only the count of instances, which all bindings of a page share, may grow.
-/

namespace Hydration

namespace Page

variable {key other : BindingId}

theorem life_setWanted_other (page : Page) (wanted : Bool) (different : other ≠ key) :
    (page.setWanted other wanted).life key = page.life key :=
  life_changeBinding_other page _ different

/-- While the life of a binding is at work others get no part of it. -/
theorem life_works_other
    {page after : Page}
    {heft : Nat}
    (works : page.Works other heft after)
    (different : other ≠ key) :
    ∃ instances, page.instances ≤ instances ∧
      after.life key = { page.life key with instances } := by
  obtain ⟨change, bindings, _⟩ := works.bindings
  obtain ⟨events, history, ownEvents⟩ := works.history
  obtain ⟨added, stack, ownCalls, _⟩ := works.stack
  have binding : after.binding? key = page.binding? key := by
    rw [binding?, bindings, Table.get?_modify, if_neg (Ne.symm different)]
    rfl
  have calls : added.filter (Call.isOf key) = [] := by
    refine List.filter_eq_nil_iff.mpr fun call member own => different ?_
    exact Option.some.inj ((ownCalls call member).1.symm.trans (Call.subject?_of_isOf own))
  have unrelated : events.filter (Event.isOf key) = [] := by
    refine List.filter_eq_nil_iff.mpr fun event member => ?_
    simpa [Event.isOf_eq (ownEvents event member) key] using different
  refine ⟨after.instances, works.instances, ?_⟩
  simp only [life, importsOf, binding, stack, history, works.executor, List.filter_append, calls,
    unrelated, List.nil_append]

theorem life_report_other (page : Page) (fault : MountFault) (different : other ≠ key) :
    (page.report other fault).life key = page.life key := by
  simp [report, Call.isOf, different]

theorem life_mount_other (page : Page) (different : other ≠ key) :
    (page.mount other).life key = page.life key := by
  unfold mount
  split
  · rfl
  · split
    · rfl
    · exact life_setWanted_other page true different
    · exact life_setWanted_other page true different
    · simp [Call.isOf, different]

theorem Spawns.life_other
    {page after : Page}
    {spawning : Spawning}
    {task : Task}
    (spawned : page.Spawns spawning task after)
    (different : task.binding ≠ key) :
    after.life key = page.life key := by
  cases spawned with
  | waits => rw [life_executor_more page (Executor.unfinished_spawn _ _ task), if_neg different]
  | lands =>
      rw [life_push]
      simp only [Call.isOf, different, decide_false, Bool.false_eq_true, not_false_eq_true,
        List.filter_cons_of_neg, List.filter_nil, Life.push_nil]
      exact life_congr rfl rfl rfl rfl rfl

theorem life_launch_other (page : Page) (attempt : Nat) (different : other ≠ key) :
    (page.launch other attempt).life key = page.life key := by
  have launches := page.launches other attempt
  generalize page.launch other attempt = after at launches ⊢
  cases launches with
  | late => rfl
  | starts reports _ _ spawned =>
      exact (spawned.life_other different).trans (life_reported page reports _)

theorem life_remount_other (page : Page) (different : other ≠ key) :
    (page.remount other).life key = page.life key := by
  unfold remount
  split
  · exact life_mount_other page different
  · rfl

theorem life_retire_other (page : Page) (different : other ≠ key) :
    (page.retire other).life key = page.life key := by
  unfold retire
  split <;>
    rw [life_push, life_setWanted_other _ _ different] <;>
    simp [Call.isOf, different]

theorem life_bury_other (page : Page) (different : other ≠ key) :
    (page.bury other).life key = page.life key := by
  unfold bury
  rw [life_push, life_changeBinding_other _ _ different]
  have silent :
      [Call.notice other .didDestroy none, .notice other .onDestroy none].filter
        (Call.isOf key) = [] := by
    simp [Call.isOf, different]
  rw [silent, Life.push_nil]
  split
  · rfl
  · exact life_congr rfl rfl rfl rfl rfl

theorem life_unmount_other (page : Page) (different : other ≠ key) :
    (page.unmount other).life key = page.life key := by
  unfold unmount
  split
  · rfl
  · rw [life_push, life_setWanted_other _ _ different]
    simp [Call.isOf, different]
  · exact life_setWanted_other _ _ different

theorem life_destroy_other (page : Page) (different : other ≠ key) :
    (page.destroy other).life key = page.life key := by
  unfold destroy
  split
  · rfl
  · simp [Call.isOf, different]

theorem life_start_other (page : Page) (different : other ≠ key) :
    (page.start other).life key = page.life key := by
  have starts := page.starts other
  generalize page.start other = after at starts ⊢
  cases starts with
  | late => rfl
  | unread => exact life_report_other _ _ different
  | refused =>
      rw [life_report_other _ _ different]
      exact life_congr rfl rfl rfl rfl rfl
  | @watched _ _ scene watch =>
      have given : (page.giveWatch other scene watch).life key = page.life key := by
        rw [giveWatch, life_changeBinding_other _ _ different]
        exact life_congr rfl rfl rfl rfl rfl
      rw [life_push, given]
      split <;> simp [Call.isOf]

end Page

end Hydration
