import Hydration.Proofs.Imports.Pledging

/-!
# Imports are completed once

The import of an attempt starts at most once.  From then on it is unfinished in a
queue or behind a gate until it is about to be completed, and then it is
completed.  So the imports that have started are at every moment those that were
completed, those about to be completed and those that are unfinished, and none is
counted twice.
-/

namespace Hydration

theorem filterMap_cons_eq {α β : Type} (entry : α) (rest : List α) (part? : α → Option β) :
    (entry :: rest).filterMap part? = (part? entry).toList ++ rest.filterMap part? := by
  rw [List.filterMap_eq_flatMap_toList, List.filterMap_eq_flatMap_toList, List.flatMap_cons]

/-- An attempt of a binding to mount. -/
abbrev Trial := BindingId × Nat

def Task.trial (task : Task) : Trial :=
  (task.binding, task.attempt)

/-- The attempt whose import a call completes. -/
def Call.completed? : Call → Option Trial
  | arrive binding attempt _ => some (binding, attempt)
  | _ => none

theorem Call.completed?_of_not_isArrival
    {call : Call}
    (other : call.isArrival = false) :
    call.completed? = none := by
  cases call with
  | arrive => cases other
  | _ => rfl

theorem filterMap_completed?_eq_nil
    {calls : List Call}
    (others : ∀ call ∈ calls, call.isArrival = false) :
    calls.filterMap Call.completed? = [] :=
  List.filterMap_eq_nil_iff.mpr fun call member =>
    Call.completed?_of_not_isArrival (others call member)

namespace Page

/-- The attempt whose import starts by the next step. -/
def starting? (page : Page) : Option Trial :=
  match page.stack with
  | .launch key attempt :: _ =>
      if (page.binding? key).any fun binding => isCurrent binding attempt then
        some (key, attempt)
      else none
  | _ => none

/-- The attempt whose import is completed by the next step. -/
def completing? (page : Page) : Option Trial :=
  page.stack.head?.bind Call.completed?

/-- The attempts whose imports have started and are still to be completed. -/
def due (page : Page) : Multiset Trial :=
  (page.stack.filterMap Call.completed? : List Trial) +
    (page.executor.unfinished : Multiset Task).map Task.trial

variable {page after : Page} {call : Call} {outer : List Call} {key : BindingId} {attempt : Nat}

theorem due_of_stack (stack : page.stack = call :: outer) :
    page.due = (page.completing?.toList : List Trial) + ({ page with stack := outer } : Page).due := by
  simp only [due, completing?, stack, List.head?_cons, Option.bind_some, List.filterMap_cons]
  cases call.completed? <;> simp [← Multiset.cons_coe]

theorem Abides.due (abides : page.Abides after) : after.due = page.due := by
  obtain ⟨added, stack, others⟩ := abides.stack
  rw [Page.due, Page.due, abides.unfinished, stack, List.filterMap_append,
    filterMap_completed?_eq_nil others, List.nil_append]

/-- An import that is looked at is to be completed, now or later. -/
theorem Looked.due
    {task : Task}
    {seen : Prop}
    (looked : page.Looked task seen after) :
    after.due = task.trial ::ₘ page.due := by
  cases looked with
  | lands _ _ _ unfinished stack =>
      simp [Page.due, unfinished, stack, Call.completed?, Task.trial, ← Multiset.cons_coe]
  | waits _ _ _ unfinished stack =>
      simp [Page.due, unfinished, stack]

/-- A launch starts an import exactly if its attempt is current. -/
theorem starting?_of_launch (stack : page.stack = .launch key attempt :: outer) :
    page.starting? = some (key, attempt) ∧
        (∃ binding, page.binding? key = some binding ∧ isCurrent binding attempt) ∨
      page.starting? = none ∧
        page.step = { page with stack := outer } := by
  have seen : page.starting? =
      if (page.binding? key).any fun binding => isCurrent binding attempt then
        some (key, attempt)
      else none := by
    simp only [starting?, stack]
  rw [seen, step_of_stack stack, carryOn, launch]
  have taken : ({ page with stack := outer } : Page).binding? key = page.binding? key := rfl
  rw [taken]
  cases found : page.binding? key with
  | none => exact .inr ⟨rfl, rfl⟩
  | some binding =>
      by_cases current : isCurrent binding attempt
      · exact .inl ⟨if_pos current, binding, rfl, current⟩
      · right
        dsimp only
        rw [if_neg current]
        exact ⟨if_neg current, rfl⟩

theorem starting?_of_other
    (stack : page.stack = call :: outer)
    (unlaunched : ∀ key attempt, call ≠ .launch key attempt) :
    page.starting? = none := by
  rw [starting?, stack]
  cases call with
  | launch key attempt => exact (unlaunched key attempt rfl).elim
  | _ => rfl

theorem completing?_of_other
    (stack : page.stack = call :: outer)
    (other : call.isArrival = false) :
    page.completing? = none := by
  rw [completing?, stack]
  exact Call.completed?_of_not_isArrival other

theorem exists_of_starting?
    {trial : Trial}
    (starts : page.starting? = some trial) :
    ∃ outer, page.stack = .launch trial.1 trial.2 :: outer ∧
      ∃ binding, page.binding? trial.1 = some binding := by
  cases stack : page.stack with
  | nil => simp [starting?, stack] at starts
  | cons call outer =>
      by_cases launches : ∃ key attempt, call = .launch key attempt
      · obtain ⟨key, attempt, rfl⟩ := launches
        rcases starting?_of_launch stack with ⟨same, binding, found, _⟩ | ⟨none, _⟩
        · cases same.symm.trans starts
          exact ⟨outer, rfl, binding, found⟩
        · cases none.symm.trans starts
      · push Not at launches
        cases (starting?_of_other stack launches).symm.trans starts

/-- A step adds the import it starts to what is due, and takes off the one it completes. -/
theorem due_step (page : Page) :
    (page.starting?.toList : List Trial) + page.due =
      (page.completing?.toList : List Trial) + page.step.due := by
  cases stack : page.stack with
  | nil => simp [step_of_nil stack, starting?, completing?, stack]
  | cons call outer =>
      have popped := due_of_stack stack
      have stepped := step_of_stack stack
      by_cases launches : ∃ key attempt, call = .launch key attempt
      · obtain ⟨key, attempt, rfl⟩ := launches
        rw [popped, completing?_of_other stack rfl]
        rcases starting?_of_launch stack with ⟨starts, binding, found, current⟩ | ⟨none, same⟩
        · have taken : ({ page with stack := outer } : Page).binding? key = some binding := found
          rw [starts, stepped, carryOn, (looked_launch taken current).due]
          rfl
        · rw [none, same]
          rfl
      · push Not at launches
        rw [popped, starting?_of_other stack launches]
        by_cases drives : ∃ queue, call = .drive queue
        · obtain ⟨queue, rfl⟩ := drives
          rw [completing?_of_other stack rfl, stepped, carryOn]
          cases fetched_driveNext { page with stack := outer } queue with
          | aside abides => rw [abides.due]; rfl
          | resumes taken looked =>
              rw [looked.due]
              simp only [due, taken, Multiset.map_cons, Multiset.add_cons]
              rfl
        · push Not at drives
          rw [stepped, (Abides.carryOn _ launches drives).due]
          simp

end Page

namespace Run

variable {free : Move → Prop} {start page : Page} {passed : List Page}

/-- The imports that have started are those that were completed and those that are due. -/
theorem started_eq
    (begins : start.Begins)
    (run : Run free start passed page) :
    (passed.filterMap Page.starting? : Multiset Trial) =
      (passed.filterMap Page.completing? : List Trial) + page.due := by
  induction run with
  | begin => simp [Page.due, begins.rest, begins.unfinished]
  | @move passed page move _ rest _ inductionHypothesis =>
      have stack := Page.stack_of_rest rest
      have still : (page.move move).due = page.due := by cases move <;> rfl
      rw [filterMap_cons_eq, filterMap_cons_eq, still]
      simpa [Page.starting?, Page.completing?, stack] using inductionHypothesis
  | @step passed page _ inductionHypothesis =>
      have next := page.due_step
      rw [filterMap_cons_eq, filterMap_cons_eq, ← Multiset.coe_add, inductionHypothesis,
        ← Multiset.coe_add, add_left_comm, next]
      abel

/-- The import of an attempt that has started does not start any more. -/
theorem hasStarted
    {trial : Trial}
    (begins : start.Begins)
    (run : Run free start passed page)
    (started : trial ∈ passed.filterMap Page.starting?) :
    (page.life trial.1).HasStarted trial.1 trial.2 := by
  induction run with
  | begin => cases started
  | @move passed page move _ rest _ inductionHypothesis =>
      rw [filterMap_cons_eq, Page.starting?, Page.stack_of_rest rest] at started
      exact (inductionHypothesis started).disturbed (page.disturbed_move move trial.1)
  | @step passed page earlier inductionHypothesis =>
      rw [filterMap_cons_eq, List.mem_append, Option.mem_toList] at started
      rcases started with now | before
      · obtain ⟨outer, stack, binding, found⟩ := Page.exists_of_starting? now
        exact Page.hasStarted_launch (earlier.lives begins trial.1).laws.1 stack
          (Page.life_of_found found).1
      · have before := inductionHypothesis before
        rcases page.step_life fun _ => before.present with disturbed | ⟨_, _, _, _, calls, carried⟩
        · exact before.disturbed disturbed
        · exact before.carried calls carried

/-- No import is started twice. -/
theorem nodup_started
    (begins : start.Begins)
    (run : Run free start passed page) :
    (passed.filterMap Page.starting?).Nodup := by
  induction run with
  | begin => exact .nil
  | @move passed page move _ rest _ inductionHypothesis =>
      rw [filterMap_cons_eq, Page.starting?, Page.stack_of_rest rest]
      exact inductionHypothesis
  | @step passed page earlier inductionHypothesis =>
      rw [filterMap_cons_eq]
      cases starts : page.starting? with
      | none => exact inductionHypothesis
      | some trial =>
          refine List.nodup_cons.mpr ⟨fun before => ?_, inductionHypothesis⟩
          obtain ⟨outer, stack, _⟩ := Page.exists_of_starting? starts
          refine (earlier.hasStarted begins before).launched (List.mem_filter.mpr ⟨?_, ?_⟩)
          · rw [stack]
            exact List.mem_cons_self
          · exact decide_eq_true rfl

end Run

end Hydration
