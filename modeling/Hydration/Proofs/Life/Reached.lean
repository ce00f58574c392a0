import Hydration.Proofs.Life.Step

/-!
# Runs as lives

Along every run of a page the life of each binding is `Reached`: it begins fresh,
and each step carries on one of its calls or disturbs it from outside.
-/

namespace Hydration

namespace Life

variable {key : BindingId} {allowed : Life → Call → Prop}

theorem Disturbed.present_of_present
    {before after : Life}
    (happened : Disturbed key before after)
    (present : before.present) :
    after.present := by
  cases happened with
  | aside | wish | attempt | forgo | revoke | doom | complain | land => exact present
  | born => rfl

theorem Carried.present_eq
    {call : Call}
    {before after : Life}
    (happened : Carried key call before after) :
    after.present = before.present := by
  cases happened <;> rfl

/-- What disturbs a binding takes none of its calls off. -/
theorem Disturbed.calls_subset
    {before after : Life}
    (happened : Disturbed key before after) :
    before.calls ⊆ after.calls := by
  cases happened with
  | aside | born | wish | forgo => exact List.Subset.refl _
  | revoke | doom | complain | land => exact List.subset_append_right _ _
  | attempt =>
      exact List.Subset.trans (List.subset_cons_self _ _) (List.subset_cons_self _ _)

/-- Only the call itself is taken off when it is carried on. -/
theorem Carried.calls_subset
    {before after : Life}
    {call : Call}
    (happened : Carried key call before after) :
    before.calls ⊆ after.calls := by
  cases happened with
  | notice | launchLate | launchWaits | arriveLate | settleWanted | teardownLate | dismantleLate
  | remountLate =>
      exact List.Subset.refl _
  | arriveFault | constructFault | remount =>
      exact List.Subset.trans (List.subset_cons_self _ _) (List.subset_cons_self _ _)
  | launchLands | arriveModule | choose | equip | build | moveIn | settleUnwanted | teardown
  | dismantle | vacated | retireMounted | retire | bury =>
      exact List.subset_append_right _ _

/-- Only a binding that has been made has calls under way or imports to wait for. -/
theorem Reached.present_of_busy
    {life : Life}
    (reached : Reached key allowed life)
    (busy : life.calls ≠ [] ∨ life.imports ≠ 0) :
    life.present := by
  induction reached with
  | begin begins =>
      rcases busy with calls | imports
      · exact (calls begins.calls).elim
      · exact (imports begins.imports).elim
  | disturbed _ happened inductionHypothesis =>
      cases happened with
      | aside => exact inductionHypothesis busy
      | born => rfl
      | wish _ present | attempt _ present | forgo _ present | revoke _ present
      | doom _ present | complain _ present =>
          exact present
      | land life attempt outcome =>
          exact inductionHypothesis (.inr (Multiset.cons_ne_zero))
  | carried _ present _ _ happened =>
      rw [happened.present_eq]
      exact present

end Life

/-- A call of the binding on top of the stack is carried on in its life. -/
theorem Page.step_carried
    {page : Page}
    {key : BindingId}
    {call : Call}
    {outer : List Call}
    (stack : page.stack = call :: outer)
    (own : call.isOf key)
    (present : (page.life key).present) :
    (page.life key).calls = call :: outer.filter (Call.isOf key) ∧
      Life.Carried key call { page.life key with calls := outer.filter (Call.isOf key) }
        (page.step.life key) := by
  have calls : (page.life key).calls = call :: outer.filter (Call.isOf key) := by
    simp only [Page.life, stack, List.filter_cons_of_pos own]
  obtain ⟨binding, found⟩ := Option.isSome_iff_exists.mp present
  have found : ({ page with stack := outer } : Page).binding? key = some binding := found
  rw [Page.step_of_stack stack]
  exact ⟨calls, Page.carryOn_carried found own⟩

/-- A call that is not of the binding disturbs it at most. -/
theorem Page.step_disturbed
    {page : Page}
    {key : BindingId}
    {call : Call}
    {outer : List Call}
    (stack : page.stack = call :: outer)
    (foreign : call.isOf key = false) :
    Life.Disturbed key (page.life key) (page.step.life key) := by
  rw [Page.step_of_stack stack, ← Page.life_pop stack foreign]
  exact Page.carryOn_disturbed _ foreign

/-- One step carries on a call of the binding or disturbs the binding. -/
theorem Page.step_life
    {page : Page}
    {key : BindingId}
    (present : (page.life key).calls ≠ [] → (page.life key).present) :
    Life.Disturbed key (page.life key) (page.step.life key) ∨
      ∃ call outer,
        page.stack = call :: outer ∧ call.isOf key ∧
        (page.life key).calls = call :: outer.filter (Call.isOf key) ∧
        Life.Carried key call { page.life key with calls := outer.filter (Call.isOf key) }
          (page.step.life key) := by
  cases stack : page.stack with
  | nil =>
      left
      rw [Page.step_of_nil stack]
      exact .aside _ _ (Nat.le_refl _)
  | cons call outer =>
      by_cases own : call.isOf key
      · right
        have busy := Page.calls_ne_nil_of_stack stack own
        exact ⟨call, outer, rfl, own, Page.step_carried stack own (present busy)⟩
      · left
        exact Page.step_disturbed stack (by simpa using own)

/-- The most that a move of the host does to a life is to bring it into being. -/
theorem Page.disturbed_move (page : Page) (move : Move) (key : BindingId) :
    Life.Disturbed key (page.life key) ((page.move move).life key) := by
  have untouched {changed : Page} (same : changed.life key = page.life key) :
      Life.Disturbed key (page.life key) (changed.life key) := by
    rw [same]
    exact .aside _ _ (Nat.le_refl _)
  cases move with
  | ask request => exact untouched (by simp [Page.move, Call.isOf])
  | callback binding notice script =>
      by_cases own : binding = key
      · subst own
        exact untouched (Page.life_setCallback page notice script)
      · exact untouched (Page.life_changeBinding_other page _ own)
  | script | constructor | plugin | catalog | registry | scene =>
      exact untouched (Page.life_congr rfl rfl rfl rfl rfl)
  | bind label name element context hooks =>
      rcases Page.life_addBinding page
        (Binding.isFresh_fresh label name element context hooks) with same | born
      · exact untouched same
      · rw [Page.move, born]
        exact .born _

theorem Page.Begins.life
    {page : Page}
    (begins : page.Begins)
    (key : BindingId) :
    (page.life key).Begins := by
  have calls : (page.life key).calls = [] := by
    simp [Page.life, begins.rest]
  have imports : (page.life key).imports = 0 := by
    simp [Page.life, Page.importsOf, begins.unfinished]
  have events : (page.life key).events = [] := by
    simp [Page.life, begins.history]
  cases found : page.binding? key with
  | none =>
      refine ⟨?_, ?_, ?_, ?_, calls, imports, events⟩ <;> simp [Page.life, found]
  | some binding =>
      have fresh : binding.IsFresh := begins.fresh binding (List.mem_of_getElem? found)
      obtain ⟨_, phase, wanted, attempt, occupant⟩ := Page.life_of_found found
      exact ⟨phase.trans fresh.phase, wanted.trans fresh.wanted,
        attempt.trans fresh.attempt, occupant.trans fresh.occupant, calls, imports, events⟩

namespace Run

variable {free : Move → Prop} {start page : Page} {passed : List Page} {key : BindingId}

/--
A run is a life that is reached.  If its steps carry on the binding's calls only
as `allowed`, so does the life.
-/
theorem reached
    {allowed : Life → Call → Prop}
    (begins : start.Begins)
    (run : Run free start passed page)
    (permitted :
      ∀ earlier ∈ passed, ∀ call rest, earlier.stack = call :: rest → call.isOf key →
        allowed (earlier.life key) call) :
    Life.Reached key allowed (page.life key) := by
  induction run with
  | begin =>
      exact .begin (begins.life key)
  | @move passed page move _ _ _ inductionHypothesis =>
      have before : Life.Reached key allowed (page.life key) :=
        inductionHypothesis fun earlier member =>
          permitted earlier (List.mem_cons_of_mem _ member)
      exact before.disturbed (page.disturbed_move move key)
  | @step passed page _ inductionHypothesis =>
      have before : Life.Reached key allowed (page.life key) :=
        inductionHypothesis fun earlier member =>
          permitted earlier (List.mem_cons_of_mem _ member)
      have present (busy : (page.life key).calls ≠ []) := before.present_of_busy (.inl busy)
      rcases page.step_life present with
        disturbed | ⟨call, outer, stack, own, calls, carried⟩
      · exact before.disturbed disturbed
      · exact before.carried (present (by simp [calls])) calls
          (permitted page List.mem_cons_self call outer stack own) carried

/-- A binding that has been made is there from then on. -/
theorem present
    (run : Run free start passed page)
    (present : (start.life key).present) :
    (page.life key).present := by
  induction run with
  | begin =>
      exact present
  | @move _ page move _ _ _ inductionHypothesis =>
      exact (page.disturbed_move move key).present_of_present inductionHypothesis
  | @step _ page _ inductionHypothesis =>
      rcases page.step_life fun _ => inductionHypothesis with disturbed | ⟨_, _, _, _, _, carried⟩
      · exact disturbed.present_of_present inductionHypothesis
      · rw [carried.present_eq]
        exact inductionHypothesis

/-- The lives of a run without any restriction. -/
theorem lives
    (begins : start.Begins)
    (run : Run free start passed page)
    (key : BindingId) :
    Life.Reached key (fun _ _ => True) (page.life key) :=
  run.reached begins fun _ _ _ _ _ _ => trivial

end Run

end Hydration
