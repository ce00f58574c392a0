import Hydration.Proofs.Life.Reached

/-!
# Sheltered lives

The calls of a binding do not let everything come between them: what one call
leaves on top of the stack goes on before anybody else is heard.  A life is
sheltered if the binding is disturbed only at moments at which it is exposed.
-/

namespace Hydration

namespace Life

/--
The lives of a binding that a run reaches, if the binding is disturbed only while
it is `exposed` and carries on with a call only as `allowed`.
-/
inductive Sheltered (key : BindingId) (exposed : Life → Prop) (allowed : Life → Call → Prop) :
    Life → Prop where
  | begin
      {life : Life}
      (begins : life.Begins) :
      Sheltered key exposed allowed life
  | disturbed
      {before after : Life}
      (earlier : Sheltered key exposed allowed before)
      (reachable : exposed before)
      (happened : Disturbed key before after) :
      Sheltered key exposed allowed after
  | carried
      {before after : Life}
      {call : Call}
      {rest : List Call}
      (earlier : Sheltered key exposed allowed before)
      (present : before.present)
      (calls : before.calls = call :: rest)
      (permitted : allowed before call)
      (happened : Carried key call { before with calls := rest } after) :
      Sheltered key exposed allowed after

variable {key : BindingId} {exposed : Life → Prop} {allowed : Life → Call → Prop}

/-- A sheltered life is one that is reached. -/
theorem Sheltered.reached
    {life : Life}
    (sheltered : Sheltered key exposed allowed life) :
    Reached key allowed life := by
  induction sheltered with
  | begin begins => exact .begin begins
  | disturbed _ _ happened inductionHypothesis => exact inductionHypothesis.disturbed happened
  | carried _ present calls permitted happened inductionHypothesis =>
      exact inductionHypothesis.carried present calls permitted happened

end Life

variable {free : Move → Prop} {start page : Page} {passed : List Page} {key : BindingId}

/--
A binding lives sheltered along a run if it is exposed whenever none of its calls
is under way, and whenever a step of another call changes its life.
-/
theorem Run.sheltered
    {exposed : Life → Prop}
    {allowed : Life → Call → Prop}
    (begins : start.Begins)
    (run : Run free start passed page)
    (idle : ∀ life : Life, life.calls = [] → exposed life)
    (opened :
      ∀ earlier ∈ passed, ∀ call outer, earlier.stack = call :: outer → call.isOf key = false →
        exposed (earlier.life key) ∨ earlier.step.life key = earlier.life key)
    (permitted :
      ∀ earlier ∈ passed, ∀ call outer, earlier.stack = call :: outer → call.isOf key →
        allowed (earlier.life key) call) :
    Life.Sheltered key exposed allowed (page.life key) := by
  induction run with
  | begin => exact .begin (begins.life key)
  | @move passed page move _ rest _ inductionHypothesis =>
      have before : Life.Sheltered key exposed allowed (page.life key) :=
        inductionHypothesis
          (fun earlier member => opened earlier (List.mem_cons_of_mem _ member))
          (fun earlier member => permitted earlier (List.mem_cons_of_mem _ member))
      exact before.disturbed (idle _ (Page.calls_of_rest rest key)) (page.disturbed_move move key)
  | @step passed page _ inductionHypothesis =>
      have before : Life.Sheltered key exposed allowed (page.life key) :=
        inductionHypothesis
          (fun earlier member => opened earlier (List.mem_cons_of_mem _ member))
          (fun earlier member => permitted earlier (List.mem_cons_of_mem _ member))
      cases stack : page.stack with
      | nil =>
          rwa [Page.step_of_nil stack]
      | cons call outer =>
          by_cases own : call.isOf key
          · have busy := Page.calls_ne_nil_of_stack stack own
            have present := before.reached.present_of_busy (.inl busy)
            obtain ⟨calls, carried⟩ := Page.step_carried stack own present
            exact before.carried present calls
              (permitted page List.mem_cons_self call outer stack own) carried
          · have foreign : call.isOf key = false := by simpa using own
            rcases opened page List.mem_cons_self call outer stack foreign with reachable | same
            · exact before.disturbed reachable (Page.step_disturbed stack foreign)
            · rwa [same]

end Hydration
