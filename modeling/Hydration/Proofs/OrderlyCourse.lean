import Hydration.Proofs.Life.Asked
import Hydration.Proofs.Passive.Ordered
import Hydration.Proofs.Passive.Plan

/-!
# The orderly course of a binding

What can be told of a binding whose scripts ask for nothing follows the course
of a life, in whatever order mounts, unmounts, ends, contexts and imports come:
a failed attempt leaves no instance and is not repeated of itself, and nothing
follows the end.
-/

namespace Hydration

namespace Life

variable {key : BindingId} {allowed : Life → Call → Prop} {life : Life}

/-- A binding that is disturbed only between its calls always has a plan. -/
theorem Sheltered.planned
    (sheltered : Sheltered key (fun life => life.calls = []) allowed life) :
    life.Planned key := by
  induction sheltered with
  | begin begins => exact begins.planned
  | disturbed _ idle happened inductionHypothesis => exact happened.planned idle inductionHypothesis
  | carried _ _ calls _ happened inductionHypothesis =>
      exact happened.planned calls inductionHypothesis

/-- A binding does not begin an attempt of itself. -/
theorem Carried.mounting
    {before after : Life}
    {call : Call}
    {rest : List Call}
    (calls : before.calls = call :: rest)
    (happened : Carried key call { before with calls := rest } after)
    (planned : before.Planned key)
    (mounting : after.phase = .mounting) :
    before.phase = .mounting := by
  cases happened with
  | remount _ wanted => cases (planned.unwanted_of_leaves calls rfl).symm.trans wanted
  | arriveFault | constructFault | moveIn | vacated | bury => cases mounting
  | _ => exact mounting

/-- A binding has ended, and nothing of it is left but imports that come too late. -/
structure Ended (key : BindingId) (life : Life) : Prop where
  destroyed : life.phase = .destroyed
  late : ∀ call ∈ life.calls, ∃ number outcome, call = .arrive key number outcome

theorem Disturbed.ended
    {before after : Life}
    (happened : Disturbed key before after)
    (ended : before.Ended key) :
    after.Ended key ∧ after.events = before.events := by
  obtain ⟨destroyed, late⟩ := ended
  cases happened with
  | aside | born => exact ⟨⟨destroyed, late⟩, rfl⟩
  | land _ attempt outcome =>
      refine ⟨⟨destroyed, ?_⟩, rfl⟩
      intro call member
      rcases List.mem_cons.mp member with rfl | old
      · exact ⟨attempt, outcome, rfl⟩
      · exact late call old
  | wish _ _ under | forgo _ _ under =>
      rcases under with phase | phase <;> cases phase.symm.trans destroyed
  | attempt _ _ unmounted => cases unmounted.symm.trans destroyed
  | revoke _ _ mounted => cases mounted.symm.trans destroyed
  | doom _ _ living | complain _ _ living => exact (living destroyed).elim

theorem Carried.ended
    {before after : Life}
    {call : Call}
    {rest : List Call}
    (calls : before.calls = call :: rest)
    (happened : Carried key call { before with calls := rest } after)
    (ended : before.Ended key) :
    after.Ended key ∧ after.events = before.events := by
  obtain ⟨destroyed, late⟩ := ended
  obtain ⟨number, outcome, rfl⟩ := late call (by rw [calls]; exact List.mem_cons_self)
  cases happened with
  | arriveLate =>
      refine ⟨⟨destroyed, fun other member => late other ?_⟩, rfl⟩
      rw [calls]
      exact List.mem_cons_of_mem _ member
  | arriveFault _ _ _ current | arriveModule _ _ _ current =>
      cases current.1.symm.trans destroyed

end Life

namespace Run

variable {free : Move → Prop} {start page : Page} {passed : List Page} {key : BindingId}

/-- While no call of a binding is under way its course has come to where it stands. -/
theorem stands
    (begins : start.Begins)
    (run : Run free start passed page)
    (passive : ∀ earlier ∈ passed, ¬ earlier.Acts key)
    (idle : (page.life key).calls = []) :
    ∃ standing, Course (page.trace key) standing ∧
      standing.Describes (page.life key).phase (page.life key).occupant := by
  rw [← Page.trace_life]
  exact (run.undisturbed begins passive).planned.stands idle

end Run

end Hydration
