import Hydration.Proofs.Life.Attempts

/-!
# Wishes

Where a binding is not what is wanted of it, one of its calls under way is still
to look at the wish, or the latest attempt has failed.
-/

namespace Hydration

/-- Whether a call sees to it that a mounted binding is unmounted if nobody wants it. -/
def Call.heeds : Call → Bool
  | settle _ | teardown _ | dismantle _ | vacated _ => true
  | _ => false

namespace Life

/-- What is wanted of a binding is done, or somebody is still to look at it. -/
structure Wishes (key : BindingId) (life : Life) : Prop where
  unwanted :
    life.phase = .mounted → life.wanted = false → ∃ call ∈ life.calls, call.heeds
  wanted :
    life.phase = .unmounted → life.wanted = true →
      (∃ fault, .failed key life.attempt fault ∈ life.events) ∨ .remount key ∈ life.calls

variable {key : BindingId} {before after : Life} {call : Call} {rest : List Call}

/-- While a binding mounts, and once it has ended, its wish may wait. -/
theorem Wishes.of_busy
    {life : Life}
    (busy : life.phase = .mounting ∨ life.phase = .destroyed) :
    life.Wishes key := by
  refine ⟨?_, ?_⟩
  · intro mounted
    rcases busy with phase | phase <;> cases phase.symm.trans mounted
  · intro unmounted
    rcases busy with phase | phase <;> cases phase.symm.trans unmounted

theorem Wishes.of_mounted
    {life : Life}
    (mounted : life.phase = .mounted)
    (heeded : life.wanted = false → ∃ call ∈ life.calls, call.heeds) :
    life.Wishes key := by
  refine ⟨fun _ => heeded, ?_⟩
  intro unmounted
  cases mounted.symm.trans unmounted

theorem Wishes.of_unmounted
    {life : Life}
    (unmounted : life.phase = .unmounted)
    (excused :
      life.wanted = true →
        (∃ fault, .failed key life.attempt fault ∈ life.events) ∨ .remount key ∈ life.calls) :
    life.Wishes key := by
  refine ⟨?_, fun _ => excused⟩
  intro mounted
  cases unmounted.symm.trans mounted

theorem Disturbed.wishes
    (happened : Disturbed key before after)
    (wishes : before.Wishes key) :
    after.Wishes key := by
  cases happened with
  | aside | born =>
      exact ⟨wishes.unwanted, wishes.wanted⟩
  | doom | complain | land =>
      refine ⟨?_, ?_⟩
      · intro mounted unwanted
        obtain ⟨call, member, heeds⟩ := wishes.unwanted mounted unwanted
        exact ⟨call, List.mem_append_right _ member, heeds⟩
      · intro unmounted wanted
        exact (wishes.wanted unmounted wanted).imp_right (List.mem_append_right _)
  | wish _ _ under =>
      rcases under with mounting | mounted
      · exact .of_busy (.inl mounting)
      · exact .of_mounted mounted fun unwanted => by cases unwanted
  | attempt =>
      exact .of_busy (.inl rfl)
  | forgo _ _ vacant =>
      rcases vacant with unmounted | mounting
      · exact .of_unmounted unmounted fun wanted => by cases wanted
      · exact .of_busy (.inl mounting)
  | revoke _ _ mounted =>
      exact .of_mounted mounted fun _ => ⟨.teardown key, List.mem_cons_self, rfl⟩

/-- Taking off a call that does not look at the wish leaves those that do. -/
theorem Wishes.unwanted_rest
    (wishes : before.Wishes key)
    (calls : before.calls = call :: rest)
    (aside : call.heeds = false)
    (mounted : before.phase = .mounted)
    (unwanted : before.wanted = false) :
    ∃ call ∈ rest, call.heeds := by
  obtain ⟨other, member, heeds⟩ := wishes.unwanted mounted unwanted
  rw [calls] at member
  rcases List.mem_cons.mp member with rfl | old
  · cases aside.symm.trans heeds
  · exact ⟨other, old, heeds⟩

theorem Wishes.wanted_rest
    (wishes : before.Wishes key)
    (calls : before.calls = call :: rest)
    (aside : call ≠ .remount key)
    (unmounted : before.phase = .unmounted)
    (wanted : before.wanted = true) :
    (∃ fault, .failed key before.attempt fault ∈ before.events) ∨ .remount key ∈ rest := by
  rcases wishes.wanted unmounted wanted with failed | returning
  · exact .inl failed
  · rw [calls] at returning
    rcases List.mem_cons.mp returning with same | old
    · exact (aside same.symm).elim
    · exact .inr old

theorem Carried.wishes
    (calls : before.calls = call :: rest)
    (happened : Carried key call { before with calls := rest } after)
    (building : before.Building)
    (wishes : before.Wishes key) :
    after.Wishes key := by
  have unwanted := wishes.unwanted_rest calls
  have wanted := wishes.wanted_rest calls
  have failed {attempt : Nat} {fault : MountFault} (current : attempt = before.attempt) :
      (({ before with calls := rest } : Life).fail key attempt fault).Wishes key :=
    .of_unmounted rfl fun _ => .inl ⟨fault, current ▸ List.mem_cons_self⟩
  cases happened with
  | launchLate | launchWaits | arriveLate =>
      exact ⟨unwanted rfl, wanted (by simp)⟩
  | notice | launchLands | arriveModule | choose | equip | build =>
      refine ⟨?_, ?_⟩
      · intro mounted notWanted
        obtain ⟨call, old, heeds⟩ := unwanted rfl mounted notWanted
        exact ⟨call, by simp [push, old], heeds⟩
      · intro unmounted isWanted
        rcases wanted (by simp) unmounted isWanted with ⟨fault, failed⟩ | old
        · exact .inl ⟨fault, by simp [push, failed]⟩
        · exact .inr (by simp [push, old])
  | arriveFault _ attempt fault current =>
      exact failed current.2.symm
  | constructFault =>
      have same := (building.current _ (by rw [calls]; exact List.mem_cons_self) rfl).1
      exact failed (Option.some.inj same)
  | moveIn =>
      exact .of_mounted rfl fun _ => ⟨.settle key, by simp [push], rfl⟩
  | settleWanted _ isWanted =>
      refine ⟨?_, wanted (by simp)⟩
      intro _ notWanted
      cases isWanted.symm.trans notWanted
  | settleUnwanted _ notWanted =>
      refine ⟨fun _ _ => ⟨.teardown key, List.mem_cons_self, rfl⟩, ?_⟩
      intro _ isWanted
      cases isWanted.symm.trans notWanted
  | teardownLate _ vacant | dismantleLate _ vacant =>
      refine ⟨?_, wanted (by simp)⟩
      intro mounted
      exact (vacant mounted).elim
  | teardown _ mounted =>
      exact .of_mounted mounted fun _ => ⟨.dismantle key, by simp [push], rfl⟩
  | dismantle _ mounted =>
      exact .of_mounted mounted fun _ => ⟨.vacated key, List.mem_cons_self, rfl⟩
  | vacated =>
      exact .of_unmounted rfl fun _ => .inr (by simp [push])
  | remountLate _ late =>
      refine ⟨unwanted rfl, ?_⟩
      intro unmounted isWanted
      exact (late ⟨isWanted, unmounted⟩).elim
  | remount =>
      exact .of_busy (.inl rfl)
  | retireMounted _ mounted =>
      exact .of_mounted mounted fun _ => ⟨.teardown key, List.mem_cons_self, rfl⟩
  | retire _ vacant =>
      refine ⟨fun mounted => (vacant mounted).elim, ?_⟩
      intro _ isWanted
      cases isWanted
  | bury =>
      exact .of_busy (.inr rfl)

variable {allowed : Life → Call → Prop} {life : Life}

/-- The laws of attempts, of building and of wishes hold all along. -/
theorem Reached.laws (reached : Reached key allowed life) :
    life.Attempts ∧ life.Building ∧ life.Wishes key := by
  induction reached with
  | @begin life begins =>
      have carriers : life.carriers = 0 := by
        simp [Life.carriers, begins.imports, begins.calls]
      refine ⟨⟨?_, ?_, ?_⟩, .of_idle ?_, .of_unmounted begins.phase ?_⟩
      · simp [carriers]
      · simp [carriers]
      · intro mounting
        cases begins.phase.symm.trans mounting
      · simp [begins.calls]
      · intro wanted
        cases begins.wanted.symm.trans wanted
  | disturbed _ happened inductionHypothesis =>
      obtain ⟨attempts, building, wishes⟩ := inductionHypothesis
      exact ⟨happened.attempts attempts, happened.building building, happened.wishes wishes⟩
  | carried _ _ calls _ happened inductionHypothesis =>
      obtain ⟨attempts, building, wishes⟩ := inductionHypothesis
      exact ⟨happened.attempts calls attempts, happened.building calls attempts.once building,
        happened.wishes calls building wishes⟩

end Life

end Hydration
