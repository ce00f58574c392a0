import Hydration.Proofs.Life.Reached

/-!
# Attempts to mount

A binding that is mounting has one attempt that will carry it on: its import is
unfinished, or one of the calls under way goes on with it.  Attempts are
numbered, so that what is left of an older one can be told from it and is
discarded.

Two calls move a binding to a phase without looking at the phase it has by then:
the one that builds an instance, and the one that follows a destructor.  The law
of attempts holds all the same because nothing is being built further out than
either of them.
-/

namespace Hydration

namespace Life

/-- The attempts that something still carries on. -/
def carriers (life : Life) : Multiset Nat :=
  life.imports + (life.calls.filterMap Call.attempt? : List Nat)

/-- The attempts of a life are told apart, and the current one carries on a mount. -/
structure Attempts (life : Life) : Prop where
  /-- No attempt is carried on twice. -/
  once : life.carriers.Nodup
  /-- No attempt is carried on before it begins. -/
  begun : ∀ attempt ∈ life.carriers, attempt ≤ life.attempt
  /-- The current attempt of a mount is carried on. -/
  carried : life.phase = .mounting → life.attempt ∈ life.carriers

/-- An instance is built by the current attempt, and further in than what overrides a phase. -/
structure Building (life : Life) : Prop where
  current :
    ∀ call ∈ life.calls, call.builds →
      call.attempt? = some life.attempt ∧ (life.phase = .mounting ∨ life.phase = .destroyed)
  innermost :
    life.calls.Pairwise fun inner outer => inner.overrides → outer.builds = false

/-- Between two lives no attempt begins, or the next one does. -/
def Continues (before after : Life) : Prop :=
  (after.carriers ≤ before.carriers ∧ after.attempt = before.attempt) ∨
    (after.carriers ≤ (before.attempt + 1) ::ₘ before.carriers ∧
      after.attempt = before.attempt + 1)

variable {key : BindingId} {before after : Life} {call : Call} {rest : List Call}

/-- Attempts that were told apart are told apart when the next one begins. -/
theorem Continues.once_begun
    (continues : Continues before after)
    (once : before.carriers.Nodup)
    (begun : ∀ attempt ∈ before.carriers, attempt ≤ before.attempt) :
    after.carriers.Nodup ∧ ∀ attempt ∈ after.carriers, attempt ≤ after.attempt := by
  rcases continues with ⟨carriers, same⟩ | ⟨carriers, next⟩
  · refine ⟨Multiset.nodup_of_le carriers once, ?_⟩
    intro attempt member
    rw [same]
    exact begun attempt (Multiset.mem_of_le carriers member)
  · have unused : before.attempt + 1 ∉ before.carriers := by
      intro member
      exact Nat.not_succ_le_self _ (begun _ member)
    refine ⟨Multiset.nodup_of_le carriers (Multiset.nodup_cons.mpr ⟨unused, once⟩), ?_⟩
    intro attempt member
    rw [next]
    rcases Multiset.mem_cons.mp (Multiset.mem_of_le carriers member) with rfl | earlier
    · exact Nat.le_refl _
    · exact Nat.le_succ_of_le (begun attempt earlier)

theorem Disturbed.continues (happened : Disturbed key before after) :
    Continues before after := by
  cases happened with
  | attempt =>
      right
      simp [carriers, begin, Call.attempt?, List.filterMap_cons, ← Multiset.cons_coe,
        Multiset.add_cons]
  | land | aside | born | wish | forgo | revoke | doom | complain =>
      left
      simp [carriers, push, Call.attempt?, List.filterMap_cons, ← Multiset.cons_coe,
        Multiset.add_cons]

theorem Carried.continues
    (calls : before.calls = call :: rest)
    (happened : Carried key call { before with calls := rest } after) :
    Continues before after := by
  cases happened with
  | remount =>
      right
      simp [carriers, calls, begin, Call.attempt?, List.filterMap_cons, ← Multiset.cons_coe,
        Multiset.add_cons]
  | launchLate | arriveLate | arriveFault | constructFault | moveIn =>
      left
      simp [carriers, calls, push, fail, Call.attempt?, List.filterMap_cons,
        ← Multiset.cons_coe, Multiset.add_cons, Multiset.le_cons_self]
  | notice | launchWaits | launchLands | arriveModule | choose | equip | build | settleWanted
  | settleUnwanted | teardownLate | teardown | dismantleLate | dismantle | vacated
  | remountLate | retireMounted | retire | bury =>
      left
      simp [carriers, calls, push, Call.attempt?, List.filterMap_cons, ← Multiset.cons_coe,
        Multiset.add_cons]

theorem Disturbed.attempts
    (happened : Disturbed key before after)
    (attempts : before.Attempts) :
    after.Attempts := by
  obtain ⟨once, begun⟩ := happened.continues.once_begun attempts.once attempts.begun
  refine ⟨once, begun, ?_⟩
  intro mounting
  cases happened with
  | attempt =>
      simp [carriers, begin, Call.attempt?, List.filterMap_cons]
  | aside | born | wish | forgo =>
      exact attempts.carried mounting
  | land | revoke | doom | complain =>
      have member := attempts.carried mounting
      simpa [carriers, push, Call.attempt?, List.filterMap_cons, or_left_comm] using member

/-- Discarding what is left of an attempt that is over leaves the current one. -/
theorem Attempts.carried_of_late
    {late : Nat}
    (attempts : before.Attempts)
    (calls : before.calls = call :: rest)
    (carries : call.attempt? = some late)
    (isLate : ¬ before.Mounts late)
    (mounting : before.phase = .mounting) :
    before.attempt ∈ ({ before with calls := rest } : Life).carriers := by
  have member := attempts.carried mounting
  have different : before.attempt ≠ late := fun same => isLate ⟨mounting, same⟩
  simpa [carriers, calls, List.filterMap_cons, carries, different] using member

theorem Carried.attempts
    (calls : before.calls = call :: rest)
    (happened : Carried key call { before with calls := rest } after)
    (attempts : before.Attempts) :
    after.Attempts := by
  obtain ⟨once, begun⟩ :=
    (happened.continues calls).once_begun attempts.once attempts.begun
  refine ⟨once, begun, ?_⟩
  intro mounting
  cases happened with
  | launchLate _ attempt late | arriveLate _ attempt _ late =>
      exact attempts.carried_of_late calls rfl late mounting
  | remount =>
      simp [carriers, begin, Call.attempt?, List.filterMap_cons]
  | arriveFault | constructFault | moveIn | vacated | bury =>
      cases mounting
  | notice | launchWaits | launchLands | arriveModule | choose | equip | build | settleWanted
  | settleUnwanted | teardownLate | teardown | dismantleLate | dismantle | remountLate
  | retireMounted | retire =>
      have member := attempts.carried mounting
      simpa [carriers, calls, push, Call.attempt?, List.filterMap_cons, ← Multiset.cons_coe,
        Multiset.add_cons] using member

/-- Nothing is built while there is no import to build it from. -/
theorem Building.idle
    {life : Life}
    (building : life.Building)
    (settled : life.phase = .unmounted ∨ life.phase = .mounted) :
    ∀ call ∈ life.calls, call.builds = false := by
  intro call member
  by_contra builds
  rcases building.current call member (by simpa using builds) with ⟨_, mounting | destroyed⟩
  · rcases settled with phase | phase <;> simp [phase] at mounting
  · rcases settled with phase | phase <;> simp [phase] at destroyed

/-- Further out than the call that goes on with the current attempt nothing is built. -/
theorem Building.idle_rest
    (building : before.Building)
    (once : before.carriers.Nodup)
    (calls : before.calls = call :: rest)
    (foremost : call.overrides ∨ call.attempt? = some before.attempt) :
    ∀ outer ∈ rest, outer.builds = false := by
  intro outer member
  rcases foremost with overrides | current
  · have innermost := building.innermost
    rw [calls] at innermost
    exact (List.pairwise_cons.mp innermost).1 outer member overrides
  · by_contra builds
    have same : outer.attempt? = some before.attempt :=
      (building.current outer (by simp [calls, member]) (by simpa using builds)).1
    have twice : before.attempt ∈ rest.filterMap Call.attempt? :=
      List.mem_filterMap.mpr ⟨outer, member, same⟩
    have distinct := (Multiset.nodup_add.mp once).2.1
    rw [calls, List.filterMap_cons, current] at distinct
    exact (List.nodup_cons.mp distinct).1 twice

/-- Where nothing is built the law holds. -/
theorem Building.of_idle
    {life : Life}
    (idle : ∀ call ∈ life.calls, call.builds = false) :
    life.Building := by
  refine ⟨?_, ?_⟩
  · intro call member builds
    rw [idle call member] at builds
    cases builds
  · exact List.pairwise_of_forall_mem_list fun _ _ outer member _ => idle outer member

/-- Calls that neither build nor override may come before others. -/
theorem Building.keep
    {kept : List Call}
    (building : before.Building)
    (added : List Call)
    (calls : after.calls = added ++ kept)
    (old : kept.Sublist before.calls)
    (harmless : ∀ call ∈ added, call.builds = false ∧ call.overrides = false)
    (attempt : after.attempt = before.attempt)
    (phase : after.phase = before.phase ∨ after.phase = .destroyed) :
    after.Building := by
  refine ⟨?_, ?_⟩
  · intro call member builds
    rw [calls] at member
    rcases List.mem_append.mp member with new | kept
    · rw [(harmless call new).1] at builds
      cases builds
    · obtain ⟨same, under⟩ := building.current call (old.subset kept) builds
      rw [attempt]
      refine ⟨same, ?_⟩
      rcases phase with phase | destroyed
      · rwa [phase]
      · exact .inr destroyed
  · rw [calls, List.pairwise_append]
    refine ⟨?_, building.innermost.sublist old, ?_⟩
    · exact List.pairwise_of_forall_mem_list fun _ _ outer member _ => (harmless outer member).1
    · intro inner member outer _ overrides
      rw [(harmless inner member).2] at overrides
      cases overrides

/-- The current attempt may build where nothing is being built. -/
theorem Building.of_construct
    {life : Life}
    {attempt : Nat}
    {stage : Stage}
    (calls : life.calls = .construct key attempt stage :: rest)
    (idle : ∀ call ∈ rest, call.builds = false)
    (current : attempt = life.attempt)
    (under : life.phase = .mounting ∨ life.phase = .destroyed) :
    life.Building := by
  refine ⟨?_, ?_⟩
  · intro call member builds
    rw [calls] at member
    rcases List.mem_cons.mp member with rfl | old
    · exact ⟨congrArg some current, under⟩
    · rw [idle call old] at builds
      cases builds
  · rw [calls, List.pairwise_cons]
    refine ⟨fun outer member _ => idle outer member, ?_⟩
    exact List.pairwise_of_forall_mem_list fun _ _ outer member _ => idle outer member

theorem Disturbed.building
    (happened : Disturbed key before after)
    (building : before.Building) :
    after.Building := by
  cases happened with
  | attempt _ _ unmounted =>
      apply Building.of_idle
      simpa [begin, Call.builds] using building.idle (.inl unmounted)
  | aside | born | wish | forgo =>
      exact building.keep [] rfl (List.Sublist.refl _) (by simp) rfl (.inl rfl)
  | land _ attempt outcome =>
      exact building.keep _ rfl (List.Sublist.refl _) (by simp [Call.builds, Call.overrides]) rfl
        (.inl rfl)
  | revoke | doom | complain =>
      exact building.keep _ rfl (List.Sublist.refl _) (by simp [Call.builds, Call.overrides]) rfl
        (.inl rfl)

theorem Carried.building
    (calls : before.calls = call :: rest)
    (happened : Carried key call { before with calls := rest } after)
    (once : before.carriers.Nodup)
    (building : before.Building) :
    after.Building := by
  have taken : rest.Sublist before.calls := by
    rw [calls]
    exact List.sublist_cons_self _ _
  have kept (added : List Call) {life : Life}
      (shape : life.calls = added ++ rest)
      (harmless : ∀ call ∈ added, call.builds = false ∧ call.overrides = false)
      (attempt : life.attempt = before.attempt)
      (phase : life.phase = before.phase ∨ life.phase = .destroyed) : life.Building :=
    building.keep added shape taken harmless attempt phase
  have foremost := building.idle_rest once calls
  cases happened with
  | notice | launchLate | launchWaits | arriveLate | settleWanted | teardownLate
  | dismantleLate | remountLate =>
      exact kept [] rfl (by simp) rfl (.inl rfl)
  | launchLands | settleUnwanted | teardown | retireMounted | retire =>
      exact kept _ rfl (by simp [Call.builds, Call.overrides]) rfl (.inl rfl)
  | bury =>
      exact kept _ rfl (by simp [Call.builds, Call.overrides]) rfl (.inr rfl)
  | arriveFault _ attempt fault current =>
      apply Building.of_idle
      simpa [fail, Call.builds] using foremost (.inr (congrArg some current.2.symm))
  | constructFault | moveIn | vacated =>
      apply Building.of_idle
      simpa [fail, push, Call.builds] using foremost (.inl rfl)
  | remount _ _ unmounted =>
      apply Building.of_idle
      simpa [begin, Call.builds] using
        fun call member => building.idle (.inl unmounted) call (taken.subset member)
  | dismantle _ mounted =>
      apply Building.of_idle
      simpa [push, Call.builds] using
        fun call member => building.idle (.inr mounted) call (taken.subset member)
  | arriveModule _ attempt module current =>
      exact .of_construct rfl (foremost (.inr (congrArg some current.2.symm)))
        current.2.symm (.inl current.1)
  | choose | equip | build =>
      obtain ⟨same, under⟩ := building.current _ (by rw [calls]; exact List.mem_cons_self) rfl
      exact .of_construct rfl (foremost (.inl rfl)) (Option.some.inj same) under

end Life

end Hydration
