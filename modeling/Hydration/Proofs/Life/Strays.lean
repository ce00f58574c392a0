import Hydration.Proofs.Life.Instances

/-!
# Stray instances

A binding strands an instance when it is moved to a phase without an instance
while one is in place.  Nobody takes the instance down after that: its number
stays alive for good.  A binding that strands none has hold of every instance
that lives.
-/

namespace Hydration

namespace Life

/-- Whether carrying on a call leaves an instance behind without taking it down. -/
def Strands (key : BindingId) (life : Life) (call : Call) : Prop :=
  (call = .vacated key ∨ call = .bury key) ∧ life.occupant ≠ none

/-- Every instance that lives is in hold, and there is one in place only while mounted. -/
structure Kept (key : BindingId) (life : Life) : Prop where
  held :
    ∀ number ∈ liveInstances key life.events,
      ∃ occupant, life.Holds occupant ∧ occupant.built.number = number
  mounted : ∀ occupant, life.occupant = some occupant → life.phase = .mounted

/-- An instance that will not be taken down any more. -/
structure Stray (key : BindingId) (number : Nat) (life : Life) : Prop where
  told : ∃ removable, .constructed key number removable ∈ life.events
  untouched : ∀ name, .destructing key number name ∉ life.events
  /-- It is not about to move in. -/
  apart : ∀ occupant ∈ life.fitted, occupant.built.number ≠ number
  /-- If it is in place, the binding does not know. -/
  hidden :
    ∀ occupant, life.occupant = some occupant → occupant.built.number = number →
      life.phase ≠ .mounted

variable {key : BindingId} {before after : Life} {call : Call} {rest : List Call}

/-- What concerns no instance makes none alive and none dead. -/
theorem liveInstances_quiet
    {added events : List Event}
    {number : Nat}
    (quiet : ∀ event ∈ added, event.concernsInstance = false)
    (member : number ∈ liveInstances key (added ++ events)) :
    number ∈ liveInstances key events := by
  obtain ⟨built, untouched⟩ := mem_liveInstances.mp member
  refine mem_liveInstances.mpr ⟨?_, ?_⟩
  · rcases List.mem_append.mp built with new | old
    · cases quiet _ new
    · exact old
  · intro name old
    exact untouched name (List.mem_append_right _ old)

/-- A binding keeps its instances while none moves in or out and its phase stays. -/
theorem Kept.keep
    {added : List Event}
    (kept : before.Kept key)
    (events : after.events = added ++ before.events)
    (quiet : ∀ event ∈ added, event.concernsInstance = false)
    (holds : ∀ occupant, before.Holds occupant → after.Holds occupant)
    (mounted : ∀ occupant, after.occupant = some occupant → after.phase = .mounted) :
    after.Kept key := by
  refine ⟨?_, mounted⟩
  intro number member
  rw [events] at member
  obtain ⟨occupant, held, same⟩ := kept.held number (liveInstances_quiet quiet member)
  exact ⟨occupant, holds occupant held, same⟩

/-- Without calls being taken off, what is about to move in still is. -/
theorem Holds.mono
    {occupant : Occupant}
    (held : before.Holds occupant)
    (inPlace : after.occupant = before.occupant)
    (calls : before.calls ⊆ after.calls) :
    after.Holds occupant := by
  rcases held with here | moving
  · exact .inl (inPlace.trans here)
  · obtain ⟨binding, attempt, member⟩ := mem_fitted.mp moving
    exact .inr (mem_fitted.mpr ⟨binding, attempt, calls member⟩)

theorem Disturbed.kept
    (happened : Disturbed key before after)
    (kept : before.Kept key) :
    after.Kept key := by
  have holds (inPlace : after.occupant = before.occupant) (occupant : Occupant)
      (held : before.Holds occupant) : after.Holds occupant :=
    held.mono inPlace happened.calls_subset
  cases happened with
  | aside | born | wish | forgo | revoke | doom | complain | land =>
      exact kept.keep (List.nil_append _).symm (by simp) (holds rfl) kept.mounted
  | attempt _ _ unmounted =>
      refine kept.keep (List.nil_append _).symm (by simp) (holds rfl) ?_
      intro occupant inPlace
      cases unmounted.symm.trans (kept.mounted occupant inPlace)

/-- Taking off a call that brings no instance leaves hold of all of them. -/
theorem Holds.of_unfit
    {occupant : Occupant}
    (held : before.Holds occupant)
    (calls : before.calls = call :: rest)
    (unfit : call.fitted? = none) :
    Holds { before with calls := rest } occupant := by
  rcases held with here | moving
  · exact .inl here
  · rw [fitted, calls, List.filterMap_cons, unfit] at moving
    exact .inr moving

/-- A new instance is in hold from the moment it is built. -/
theorem Kept.build
    {occupant : Occupant}
    (kept : before.Kept key)
    (numbered : occupant.built.number = before.instances)
    (events :
      after.events =
        .constructed key before.instances occupant.isRemovable :: before.events)
    (holds : ∀ other, before.Holds other → after.Holds other)
    (moving : occupant ∈ after.fitted)
    (mounted : ∀ occupant, after.occupant = some occupant → after.phase = .mounted) :
    after.Kept key := by
  refine ⟨?_, mounted⟩
  intro number member
  obtain ⟨built, untouched⟩ := mem_liveInstances.mp member
  rw [events] at built untouched
  rcases List.mem_cons.mp built with same | old
  · obtain ⟨_, rfl, _⟩ := Event.constructed.inj same
    exact ⟨occupant, .inr moving, numbered⟩
  · have live : number ∈ liveInstances key before.events :=
      mem_liveInstances.mpr
        ⟨old, fun name earlier => untouched name (List.mem_cons_of_mem _ earlier)⟩
    obtain ⟨other, held, same⟩ := kept.held number live
    exact ⟨other, holds other held, same⟩

/-- An instance that moves into an empty place is in hold as before. -/
theorem Kept.moveIn
    {attempt : Nat}
    {occupant : Occupant}
    (kept : before.Kept key)
    (calls : before.calls = .construct key attempt (.fitting occupant) :: rest)
    (vacant : ∀ other, before.occupant ≠ some other)
    (events : after.events = before.events)
    (inPlace : after.occupant = some occupant)
    (outer : after.fitted = rest.filterMap Call.fitted?)
    (mounted : after.phase = .mounted) :
    after.Kept key := by
  refine ⟨?_, fun _ _ => mounted⟩
  intro number member
  rw [events] at member
  obtain ⟨other, held, same⟩ := kept.held number member
  refine ⟨other, ?_, same⟩
  rcases held with here | moving
  · exact (vacant other here).elim
  · rw [fitted, calls] at moving
    rcases List.mem_cons.mp moving with rfl | outside
    · exact .inl inPlace
    · right
      rwa [outer]

/-- Once the instance in place has been taken out, with its destructor run, none lives. -/
theorem Kept.dismantle
    (kept : before.Kept key)
    (housing : before.Housing key)
    (empty : ∀ occupant, occupant ∉ before.fitted)
    (events : after.events = before.removal key ++ before.events)
    (vacated : after.occupant = none) :
    after.Kept key := by
  refine ⟨?_, ?_⟩
  · intro number member
    rw [events] at member
    obtain ⟨built, untouched⟩ := mem_liveInstances.mp member
    have built : .constructed key number true ∈ before.events := by
      rcases List.mem_append.mp built with new | old
      · obtain ⟨_, _, _, _, same⟩ := mem_removal.mp new
        cases same
      · exact old
    have live : number ∈ liveInstances key before.events :=
      mem_liveInstances.mpr
        ⟨built, fun name earlier => untouched name (List.mem_append_right _ earlier)⟩
    obtain ⟨occupant, held, rfl⟩ := kept.held number live
    -- It was in place, so that its destructor has just been run.
    rcases held with inPlace | moving
    · have removable : true = occupant.isRemovable :=
        housing.agreed _ _ _ built (housing.told occupant (.inl inPlace))
      obtain ⟨destructor, carried⟩ := Option.isSome_iff_exists.mp removable.symm
      have run : .destructing key occupant.built.number destructor.name ∈ before.removal key :=
        mem_removal.mpr ⟨occupant, destructor, inPlace, carried, rfl⟩
      exact (untouched _ (List.mem_append_left _ run)).elim
    · exact (empty occupant moving).elim
  · intro occupant inPlace
    cases vacated.symm.trans inPlace

theorem Carried.kept
    (calls : before.calls = call :: rest)
    (happened : Carried key call { before with calls := rest } after)
    (careful : ¬ before.Strands key call)
    (building : before.Building)
    (housing : before.Housing key)
    (kept : before.Kept key) :
    after.Kept key := by
  have holds
      (inPlace : after.occupant = before.occupant)
      (unfit : call.fitted? = none)
      (occupant : Occupant)
      (held : before.Holds occupant) : after.Holds occupant :=
    (held.of_unfit calls unfit).mono inPlace happened.calls_subset
  have elsewhere
      (phase : before.phase ≠ .mounted) (occupant : Occupant) :
      before.occupant ≠ some occupant := by
    intro inPlace
    exact phase (kept.mounted occupant inPlace)
  -- While an instance is built there is none in place.
  have vacant (builds : call.builds) : ∀ occupant, before.occupant ≠ some occupant := by
    apply elsewhere
    intro mounted
    have idle := building.idle (.inr mounted) call (by rw [calls]; exact List.mem_cons_self)
    cases idle.symm.trans builds
  cases happened with
  | launchLate | launchWaits | launchLands | arriveLate | arriveModule | settleWanted
  | settleUnwanted | teardownLate | teardown | dismantleLate | remountLate | retireMounted
  | retire =>
      exact kept.keep (List.nil_append _).symm (by simp) (holds rfl rfl) kept.mounted
  | notice | equip =>
      refine kept.keep (List.singleton_append).symm ?_ (holds rfl rfl) kept.mounted
      simp [Event.concernsInstance]
  | choose _ attempt module chosen asked onlyArguments =>
      refine kept.keep rfl ?_ (holds rfl rfl) kept.mounted
      intro event member
      rw [onlyArguments event member]
      rfl
  | arriveFault _ attempt fault current =>
      refine kept.keep (List.singleton_append).symm ?_ (holds rfl rfl) ?_
      · simp [Event.concernsInstance]
      · intro occupant inPlace
        have away : before.phase ≠ .mounted := by
          rw [current.1]
          simp
        exact (elsewhere away occupant inPlace).elim
  | constructFault _ attempt stage fault early =>
      refine kept.keep (List.singleton_append).symm ?_ (holds rfl ?_) ?_
      · simp [Event.concernsInstance]
      · cases stage with
        | fitting occupant => exact (early occupant rfl).elim
        | choosing | equipping | building => rfl
      · intro occupant inPlace
        exact (vacant rfl occupant inPlace).elim
  | vacated | bury =>
      have empty : before.occupant = none := by
        by_contra inPlace
        exact careful ⟨by simp, inPlace⟩
      refine kept.keep (List.nil_append _).symm (by simp) (holds rfl rfl) ?_
      intro occupant inPlace
      cases empty.symm.trans inPlace
  | remount _ _ unmounted =>
      refine kept.keep (List.nil_append _).symm (by simp) (holds rfl rfl) ?_
      intro occupant inPlace
      cases unmounted.symm.trans (kept.mounted occupant inPlace)
  | build _ attempt chosen occupant numbered =>
      exact kept.build numbered rfl (holds rfl rfl) List.mem_cons_self kept.mounted
  | moveIn _ attempt occupant =>
      exact kept.moveIn calls (vacant rfl) rfl rfl rfl rfl
  | dismantle _ mounted =>
      exact kept.dismantle housing
        (fun occupant => not_mem_fitted_of_idle (building.idle (.inr mounted)) occupant) rfl rfl

theorem Disturbed.stray
    {number : Nat}
    (happened : Disturbed key before after)
    (stray : before.Stray key number) :
    after.Stray key number := by
  obtain ⟨told, untouched, apart, hidden⟩ := stray
  cases happened with
  | aside | born | wish | forgo =>
      exact ⟨told, untouched, apart, hidden⟩
  | revoke | doom | complain | land =>
      refine ⟨told, untouched, ?_, hidden⟩
      simpa [fitted, push, Call.fitted?, List.filterMap_cons] using apart
  | attempt =>
      refine ⟨told, untouched, ?_, ?_⟩
      · simpa [fitted, begin, Call.fitted?, List.filterMap_cons] using apart
      · intro _ _ _ mounted
        cases mounted

theorem Carried.stray
    {number : Nat}
    (calls : before.calls = call :: rest)
    (happened : Carried key call { before with calls := rest } after)
    (housing : before.Housing key)
    (stray : before.Stray key number) :
    after.Stray key number := by
  obtain ⟨⟨removable, told⟩, untouched, apart, hidden⟩ := stray
  have outer : ∀ occupant ∈ rest.filterMap Call.fitted?, occupant.built.number ≠ number := by
    intro occupant moving
    obtain ⟨call, member, fits⟩ := List.mem_filterMap.mp moving
    apply apart occupant
    rw [fitted, calls]
    exact List.mem_filterMap.mpr ⟨call, List.mem_cons_of_mem _ member, fits⟩
  cases happened with
  | launchLate | launchWaits | launchLands | arriveLate | arriveModule | settleWanted
  | settleUnwanted | teardownLate | teardown | dismantleLate | remountLate | retireMounted
  | retire =>
      exact ⟨⟨removable, told⟩, untouched, outer, hidden⟩
  | notice | equip =>
      refine ⟨⟨removable, List.mem_cons_of_mem _ told⟩, ?_, outer, hidden⟩
      simpa [push] using untouched
  | choose _ attempt module chosen asked onlyArguments =>
      refine ⟨⟨removable, List.mem_append_right _ told⟩, ?_, outer, hidden⟩
      intro name member
      rcases List.mem_append.mp member with new | old
      · cases onlyArguments _ new
      · exact untouched name old
  | arriveFault | constructFault =>
      refine ⟨⟨removable, List.mem_cons_of_mem _ told⟩, ?_, outer, ?_⟩
      · simpa [fail] using untouched
      · intro _ _ _ mounted
        cases mounted
  | vacated | bury | remount =>
      refine ⟨⟨removable, told⟩, untouched, outer, ?_⟩
      intro _ _ _ mounted
      cases mounted
  | build _ attempt chosen occupant numbered =>
      have earlier := housing.numbered number removable told
      refine ⟨⟨removable, List.mem_cons_of_mem _ told⟩, ?_, ?_, hidden⟩
      · simpa [push] using untouched
      · intro other moving
        rcases List.mem_cons.mp moving with rfl | old
        · rw [numbered]
          exact (Nat.ne_of_lt earlier).symm
        · exact outer other old
  | moveIn _ attempt occupant =>
      refine ⟨⟨removable, told⟩, untouched, outer, ?_⟩
      intro other inPlace same
      cases inPlace
      have moving : occupant ∈ before.fitted :=
        mem_fitted.mpr ⟨key, attempt, by rw [calls]; exact List.mem_cons_self⟩
      exact (apart occupant moving same).elim
  | dismantle _ mounted =>
      refine ⟨⟨removable, List.mem_append_right _ told⟩, ?_, outer, ?_⟩
      · intro name member
        rcases List.mem_append.mp member with new | old
        · obtain ⟨occupant, _, inPlace, _, same⟩ := mem_removal.mp new
          obtain ⟨_, number, _⟩ := Event.destructing.inj same
          exact hidden occupant inPlace number.symm mounted
        · exact untouched name old
      · intro occupant inPlace
        cases inPlace

/-- The instance that a binding strands is a stray from then on. -/
theorem Carried.stray_of_strands
    (calls : before.calls = call :: rest)
    (happened : Carried key call { before with calls := rest } after)
    (strands : before.Strands key call)
    (building : before.Building)
    (housing : before.Housing key)
    (kept : before.Kept key) :
    ∃ number, after.Stray key number := by
  obtain ⟨closing, inPlace⟩ := strands
  obtain ⟨occupant, inPlace⟩ := Option.ne_none_iff_exists'.mp inPlace
  have idle := building.idle (.inr (kept.mounted occupant inPlace))
  have told := housing.told occupant (.inl inPlace)
  have untouched := housing.untouched occupant (.inl inPlace)
  have empty (other : Occupant) : other ∉ rest.filterMap Call.fitted? := by
    intro moving
    apply not_mem_fitted_of_idle idle other
    rw [fitted, calls]
    obtain ⟨call, member, fits⟩ := List.mem_filterMap.mp moving
    exact List.mem_filterMap.mpr ⟨call, List.mem_cons_of_mem _ member, fits⟩
  refine ⟨occupant.built.number, ?_⟩
  rcases closing with rfl | rfl
  · cases happened
    refine ⟨⟨_, told⟩, untouched, fun other moving => (empty other moving).elim, ?_⟩
    intro _ _ _ mounted
    cases mounted
  · cases happened
    refine ⟨⟨_, told⟩, untouched, fun other moving => (empty other moving).elim, ?_⟩
    intro _ _ _ mounted
    cases mounted

variable {allowed : Life → Call → Prop} {life : Life}

theorem Reached.housing (reached : Reached key allowed life) : life.Housing key := by
  induction reached with
  | begin begins =>
      refine ⟨?_, ?_, ?_, ?_, ?_, ?_, ?_⟩ <;>
        simp [begins.events, begins.phase, Holds, fitted, begins.calls, begins.occupant]
  | disturbed _ happened inductionHypothesis =>
      exact happened.housing inductionHypothesis
  | carried earlier _ calls _ happened inductionHypothesis =>
      exact happened.housing calls earlier.laws.2.1 inductionHypothesis

/-- A binding that strands no instance keeps them all. -/
theorem Reached.kept
    (reached : Reached key (fun life call => ¬ life.Strands key call) life) :
    life.Kept key := by
  induction reached with
  | begin begins =>
      refine ⟨?_, ?_⟩
      · simp [begins.events, liveInstances]
      · simp [begins.occupant]
  | disturbed _ happened inductionHypothesis =>
      exact happened.kept inductionHypothesis
  | carried earlier _ calls careful happened inductionHypothesis =>
      exact happened.kept calls careful earlier.laws.2.1 earlier.housing inductionHypothesis

end Life

end Hydration
