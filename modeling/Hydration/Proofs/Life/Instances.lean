import Hydration.Proofs.Life.Wishes

/-!
# The instances of one binding

Instances are numbered over the whole page, and the history tells which of them
carry a destructor and whose destructor was run.  Every instance that a binding
has hold of, in place or about to move in, still lives.  The other way round
holds until the binding loses one: a teardown or the end of the binding comes to
its close while an instance is in place that has moved in meanwhile.
-/

namespace Hydration

/-- The instance that has been built for a binding, if an event tells of one with a destructor. -/
def Event.built? (key : BindingId) : Event → Option Nat
  | .constructed binding number true => if binding = key then some number else none
  | _ => none

/-- Whether an event is the run of the destructor of an instance of a binding. -/
def Event.removes (key : BindingId) (number : Nat) : Event → Bool
  | .destructing binding removed _ => binding = key && removed = number
  | _ => false

/-- The instances of a binding that carry a destructor which was not run, newest first. -/
def liveInstances (key : BindingId) (events : List Event) : List Nat :=
  (events.filterMap (Event.built? key)).filter fun number =>
    !events.any (Event.removes key number)

/-- Whether an event builds or removes an instance. -/
def Event.concernsInstance : Event → Bool
  | .constructed _ _ _ | .destructing _ _ _ => true
  | _ => false

/-- The instance that a call is about to move in. -/
def Call.fitted? : Call → Option Occupant
  | construct _ _ (.fitting occupant) => some occupant
  | _ => none

theorem mem_built {key : BindingId} {events : List Event} {number : Nat} :
    number ∈ events.filterMap (Event.built? key) ↔ .constructed key number true ∈ events := by
  rw [List.mem_filterMap]
  constructor
  · rintro ⟨event, member, told⟩
    unfold Event.built? at told
    split at told
    · split at told
      · next same =>
          subst same
          cases told
          exact member
      · cases told
    · cases told
  · intro member
    exact ⟨_, member, by simp [Event.built?]⟩

theorem any_removes {key : BindingId} {events : List Event} {number : Nat} :
    events.any (Event.removes key number) = false ↔
      ∀ name, .destructing key number name ∉ events := by
  rw [List.any_eq_false]
  constructor
  · intro none name member
    exact none _ member (by simp [Event.removes])
  · intro none event member removes
    unfold Event.removes at removes
    split at removes
    · simp only [Bool.and_eq_true, decide_eq_true_eq] at removes
      obtain ⟨rfl, rfl⟩ := removes
      exact none _ member
    · cases removes

theorem mem_liveInstances {key : BindingId} {events : List Event} {number : Nat} :
    number ∈ liveInstances key events ↔
      .constructed key number true ∈ events ∧
        ∀ name, .destructing key number name ∉ events := by
  rw [liveInstances, List.mem_filter, mem_built, ← any_removes, Bool.not_eq_true']

namespace Life

/-- The instances about to move in. -/
def fitted (life : Life) : List Occupant :=
  life.calls.filterMap Call.fitted?

/-- The instances that a binding has hold of. -/
def Holds (life : Life) (occupant : Occupant) : Prop :=
  life.occupant = some occupant ∨ occupant ∈ life.fitted

/-- What the history and the binding know of instances is in keeping. -/
structure Housing (key : BindingId) (life : Life) : Prop where
  /-- No number is given twice. -/
  once : (life.events.filterMap (Event.built? key)).Nodup
  agreed :
    ∀ number removable other, .constructed key number removable ∈ life.events →
      .constructed key number other ∈ life.events → removable = other
  numbered :
    ∀ number removable, .constructed key number removable ∈ life.events →
      number < life.instances
  taken :
    ∀ number name, .destructing key number name ∈ life.events → number < life.instances
  told :
    ∀ occupant, life.Holds occupant →
      .constructed key occupant.built.number occupant.isRemovable ∈ life.events
  /-- The destructor of an instance in hold was not run. -/
  untouched :
    ∀ occupant, life.Holds occupant →
      ∀ name, .destructing key occupant.built.number name ∉ life.events
  /-- A binding without an instance is mounted only while its last instance leaves. -/
  vacant : life.phase = .mounted → life.occupant = none → .vacated key ∈ life.calls

variable {key : BindingId} {before after : Life} {call : Call} {rest : List Call}

/-- Events that neither build nor remove an instance change no account of instances. -/
theorem Housing.keep
    {added : List Event}
    (housing : before.Housing key)
    (events : after.events = added ++ before.events)
    (quiet : ∀ event ∈ added, event.concernsInstance = false)
    (instances : before.instances ≤ after.instances)
    (holds : ∀ occupant, after.Holds occupant → before.Holds occupant)
    (vacant : after.phase = .mounted → after.occupant = none → .vacated key ∈ after.calls) :
    after.Housing key := by
  have old {event : Event}
      (concerns : event.concernsInstance = true)
      (member : event ∈ after.events) : event ∈ before.events := by
    rw [events] at member
    rcases List.mem_append.mp member with new | old
    · cases (quiet event new).symm.trans concerns
    · exact old
  have kept {event : Event} (member : event ∈ before.events) : event ∈ after.events :=
    events ▸ List.mem_append_right added member
  have none : added.filterMap (Event.built? key) = [] := by
    rw [List.filterMap_eq_nil_iff]
    intro event member
    have quiet := quiet event member
    cases event <;> first | rfl | cases quiet
  refine ⟨?_, ?_, ?_, ?_, ?_, ?_, vacant⟩
  · rw [events, List.filterMap_append, none]
    exact housing.once
  · intro number removable other first second
    exact housing.agreed number removable other (old rfl first) (old rfl second)
  · intro number removable member
    exact Nat.lt_of_lt_of_le (housing.numbered number removable (old rfl member)) instances
  · intro number name member
    exact Nat.lt_of_lt_of_le (housing.taken number name (old rfl member)) instances
  · intro occupant held
    exact kept (housing.told occupant (holds occupant held))
  · intro occupant held name member
    exact housing.untouched occupant (holds occupant held) name (old rfl member)

theorem Disturbed.housing
    (happened : Disturbed key before after)
    (housing : before.Housing key) :
    after.Housing key := by
  have vacant (phase : after.phase = .mounted → before.phase = .mounted)
      (occupant : after.occupant = before.occupant) :
      after.phase = .mounted → after.occupant = none → .vacated key ∈ after.calls := by
    intro mounted empty
    exact happened.calls_subset (housing.vacant (phase mounted) (occupant ▸ empty))
  cases happened with
  | aside _ _ grown =>
      exact housing.keep (List.nil_append _).symm (by simp) grown (fun _ => id) (vacant id rfl)
  | born | wish | forgo =>
      exact housing.keep (List.nil_append _).symm (by simp) (Nat.le_refl _) (fun _ => id)
        (vacant id rfl)
  | attempt =>
      refine housing.keep (List.nil_append _).symm (by simp) (Nat.le_refl _) ?_ ?_
      · simp [Holds, fitted, begin, Call.fitted?, List.filterMap_cons]
      · intro mounted
        cases mounted
  | revoke | doom | complain | land =>
      refine housing.keep (List.nil_append _).symm (by simp) (Nat.le_refl _) ?_ (vacant id rfl)
      simp [Holds, fitted, push, Call.fitted?, List.filterMap_cons]

theorem mem_fitted {life : Life} {occupant : Occupant} :
    occupant ∈ life.fitted ↔
      ∃ binding attempt, .construct binding attempt (.fitting occupant) ∈ life.calls := by
  rw [fitted, List.mem_filterMap]
  constructor
  · rintro ⟨call, member, fits⟩
    unfold Call.fitted? at fits
    split at fits
    · cases fits
      exact ⟨_, _, member⟩
    · cases fits
  · rintro ⟨binding, attempt, member⟩
    exact ⟨_, member, rfl⟩

/-- Nothing is about to move in where nothing is built. -/
theorem not_mem_fitted_of_idle
    {life : Life}
    (idle : ∀ call ∈ life.calls, call.builds = false)
    (occupant : Occupant) :
    occupant ∉ life.fitted := by
  intro member
  obtain ⟨binding, attempt, under⟩ := mem_fitted.mp member
  cases idle _ under

/-- Only the instance in place is taken down, and only if it carries a destructor. -/
theorem mem_removal {life : Life} {event : Event} :
    event ∈ life.removal key ↔
      ∃ occupant destructor,
        life.occupant = some occupant ∧ occupant.destructor = some destructor ∧
          event = .destructing key occupant.built.number destructor.name := by
  unfold removal
  split
  · next empty => simp [empty]
  · next occupant inPlace =>
      split
      · next lasting => simp [inPlace, lasting]
      · next destructor removable => simp [inPlace, removable]

/-- A new instance is about to move in. -/
theorem Housing.build
    {attempt : Nat}
    {chosen : ConstructorId}
    {occupant : Occupant}
    (calls : before.calls = .construct key attempt (.building chosen) :: rest)
    (housing : before.Housing key)
    (numbered : occupant.built.number = before.instances) :
    Housing key
      { before with
        instances := before.instances + 1
        events :=
          .constructed key before.instances occupant.isRemovable :: before.events
        calls := .construct key attempt (.fitting occupant) :: rest } := by
  have unused (removable : Bool) :
      .constructed key before.instances removable ∉ before.events := by
    intro member
    exact Nat.lt_irrefl _ (housing.numbered _ _ member)
  have holds {other : Occupant}
      (held : Holds
        { before with calls := .construct key attempt (.fitting occupant) :: rest } other) :
      other = occupant ∨ before.Holds other := by
    rcases held with inPlace | fits
    · exact .inr (.inl inPlace)
    · rw [fitted, List.filterMap_cons] at fits
      rcases List.mem_cons.mp fits with same | old
      · exact .inl same
      · right
        right
        rw [fitted, calls]
        exact old
  refine ⟨?_, ?_, ?_, ?_, ?_, ?_, ?_⟩
  · cases removable : occupant.isRemovable with
    | false => exact housing.once
    | true =>
        rw [List.filterMap_cons]
        simp only [Event.built?, if_true, List.nodup_cons]
        exact ⟨fun member => unused true (mem_built.mp member), housing.once⟩
  · intro number removable other first second
    rcases List.mem_cons.mp first with same | first
    · cases same
      rcases List.mem_cons.mp second with same | second
      · cases same
        rfl
      · exact (unused other second).elim
    · rcases List.mem_cons.mp second with same | second
      · cases same
        exact (unused removable first).elim
      · exact housing.agreed number removable other first second
  · intro number removable member
    rcases List.mem_cons.mp member with same | old
    · cases same
      exact Nat.lt_succ_self _
    · exact Nat.lt_succ_of_lt (housing.numbered number removable old)
  · intro number name member
    rcases List.mem_cons.mp member with same | old
    · cases same
    · exact Nat.lt_succ_of_lt (housing.taken number name old)
  · intro other held
    rcases holds held with rfl | old
    · rw [numbered]
      exact List.mem_cons_self
    · exact List.mem_cons_of_mem _ (housing.told other old)
  · intro other held name member
    rcases List.mem_cons.mp member with same | old
    · cases same
    · rcases holds held with rfl | earlier
      · rw [numbered] at old
        exact Nat.lt_irrefl _ (housing.taken _ _ old)
      · exact housing.untouched other earlier name old
  · intro mounted empty
    have vacated := housing.vacant mounted empty
    rw [calls] at vacated
    rcases List.mem_cons.mp vacated with same | old
    · cases same
    · exact List.mem_cons_of_mem _ old

/-- The instance in place is taken out, and its destructor is run if it has one. -/
theorem Housing.dismantle
    (housing : before.Housing key)
    (empty : ∀ occupant, occupant ∉ before.fitted)
    (outer : rest ⊆ before.calls) :
    Housing key
      { before with
        occupant := none
        events := before.removal key ++ before.events
        calls := .vacated key :: rest } := by
  have vacant (occupant : Occupant) :
      ¬ Holds { before with occupant := none, calls := .vacated key :: rest } occupant := by
    rintro (inPlace | moving)
    · cases inPlace
    · obtain ⟨binding, attempt, member⟩ := mem_fitted.mp moving
      rcases List.mem_cons.mp member with same | old
      · cases same
      · exact empty occupant (mem_fitted.mpr ⟨binding, attempt, outer old⟩)
  have built {number : Nat} {removable : Bool}
      (member :
        .constructed key number removable ∈ before.removal key ++ before.events) :
      .constructed key number removable ∈ before.events := by
    rcases List.mem_append.mp member with new | old
    · obtain ⟨_, _, _, _, same⟩ := mem_removal.mp new
      cases same
    · exact old
  refine ⟨?_, ?_, ?_, ?_, fun occupant held => (vacant occupant held).elim,
    fun occupant held => (vacant occupant held).elim, fun _ _ => List.mem_cons_self⟩
  · have none : (before.removal key).filterMap (Event.built? key) = [] := by
      rw [List.filterMap_eq_nil_iff]
      intro event member
      obtain ⟨_, _, _, _, rfl⟩ := mem_removal.mp member
      rfl
    rw [List.filterMap_append, none]
    exact housing.once
  · intro number removable other first second
    exact housing.agreed number removable other (built first) (built second)
  · intro number removable member
    exact housing.numbered number removable (built member)
  · intro number name member
    rcases List.mem_append.mp member with new | old
    · obtain ⟨occupant, _, inPlace, _, same⟩ := mem_removal.mp new
      cases same
      exact housing.numbered _ _ (housing.told occupant (.inl inPlace))
    · exact housing.taken number name old

theorem Carried.housing
    (calls : before.calls = call :: rest)
    (happened : Carried key call { before with calls := rest } after)
    (building : before.Building)
    (housing : before.Housing key) :
    after.Housing key := by
  have outer : rest ⊆ before.calls := by
    rw [calls]
    exact List.subset_cons_self _ _
  -- The call that is carried on is not the one that the binding is mounted for.
  have vacant
      (other : call ≠ .vacated key)
      (phase : after.phase = .mounted → before.phase = .mounted)
      (occupant : after.occupant = before.occupant) :
      after.phase = .mounted → after.occupant = none → .vacated key ∈ after.calls := by
    intro mounted empty
    have member := housing.vacant (phase mounted) (occupant ▸ empty)
    rw [calls] at member
    rcases List.mem_cons.mp member with same | old
    · exact (other same.symm).elim
    · exact happened.calls_subset old
  have fewer {life : Life}
      (occupant : life.occupant = before.occupant)
      (calls : life.fitted = rest.filterMap Call.fitted?) (held : Occupant) :
      life.Holds held → before.Holds held := by
    rintro (inPlace | moving)
    · exact .inl (occupant ▸ inPlace)
    · right
      rw [calls] at moving
      obtain ⟨call, member, fits⟩ := List.mem_filterMap.mp moving
      exact List.mem_filterMap.mpr ⟨call, outer member, fits⟩
  cases happened with
  | launchLate | launchWaits | launchLands | arriveLate | arriveModule | settleWanted
  | settleUnwanted | teardownLate | teardown | dismantleLate | remountLate | retireMounted
  | retire =>
      exact housing.keep (List.nil_append _).symm (by simp) (Nat.le_refl _) (fewer rfl rfl)
        (vacant (by simp) id rfl)
  | notice | equip =>
      refine housing.keep (List.singleton_append).symm ?_ (Nat.le_refl _) (fewer rfl rfl)
        (vacant (by simp) id rfl)
      simp [Event.concernsInstance]
  | choose _ attempt module chosen asked onlyArguments =>
      refine housing.keep rfl ?_ (Nat.le_refl _) (fewer rfl rfl) (vacant (by simp) id rfl)
      intro event member
      rw [onlyArguments event member]
      rfl
  | arriveFault | constructFault =>
      refine housing.keep (List.singleton_append).symm ?_ (Nat.le_refl _) (fewer rfl rfl) ?_
      · simp [Event.concernsInstance]
      · intro mounted
        cases mounted
  | vacated | bury | remount =>
      refine housing.keep (List.nil_append _).symm (by simp) (Nat.le_refl _) (fewer rfl rfl) ?_
      intro mounted
      cases mounted
  | build _ attempt chosen occupant numbered =>
      exact housing.build calls numbered
  | moveIn _ attempt occupant =>
      refine housing.keep (List.nil_append _).symm (by simp) (Nat.le_refl _) ?_ ?_
      · rintro held (same | moving)
        · cases same
          exact .inr (mem_fitted.mpr ⟨key, attempt, by rw [calls]; exact List.mem_cons_self⟩)
        · obtain ⟨binding, attempt, member⟩ := mem_fitted.mp moving
          have member : .construct binding attempt (.fitting held) ∈ rest := by
            simpa [push] using member
          exact .inr (mem_fitted.mpr ⟨binding, attempt, outer member⟩)
      · intro _ empty
        cases empty
  | dismantle _ mounted =>
      exact housing.dismantle
        (fun occupant => not_mem_fitted_of_idle (building.idle (.inr mounted)) occupant) outer

end Life

end Hydration
