import Hydration.Proofs.Life.Wishes
import Hydration.Proofs.Passive.Hearing

/-!
# Attempts that a binding makes when it is told to mount

A binding that is told that its context holds, and that has no instance, makes
one attempt to mount.  If the attempt fails at once the binding has no instance
again, and it makes another attempt when it is told once more; it makes none as
long as an attempt waits for its import or has led to an instance.
-/

namespace Hydration

/-- Whether an event is the notice that an attempt to mount a binding is about to be made. -/
def Event.announces (key : BindingId) : Event → Bool
  | noticed binding .willMount _ _ _ _ => binding = key
  | _ => false

/-- Whether a call gives the notice that an attempt is about to be made. -/
def Call.announces : Call → Bool
  | notice _ .willMount _ => true
  | _ => false

/-- How many attempts to mount a binding were announced so far. -/
def Page.announced (page : Page) (key : BindingId) : Nat :=
  page.history.countP (Event.announces key)

namespace Life

def announced (key : BindingId) (life : Life) : Nat :=
  life.events.countP (Event.announces key)

variable
  {key : BindingId} {start before after : Life} {call : Call} {rest : List Call}

/--
An attempt of a binding that was at rest is under way or over.  It is the next
one, and the only one that is announced; the binding has no instance and waits
for none exactly if the attempt has failed.
-/
structure Trying (key : BindingId) (life start : Life) : Prop where
  wanted : life.wanted = true
  attempt : life.attempt = start.attempt + 1
  announced :
    life.announced key + life.calls.countP Call.announces = start.announced key + 1
  gentle : .retire key ∉ life.calls
  current :
    ∀ call ∈ life.calls, ∀ number, call.attempt? = some number → number = start.attempt + 1
  living : life.phase ≠ .destroyed
  failed :
    life.phase = .unmounted ↔ ∃ fault, .failed key (start.attempt + 1) fault ∈ life.events
  bounded :
    ∀ number fault, .failed key number fault ∈ life.events → number ≤ start.attempt + 1
  kept : start.events ⊆ life.events

/-- An attempt begins. -/
theorem Trying.begin
    (idle : start.calls = [])
    (bounded : ∀ number fault, .failed key number fault ∈ start.events → number ≤ start.attempt) :
    (start.begin key).Trying key start := by
  refine ⟨rfl, rfl, ?_, ?_, ?_, by simp [Life.begin], ?_, ?_, List.Subset.refl _⟩
  · simp [Life.begin, idle, Life.announced, List.countP_cons, Call.announces]
  · simp [Life.begin, idle]
  · intro call member number carries
    simp only [Life.begin, idle, List.mem_cons, List.not_mem_nil, or_false] at member
    rcases member with rfl | rfl
    · cases carries
    · exact (Option.some.inj carries).symm
  · constructor
    · intro unmounted
      cases unmounted
    · rintro ⟨fault, member⟩
      exact absurd (bounded _ fault member) (by omega)
  · intro number fault member
    exact Nat.le_succ_of_le (bounded number fault member)

/-- A call that announces nothing goes on with the attempt, or ends it in a fault. -/
theorem Trying.onward
    (trying : before.Trying key start)
    (added : List Call)
    (events : List Event)
    (calls : before.calls = call :: rest)
    (silent : call.announces = false)
    (wanted : after.wanted = before.wanted)
    (attempt : after.attempt = before.attempt)
    (callsAfter : after.calls = added ++ rest)
    (mild :
      ∀ call ∈ added, call.announces = false ∧ call ≠ .retire key ∧
        ∀ number, call.attempt? = some number → number = start.attempt + 1)
    (eventsAfter : after.events = events ++ before.events)
    (unannounced : ∀ event ∈ events, event.announces key = false)
    (living : after.phase ≠ .destroyed)
    (failed :
      after.phase = .unmounted ↔
        before.phase = .unmounted ∨
          ∃ fault, .failed key (start.attempt + 1) fault ∈ events)
    (bounded : ∀ number fault, .failed key number fault ∈ events → number = start.attempt + 1) :
    after.Trying key start := by
  have old {call : Call} (member : call ∈ rest) : call ∈ before.calls := by
    rw [calls]
    exact List.mem_cons_of_mem _ member
  refine ⟨wanted.trans trying.wanted, attempt.trans trying.attempt, ?_, ?_, ?_, living, ?_, ?_, ?_⟩
  · have told := trying.announced
    have addedSilent : added.countP Call.announces = 0 :=
      List.countP_eq_zero.mpr fun call member => by simp [(mild call member).1]
    have eventsSilent : events.countP (Event.announces key) = 0 :=
      List.countP_eq_zero.mpr fun event member => by simp [unannounced event member]
    rw [calls, List.countP_cons, silent] at told
    rw [Life.announced, eventsAfter, callsAfter, List.countP_append, List.countP_append,
      addedSilent, eventsSilent]
    simpa [Life.announced] using told
  · rw [callsAfter]
    intro member
    rcases List.mem_append.mp member with new | outer
    · exact (mild _ new).2.1 rfl
    · exact trying.gentle (old outer)
  · rw [callsAfter]
    intro call member
    exact (List.mem_append.mp member).elim (fun new => (mild call new).2.2)
      fun outer => trying.current call (old outer)
  · rw [failed, trying.failed, eventsAfter]
    simp only [List.mem_append, exists_or]
    exact or_comm
  · rw [eventsAfter]
    intro number fault member
    exact (List.mem_append.mp member).elim (fun new => Nat.le_of_eq (bounded number fault new))
      (trying.bounded number fault)
  · rw [eventsAfter]
    exact fun event member => List.mem_append_right events (trying.kept member)

/-- A call that leaves the binding in its phase goes on with the attempt. -/
theorem Trying.abide
    (trying : before.Trying key start)
    (added : List Call)
    (events : List Event)
    (calls : before.calls = call :: rest)
    (silent : call.announces = false)
    (phase : after.phase = before.phase)
    (wanted : after.wanted = before.wanted)
    (attempt : after.attempt = before.attempt)
    (callsAfter : after.calls = added ++ rest)
    (mild :
      ∀ call ∈ added, call.announces = false ∧ call ≠ .retire key ∧
        ∀ number, call.attempt? = some number → number = start.attempt + 1)
    (eventsAfter : after.events = events ++ before.events)
    (quiet :
      ∀ event ∈ events, event.announces key = false ∧
        ∀ number fault, event ≠ .failed key number fault) :
    after.Trying key start := by
  have unfailed {number : Nat} {fault : MountFault}
      (member : .failed key number fault ∈ events) : False :=
    (quiet _ member).2 number fault rfl
  refine trying.onward added events calls silent wanted attempt callsAfter mild eventsAfter
    (fun event member => (quiet event member).1) (by rw [phase]; exact trying.living) ?_ ?_
  · rw [phase]
    exact ⟨.inl, fun either => either.resolve_right fun ⟨_, member⟩ => unfailed member⟩
  · exact fun _ _ member => (unfailed member).elim

/-- An attempt ends in a fault. -/
theorem Trying.fail
    {fault : MountFault}
    (trying : before.Trying key start)
    (calls : before.calls = call :: rest)
    (silent : call.announces = false) :
    (({ before with calls := rest } : Life).fail key (start.attempt + 1) fault).Trying key
      start := by
  refine trying.onward
    [.notice key .mountError (some fault), .notice key .onMountError (some fault)]
    [.failed key (start.attempt + 1) fault] calls silent rfl rfl rfl ?_ rfl ?_ ?_ ?_ ?_
  · simp [Call.announces, Call.attempt?]
  · simp [Event.announces]
  · simp [Life.fail]
  · simp [Life.fail]
  · intro number other member
    cases List.mem_singleton.mp member
    rfl

/-- A notice belongs to the attempt whether it announces it or not. -/
theorem Trying.noticed
    {notice : Notice}
    {fault : Option MountFault}
    (trying : before.Trying key start)
    (calls : before.calls = .notice key notice fault :: rest)
    (heard : Bool) :
    ({ before with
        calls := rest
        events :=
          .noticed key notice before.phase before.wanted fault heard :: before.events } :
      Life).Trying key start := by
  have old {call : Call} (member : call ∈ rest) : call ∈ before.calls := by
    rw [calls]
    exact List.mem_cons_of_mem _ member
  refine ⟨trying.wanted, trying.attempt, ?_, fun member => trying.gentle (old member),
    fun call member => trying.current call (old member), trying.living, ?_, ?_, ?_⟩
  · have told := trying.announced
    have same :
        (Event.noticed key notice before.phase before.wanted fault heard).announces key =
          (Call.notice key notice fault).announces := by
      cases notice <;> simp [Event.announces, Call.announces]
    rw [calls, List.countP_cons, Life.announced] at told
    rw [Life.announced, List.countP_cons, same]
    dsimp only
    omega
  · simpa using trying.failed
  · simpa using trying.bounded
  · exact fun event member => List.mem_cons_of_mem _ (trying.kept member)

/-- The attempt goes on with every call of the binding. -/
theorem Carried.trying
    (calls : before.calls = call :: rest)
    (happened : Carried key call { before with calls := rest } after)
    (planned : before.Planned key)
    (trying : before.Trying key start) :
    after.Trying key start := by
  have unleft (leaves : call.leaves) : False := by
    cases (planned.unwanted_of_leaves calls leaves).symm.trans trying.wanted
  have mine : ∀ number, call.attempt? = some number → number = start.attempt + 1 :=
    trying.current call (by rw [calls]; exact List.mem_cons_self)
  -- The call that takes the place of this one carries on the same attempt.
  have heir {next : Call}
      (silent : next.announces = false)
      (other : next ≠ .retire key)
      (same : next.attempt? = call.attempt?) :
      ∀ call ∈ [next], call.announces = false ∧ call ≠ .retire key ∧
        ∀ number, call.attempt? = some number → number = start.attempt + 1 := by
    intro call member
    rw [List.mem_singleton.mp member, same]
    exact ⟨silent, other, mine⟩
  cases happened with
  | notice _ _ _ heard => exact trying.noticed calls heard
  | launchLate | launchWaits | arriveLate | settleWanted =>
      exact trying.abide [] [] calls rfl rfl rfl rfl rfl (by simp) rfl (by simp)
  | launchLands _ number _ outcome =>
      exact trying.abide [.arrive key number outcome] [] calls rfl rfl rfl rfl rfl
        (heir rfl (by simp) rfl) rfl (by simp)
  | arriveModule _ number module =>
      exact trying.abide [.construct key number (.choosing module)] [] calls rfl rfl rfl rfl rfl
        (heir rfl (by simp) rfl) rfl (by simp)
  | choose _ number _ chosen asked onlyArguments =>
      refine trying.abide [.construct key number (.equipping chosen)] asked calls rfl rfl rfl rfl
        rfl (heir rfl (by simp) rfl) rfl ?_
      intro event member
      rw [onlyArguments event member]
      exact ⟨rfl, by simp⟩
  | equip _ number chosen name arguments =>
      exact trying.abide [.construct key number (.building chosen)]
        [.constructing key name arguments] calls rfl rfl rfl rfl rfl (heir rfl (by simp) rfl) rfl
        (by simp [Event.announces])
  | build _ number _ occupant =>
      exact trying.abide [.construct key number (.fitting occupant)]
        [.constructed key before.instances occupant.isRemovable] calls rfl rfl rfl rfl rfl
        (heir rfl (by simp) rfl) rfl (by simp [Event.announces])
  | arriveFault _ number fault =>
      obtain rfl := mine number rfl
      exact trying.fail calls rfl
  | constructFault _ number _ fault =>
      obtain rfl := mine number rfl
      exact trying.fail calls rfl
  | moveIn =>
      have mounting := planned.mounting_of_construct calls
      refine trying.onward
        [.notice key .didMount none, .notice key .onMount none, .settle key] [] calls rfl rfl rfl
        rfl ?_ rfl (by simp) ?_ ?_ (by simp)
      · simp [Call.announces, Call.attempt?]
      · simp [push]
      · simp [push, mounting]
  | settleUnwanted _ unwanted => cases unwanted.symm.trans trying.wanted
  | retire | retireMounted =>
      exact (trying.gentle (by rw [calls]; exact List.mem_cons_self)).elim
  | teardownLate | teardown | dismantleLate | dismantle | vacated | remountLate | remount | bury =>
      exact (unleft rfl).elim

/-- An attempt goes on until the binding comes to rest. -/
theorem Settles.trying
    (settles : before.Settles key after)
    (planned : before.Planned key)
    (trying : before.Trying key start) :
    after.Trying key start := by
  induction settles with
  | done => exact trying
  | carried calls happened _ inductionHypothesis =>
      exact inductionHypothesis (happened.planned calls planned)
        (happened.trying calls planned trying)

/-- Only attempts that have begun have failed. -/
def Recorded (key : BindingId) (life : Life) : Prop :=
  ∀ number fault, .failed key number fault ∈ life.events → number ≤ life.attempt

theorem Disturbed.recorded
    (happened : Disturbed key before after)
    (recorded : before.Recorded key) :
    after.Recorded key := by
  cases happened with
  | attempt => exact fun number fault member => Nat.le_succ_of_le (recorded number fault member)
  | aside | born | wish | forgo | revoke | doom | complain | land => exact recorded

theorem Carried.recorded
    (calls : before.calls = call :: rest)
    (happened : Carried key call { before with calls := rest } after)
    (attempts : before.Attempts)
    (recorded : before.Recorded key) :
    after.Recorded key := by
  have mine {number : Nat} (carries : call.attempt? = some number) : number ≤ before.attempt := by
    refine attempts.begun number (Multiset.mem_add.mpr (.inr ?_))
    rw [calls, List.filterMap_cons, carries]
    exact List.mem_cons_self
  have unfailed (events : List Event)
      (quiet : ∀ number fault, .failed key number fault ∉ events) :
      ∀ number fault, .failed key number fault ∈ events ++ before.events →
        number ≤ before.attempt := by
    intro number fault member
    exact recorded number fault ((List.mem_append.mp member).resolve_left (quiet number fault))
  cases happened with
  | notice => exact unfailed [_] (by simp)
  | equip => exact unfailed [_] (by simp)
  | build => exact unfailed [_] (by simp)
  | choose _ _ _ _ asked onlyArguments =>
      refine unfailed asked fun number fault member => ?_
      cases onlyArguments _ member
  | dismantle =>
      refine unfailed (removal key { before with calls := rest }) ?_
      intro number fault
      unfold removal
      split
      · simp
      · split <;> simp
  | arriveFault _ _ fault | constructFault _ _ _ fault =>
      intro number other member
      rcases List.mem_cons.mp member with new | old
      · cases new
        exact mine rfl
      · exact recorded number other old
  | remount => exact fun number fault member => Nat.le_succ_of_le (recorded number fault member)
  | launchLate | launchWaits | launchLands | arriveLate | arriveModule | moveIn | settleWanted
  | settleUnwanted | teardownLate | teardown | dismantleLate | vacated | remountLate
  | retireMounted | retire | bury => exact recorded

theorem Reached.recorded
    {allowed : Life → Call → Prop}
    {life : Life}
    (reached : Reached key allowed life) :
    life.Recorded key := by
  induction reached with
  | begin begins =>
      intro number fault member
      rw [begins.events] at member
      cases member
  | disturbed _ happened inductionHypothesis => exact happened.recorded inductionHypothesis
  | carried earlier _ calls _ happened inductionHypothesis =>
      exact happened.recorded calls earlier.laws.1 inductionHypothesis

/--
A binding at rest that has made a number of attempts since an earlier moment: all
but the last have failed.  If the last has not failed it waits or has led to an
instance.
-/
structure Tried (key : BindingId) (tries : Nat) (before after : Life) : Prop where
  idle : after.calls = []
  attempt : after.attempt = before.attempt + tries
  announced : after.announced key = before.announced key + tries
  recorded : after.Recorded key
  earlier :
    ∀ number, before.attempt < number → number < after.attempt →
      ∃ fault, .failed key number fault ∈ after.events
  vacant :
    after.phase = .unmounted → 0 < tries → ∃ fault, .failed key after.attempt fault ∈ after.events
  busy :
    after.phase ≠ .unmounted →
      0 < tries ∧ after.wanted = true ∧ after.phase ≠ .destroyed ∧
        ∀ fault, .failed key after.attempt fault ∉ after.events

theorem Tried.none
    (idle : before.calls = [])
    (recorded : before.Recorded key)
    (unmounted : before.phase = .unmounted) :
    before.Tried key 0 before :=
  ⟨idle, rfl, rfl, recorded, fun _ above below => absurd above (by omega),
    fun _ tried => absurd tried (by omega), fun busy => (busy unmounted).elim⟩

/-- One more attempt is made by a binding that has no instance. -/
theorem Tried.more
    {tries : Nat}
    {middle : Life}
    (tried : before.Tried key tries middle)
    (unmounted : middle.phase = .unmounted)
    (planned : middle.Planned key)
    (present : middle.present)
    (settles : (middle.told key true).Settles key after) :
    before.Tried key (tries + 1) after := by
  have begun : middle.told key true = middle.begin key := by
    simp [told, unmounted]
  have plan : (middle.told key true).Planned key :=
    (disturbed_told present true).planned tried.idle planned
  rw [begun] at settles plan
  have trying := settles.trying plan (.begin tried.idle tried.recorded)
  have number := trying.attempt
  have since := tried.attempt
  have announced := trying.announced
  have earlier := tried.announced
  rw [settles.idle, List.countP_nil] at announced
  refine ⟨settles.idle, by omega, by omega, ?_, ?_, ?_, ?_⟩
  · intro other fault member
    rw [number]
    exact trying.bounded other fault member
  · intro other above below
    by_cases last : other = middle.attempt
    · subst last
      obtain ⟨fault, member⟩ := tried.vacant unmounted (by omega)
      exact ⟨fault, trying.kept member⟩
    · obtain ⟨fault, member⟩ := tried.earlier other above (by omega)
      exact ⟨fault, trying.kept member⟩
  · intro vacant _
    rw [number]
    exact trying.failed.mp vacant
  · intro busy
    refine ⟨by omega, trying.wanted, trying.living, ?_⟩
    rw [number]
    exact fun fault member => busy (trying.failed.mpr ⟨fault, member⟩)

/-- While an attempt waits or has led to an instance the binding makes no other. -/
theorem told_of_wanted
    {life : Life}
    (wanted : life.wanted = true)
    (busy : life.phase ≠ .unmounted) :
    life.told key true = life := by
  have same : ({ life with wanted := true } : Life) = life := by
    rw [← wanted]
  unfold told
  split
  · rfl
  · exact same
  · next unmounted => exact (busy unmounted).elim
  · exact same

/--
A binding without an instance that is told a number of times that its context
holds makes at least one attempt, and as many as it is told unless one of them
does not fail at once.
-/
theorem Heard.tried
    {times : Nat}
    (heard : before.Heard key true times after)
    (idle : before.calls = [])
    (recorded : before.Recorded key)
    (unmounted : before.phase = .unmounted)
    (planned : before.Planned key) :
    ∃ tries, before.Tried key tries after ∧ tries ≤ times ∧ (0 < times → 0 < tries) ∧
      (after.phase = .unmounted → tries = times) := by
  induction heard with
  | never life =>
      exact ⟨0, .none idle recorded unmounted, Nat.le_refl _, id, fun _ => rfl⟩
  | aside instances _ inductionHypothesis =>
      obtain ⟨tries, tried, least, some, most⟩ :=
        inductionHypothesis idle recorded unmounted planned
      exact ⟨tries, ⟨tried.idle, tried.attempt, tried.announced, tried.recorded, tried.earlier,
        tried.vacant, tried.busy⟩, least, some, most⟩
  | @again times before middle after earlier present _ settles inductionHypothesis =>
      obtain ⟨tries, tried, least, some, most⟩ :=
        inductionHypothesis idle recorded unmounted planned
      by_cases vacant : middle.phase = .unmounted
      · have more := tried.more vacant (earlier.planned planned) present settles
        have all := most vacant
        exact ⟨tries + 1, more, by omega, fun _ => by omega, fun _ => by omega⟩
      · obtain ⟨positive, wanted, _, _⟩ := tried.busy vacant
        rw [told_of_wanted wanted vacant] at settles
        obtain rfl := settles.eq_of_idle tried.idle
        exact ⟨tries, tried, by omega, fun _ => positive, fun now => (vacant now).elim⟩

/--
A binding without an instance that is told a number of times that its context
holds announces at least one attempt, and at most one for each time.  It is one
alone exactly if it is told once, or the first attempt does not fail.
-/
theorem Heard.announced
    {times : Nat}
    (heard : before.Heard key true times after)
    (idle : before.calls = [])
    (recorded : before.Recorded key)
    (unmounted : before.phase = .unmounted)
    (planned : before.Planned key)
    (often : 0 < times) :
    before.announced key < after.announced key ∧
      after.announced key ≤ before.announced key + times ∧
      (after.announced key = before.announced key + 1 ↔
        times = 1 ∨ ∀ fault, .failed key (before.attempt + 1) fault ∉ after.events) := by
  obtain ⟨tries, tried, most, some, all⟩ := heard.tried idle recorded unmounted planned
  have announced := tried.announced
  have number := tried.attempt
  have positive := some often
  refine ⟨by omega, by omega, ?_⟩
  constructor
  · intro once
    obtain rfl : tries = 1 := by omega
    by_cases vacant : after.phase = .unmounted
    · exact .inl (all vacant).symm
    · obtain ⟨_, _, _, lasting⟩ := tried.busy vacant
      rw [number] at lasting
      exact .inr lasting
  · intro reason
    have atMost : ¬ 1 < tries := by
      intro more
      rcases reason with once | lasting
      · omega
      · obtain ⟨fault, member⟩ := tried.earlier (before.attempt + 1) (by omega) (by omega)
        exact lasting fault member
    omega

end Life

end Hydration
