import Hydration.Proofs.Terminal

/-!
# The end of a binding as it is noticed

An end is announced three times: before the binding is unmounted, after it is
destroyed, and to the callback of the binding.  The last of these is the last
word on the binding, unless the end was asked for while a call was under way
that has something to tell whatever the phase is by then.
-/

namespace Hydration

/-- Whether a notice announces the end of a binding. -/
def Notice.isEnding : Notice → Bool
  | willDestroy | didDestroy | onDestroy => true
  | _ => false

/-- Whether a call goes on to tell or to run something even if its binding is destroyed by then. -/
def Call.persists : Call → Bool
  | notice _ _ _ | construct _ _ _ | vacated _ | retire _ | bury _ => true
  | _ => false

/-- Whether a call is a notice, or leads to it in any case. -/
def Call.owes (sought : Notice) : Call → Bool
  | notice _ given _ => given = sought
  | retire _ | bury _ => sought = .didDestroy ∨ sought = .onDestroy
  | _ => false

/-- Whether a call is the last word on its binding. -/
def Call.isLastWord : Call → Bool
  | notice _ given _ => given = .onDestroy
  | _ => false

/-- Whether an event is a notice of a binding. -/
def Event.tells (key : BindingId) (sought : Notice) : Event → Bool
  | noticed binding given _ _ _ _ => binding = key ∧ given = sought
  | _ => false

/-- Whether a call has to do with the announcements of an end. -/
def Call.isEnding : Call → Bool
  | notice _ given _ => given.isEnding
  | retire _ | bury _ => true
  | _ => false

/-- Whether an event announces an end. -/
def Event.isEnding : Event → Bool
  | noticed _ given _ _ _ _ => given.isEnding
  | _ => false

theorem Call.persists_of_owes
    {call : Call}
    {noticed : Notice}
    (owes : call.owes noticed) :
    call.persists := by
  cases call with
  | notice | retire | bury => rfl
  | _ => cases owes

theorem Call.owes_of_not_isEnding
    {call : Call}
    {noticed : Notice}
    (apart : call.isEnding = false)
    (ending : noticed.isEnding) :
    call.owes noticed = false := by
  cases call with
  | notice binding given fault =>
      refine decide_eq_false fun same => ?_
      rw [isEnding, same, ending] at apart
      cases apart
  | retire | bury => cases apart
  | _ => rfl

theorem Event.tells_of_not_isEnding
    {event : Event}
    {noticed : Notice}
    (key : BindingId)
    (apart : event.isEnding = false)
    (ending : noticed.isEnding) :
    event.tells key noticed = false := by
  cases event with
  | noticed binding given =>
      refine decide_eq_false fun same => ?_
      rw [isEnding, same.2, ending] at apart
      cases apart
  | _ => rfl

theorem Call.isEnding_of_isLastWord {call : Call} (last : call.isLastWord) : call.isEnding := by
  cases call with
  | notice binding given fault =>
      rw [isEnding, of_decide_eq_true last]
      rfl
  | _ => cases last

theorem Call.persists_of_overrides {call : Call} (overrides : call.overrides) :
    call.persists := by
  cases call with
  | construct | vacated => rfl
  | _ => cases overrides

namespace Life

variable
  {key : BindingId} {life before after : Life} {call : Call} {rest : List Call}
  {noticed : Notice}

/-- How often a notice was given or will be given in any case. -/
def tally (key : BindingId) (noticed : Notice) (life : Life) : Nat :=
  life.events.countP (Event.tells key noticed) + life.calls.countP (Call.owes noticed)

/-- Nothing comes after the last word on a binding, and what comes before it owes it only once. -/
structure Orderly (key : BindingId) (life : Life) : Prop where
  last : life.events.Pairwise fun _ older => older.tells key .onDestroy = false
  quiet : (∃ event ∈ life.events, event.tells key .onDestroy) →
    ∀ call ∈ life.calls, call.persists = false
  ordered : life.calls.Pairwise fun upper lower =>
    upper.owes .onDestroy → lower.persists = false

/-- What carrying on a call leaves on the stack and records. -/
structure Leaves
    (key : BindingId)
    (call : Call)
    (phase : Phase)
    (added : List Call)
    (events : List Event) : Prop where
  /-- What the call owes is told or still owed. -/
  owed : ∀ noticed : Notice, noticed.isEnding →
    events.countP (Event.tells key noticed) + added.countP (Call.owes noticed) =
      if call.owes noticed then 1 else 0
  /-- A call that persists has told something or has left another that persists. -/
  lasting : call.persists → events ≠ [] ∨ ∃ left ∈ added, left.persists
  /-- Any other call does nothing to a destroyed binding. -/
  silent : call.persists = false → phase = .destroyed →
    events = [] ∧ ∀ left ∈ added, left.persists = false
  /-- The last word is told alone. -/
  alone : (∃ event ∈ events, event.tells key .onDestroy) → events.length = 1 ∧ added = []
  ordered : added.Pairwise fun upper lower => upper.owes .onDestroy → lower.persists = false
  /-- The last word is given by a call that is it, and left by one that ends the binding. -/
  final :
    (∃ event ∈ events, event.tells key .onDestroy) ∨ (∃ left ∈ added, left.isLastWord) →
      call.isLastWord ∨ call = .bury key

private theorem isEnding_onDestroy : Notice.onDestroy.isEnding := rfl

/-- A call owes the last word as long as it is told or left to be told. -/
theorem Leaves.owes_iff
    {phase : Phase}
    {added : List Call}
    {events : List Event}
    (leaves : Leaves key call phase added events) :
    call.owes .onDestroy ↔
      (∃ event ∈ events, event.tells key .onDestroy) ∨ ∃ left ∈ added, left.owes .onDestroy := by
  have owed := leaves.owed .onDestroy rfl
  rw [← List.countP_pos_iff, ← List.countP_pos_iff]
  split at owed
  · next owes => exact ⟨fun _ => by omega, fun _ => owes⟩
  · next free => exact ⟨fun owes => (free owes).elim, fun left => by omega⟩

/-- Calls that have nothing to do with the announcements of an end. -/
theorem Leaves.of_apart
    {phase : Phase}
    {added : List Call}
    {events : List Event}
    (apart : call.isEnding = false)
    (addedApart : ∀ left ∈ added, left.isEnding = false)
    (eventsApart : ∀ event ∈ events, event.isEnding = false)
    (lasting : call.persists → events ≠ [] ∨ ∃ left ∈ added, left.persists)
    (silent : call.persists = false → phase = .destroyed →
      events = [] ∧ ∀ left ∈ added, left.persists = false) :
    Leaves key call phase added events where
  owed := by
    intro noticed ending
    have untold : events.countP (Event.tells key noticed) = 0 :=
      List.countP_eq_zero.mpr fun event member => by
        simp [Event.tells_of_not_isEnding key (eventsApart event member) ending]
    have unowed : added.countP (Call.owes noticed) = 0 :=
      List.countP_eq_zero.mpr fun left member => by
        simp [Call.owes_of_not_isEnding (addedApart left member) ending]
    rw [untold, unowed, Call.owes_of_not_isEnding apart ending]
    rfl
  lasting := lasting
  silent := silent
  alone := by
    rintro ⟨event, member, told⟩
    rw [Event.tells_of_not_isEnding key (eventsApart event member) isEnding_onDestroy] at told
    cases told
  ordered := by
    refine List.pairwise_of_forall_mem_list fun upper member _ _ owes => ?_
    rw [Call.owes_of_not_isEnding (addedApart upper member) isEnding_onDestroy] at owes
    cases owes
  final := by
    rintro (⟨event, member, told⟩ | ⟨left, member, last⟩)
    · rw [Event.tells_of_not_isEnding key (eventsApart event member) isEnding_onDestroy] at told
      cases told
    · cases (addedApart left member).symm.trans (Call.isEnding_of_isLastWord last)

theorem removal_isEnding (event : Event) (member : event ∈ life.removal key) :
    event.isEnding = false := by
  unfold removal at member
  split at member
  · cases member
  · split at member
    · cases member
    · rw [List.mem_singleton.mp member]
      rfl

private theorem Carried.leaves_before (happened : Carried key call before after) :
    ∃ added events,
      after.calls = added ++ before.calls ∧ after.events = events ++ before.events ∧
        Leaves key call before.phase added events := by
  cases happened with
  | notice noticed fault heard =>
      refine ⟨[], [_], rfl, rfl, ?_⟩
      constructor <;> simp [Event.tells, Call.owes, Call.persists, Call.isLastWord]
  | launchLate | launchWaits | arriveLate | settleWanted | teardownLate | dismantleLate
  | remountLate =>
      refine ⟨[], [], rfl, rfl, .of_apart rfl ?_ ?_ ?_ ?_⟩ <;> simp [Call.persists]
  | launchLands _ _ current | arriveModule _ _ _ current =>
      refine ⟨[_], [], rfl, rfl, .of_apart rfl ?_ ?_ ?_ ?_⟩ <;>
        simp [Call.isEnding, Call.persists, current.1]
  | arriveFault _ _ _ current =>
      refine ⟨[_, _], [_], rfl, rfl, .of_apart rfl ?_ ?_ ?_ ?_⟩ <;>
        simp [Call.isEnding, Notice.isEnding, Event.isEnding, Call.persists, current.1]
  | constructFault =>
      refine ⟨[_, _], [_], rfl, rfl, .of_apart rfl ?_ ?_ ?_ ?_⟩ <;>
        simp [Call.isEnding, Notice.isEnding, Event.isEnding, Call.persists]
  | choose _ _ _ _ asked onlyArguments =>
      refine ⟨[_], asked, rfl, rfl, .of_apart rfl ?_ ?_ ?_ ?_⟩
      case refine_2 =>
        intro event member
        rw [onlyArguments event member]
        rfl
      all_goals simp [Call.isEnding, Call.persists]
  | equip | build =>
      refine ⟨[_], [_], rfl, rfl, .of_apart rfl ?_ ?_ ?_ ?_⟩ <;>
        simp [Call.isEnding, Event.isEnding, Call.persists]
  | moveIn | vacated =>
      refine ⟨[_, _, _], [], rfl, rfl, .of_apart rfl ?_ ?_ ?_ ?_⟩ <;>
        simp [Call.isEnding, Notice.isEnding, Call.persists]
  | settleUnwanted =>
      refine ⟨[_], [], rfl, rfl, .of_apart rfl ?_ ?_ ?_ ?_⟩ <;>
        simp [Call.isEnding, Call.persists]
  | teardown _ mounted =>
      refine ⟨[_, _], [], rfl, rfl, .of_apart rfl ?_ ?_ ?_ ?_⟩ <;>
        simp [Call.isEnding, Notice.isEnding, Call.persists, mounted]
  | dismantle _ mounted =>
      refine ⟨[_], _, rfl, rfl, .of_apart rfl ?_ removal_isEnding ?_ ?_⟩ <;>
        simp [Call.isEnding, Call.persists, mounted]
  | remount _ _ unmounted =>
      refine ⟨[_, _], [], rfl, rfl, .of_apart rfl ?_ ?_ ?_ ?_⟩ <;>
        simp [Call.isEnding, Notice.isEnding, Call.persists, unmounted]
  | retireMounted =>
      refine ⟨[_, _], [], rfl, rfl, ?_⟩
      constructor <;> simp [Call.owes, Call.persists, Call.isLastWord]
  | retire =>
      refine ⟨[_], [], rfl, rfl, ?_⟩
      constructor <;> simp [Call.owes, Call.persists, Call.isLastWord]
  | bury =>
      refine ⟨[_, _], [], rfl, rfl, ?_⟩
      constructor
      case owed =>
        intro noticed ending
        cases noticed with
        | willDestroy | didDestroy | onDestroy => rfl
        | _ => cases ending
      all_goals simp [Call.owes, Call.persists]

theorem Carried.leaves (happened : Carried key call { before with calls := rest } after) :
    ∃ added events,
      after.calls = added ++ rest ∧ after.events = events ++ before.events ∧
        Leaves key call before.phase added events :=
  happened.leaves_before

/-- What disturbs a binding records nothing, and announces an end only if one is asked for. -/
theorem Disturbed.leaves (happened : Disturbed key before after) :
    after.events = before.events ∧
      ∃ added, after.calls = added ++ before.calls ∧
        ((∀ left ∈ added, left.isEnding = false) ∨
          added = [.notice key .willDestroy none, .retire key]) ∧
        ((∃ left ∈ added, left.persists) → before.phase ≠ .destroyed) := by
  cases happened with
  | aside | born | wish | forgo =>
      exact ⟨rfl, [], rfl, by simp, by simp⟩
  | attempt _ _ unmounted =>
      exact ⟨rfl, [_, _], rfl, by simp [Call.isEnding, Notice.isEnding], by simp [unmounted]⟩
  | revoke | land =>
      exact ⟨rfl, [_], rfl, by simp [Call.isEnding], by simp [Call.persists]⟩
  | doom _ _ living =>
      exact ⟨rfl, [_, _], rfl, by simp, fun _ => living⟩
  | complain _ _ living =>
      exact ⟨rfl, [_, _], rfl, by simp [Call.isEnding, Notice.isEnding], fun _ => living⟩

/-! ## Each announcement is owed as often as the others -/

/-- The three announcements of an end come as often as one another. -/
def Balanced (key : BindingId) (life : Life) : Prop :=
  ∀ noticed : Notice, noticed.isEnding → life.tally key noticed = life.tally key .onDestroy

theorem Disturbed.balanced
    (happened : Disturbed key before after)
    (balanced : before.Balanced key) :
    after.Balanced key := by
  obtain ⟨events, added, calls, apart | doomed, _⟩ := happened.leaves
  · have same (noticed : Notice) (ending : noticed.isEnding) :
        after.tally key noticed = before.tally key noticed := by
      have unowed : added.countP (Call.owes noticed) = 0 :=
        List.countP_eq_zero.mpr fun left member => by
          simp [Call.owes_of_not_isEnding (apart left member) ending]
      rw [tally, tally, events, calls, List.countP_append, unowed, Nat.zero_add]
    intro noticed ending
    rw [same noticed ending, same .onDestroy rfl, balanced noticed ending]
  · have more (noticed : Notice) (ending : noticed.isEnding) :
        after.tally key noticed = before.tally key noticed + 1 := by
      have owed : added.countP (Call.owes noticed) = 1 := by
        rw [doomed]
        cases noticed with
        | willDestroy | didDestroy | onDestroy => rfl
        | _ => cases ending
      rw [tally, tally, events, calls, List.countP_append, owed]
      omega
    intro noticed ending
    rw [more noticed ending, more .onDestroy rfl, balanced noticed ending]

theorem Carried.balanced
    (calls : before.calls = call :: rest)
    (happened : Carried key call { before with calls := rest } after)
    (balanced : before.Balanced key) :
    after.Balanced key := by
  obtain ⟨added, events, callsAfter, eventsAfter, leaves⟩ := happened.leaves
  have same (noticed : Notice) (ending : noticed.isEnding) :
      after.tally key noticed = before.tally key noticed := by
    have owed := leaves.owed noticed ending
    rw [tally, tally, callsAfter, eventsAfter, calls, List.countP_append, List.countP_append,
      List.countP_cons]
    omega
  intro noticed ending
  rw [same noticed ending, same .onDestroy rfl, balanced noticed ending]

theorem Reached.balanced
    {allowed : Life → Call → Prop}
    (reached : Reached key allowed life) :
    life.Balanced key := by
  induction reached with
  | begin begins => simp [Balanced, tally, begins.calls, begins.events]
  | disturbed _ happened inductionHypothesis => exact happened.balanced inductionHypothesis
  | carried _ _ calls _ happened inductionHypothesis =>
      exact happened.balanced calls inductionHypothesis

/-- What no other element with the property may follow is there at most once. -/
theorem countP_le_one_of_pairwise
    {α : Type}
    {property : α → Bool}
    {list : List α}
    (apart : list.Pairwise fun first second => property first → property second = false) :
    list.countP property ≤ 1 := by
  induction list with
  | nil => exact Nat.zero_le 1
  | cons first others inductionHypothesis =>
      obtain ⟨none, rest⟩ := List.pairwise_cons.mp apart
      rw [List.countP_cons]
      split
      · next holds =>
          rw [List.countP_eq_zero.mpr fun second member => by
            simp [none second member holds]]
      · exact inductionHypothesis rest

/-- What lies below a call that owes the last word has nothing to say any more. -/
theorem Orderly.still_of_owes
    (orderly : life.Orderly key)
    (calls : life.calls = call :: rest)
    (owes : call.owes .onDestroy) :
    ∀ outer ∈ rest, outer.persists = false := by
  have ordered := orderly.ordered
  rw [calls] at ordered
  exact fun outer member => (List.pairwise_cons.mp ordered).1 outer member owes

/-- In an orderly life the last word is owed at most once. -/
theorem Orderly.tally_le_one (orderly : life.Orderly key) : life.tally key .onDestroy ≤ 1 := by
  have owed : life.calls.countP (Call.owes .onDestroy) ≤ 1 := by
    refine countP_le_one_of_pairwise (orderly.ordered.imp fun still owes => ?_)
    refine Bool.eq_false_iff.mpr fun again => ?_
    cases (still owes).symm.trans (Call.persists_of_owes again)
  have told : life.events.countP (Event.tells key .onDestroy) ≤ 1 :=
    countP_le_one_of_pairwise
      (orderly.last.imp fun {newer _} none (_ : newer.tells key .onDestroy) => none)
  rw [tally]
  by_cases last : ∃ event ∈ life.events, event.tells key .onDestroy
  · have unowed : life.calls.countP (Call.owes .onDestroy) = 0 := by
      refine List.countP_eq_zero.mpr fun call member owes => ?_
      cases (orderly.quiet last call member).symm.trans (Call.persists_of_owes owes)
    omega
  · have untold : life.events.countP (Event.tells key .onDestroy) = 0 := by
      refine List.countP_eq_zero.mpr fun event member told => last ⟨event, member, told⟩
    omega

/-! ## The last word is said of a binding that is over -/

/-- A binding of which the last word was said, or is about to be said, is over. -/
def Closed (key : BindingId) (life : Life) : Prop :=
  (∃ event ∈ life.events, event.tells key .onDestroy) ∨ (∃ call ∈ life.calls, call.isLastWord) →
    life.IsOver

theorem Disturbed.closed
    (happened : Disturbed key before after)
    (closed : before.Closed key) :
    after.Closed key := by
  obtain ⟨events, added, calls, announced, _⟩ := happened.leaves
  have plain : ∀ left ∈ added, left.isLastWord = false := by
    rcases announced with apart | rfl
    · intro left member
      refine Bool.eq_false_iff.mpr fun last => ?_
      cases (apart left member).symm.trans (Call.isEnding_of_isLastWord last)
    · simp [Call.isLastWord]
  rintro (⟨event, member, told⟩ | ⟨call, member, last⟩)
  · exact happened.isOver (closed (.inl ⟨event, events ▸ member, told⟩))
  · rw [calls] at member
    rcases List.mem_append.mp member with new | old
    · cases (plain call new).symm.trans last
    · exact happened.isOver (closed (.inr ⟨call, old, last⟩))

theorem Carried.closed
    (calls : before.calls = call :: rest)
    (happened : Carried key call { before with calls := rest } after)
    (orderly : before.Orderly key)
    (closed : before.Closed key) :
    after.Closed key := by
  obtain ⟨added, events, callsAfter, eventsAfter, leaves⟩ := happened.leaves
  have ended (announced : (∃ event ∈ before.events, event.tells key .onDestroy) ∨
      ∃ call ∈ before.calls, call.isLastWord) : after.IsOver :=
    happened.isOver calls (closed announced)
  have ending (final : call.isLastWord ∨ call = .bury key) : after.IsOver := by
    rcases final with last | rfl
    · exact ended (.inr ⟨call, calls ▸ List.mem_cons_self, last⟩)
    · have gentle : ∀ outer ∈ rest, outer.overrides = false := by
        intro outer member
        refine Bool.eq_false_iff.mpr fun overrides => ?_
        cases (orderly.still_of_owes calls rfl outer member).symm.trans
          (Call.persists_of_overrides overrides)
      cases happened with
      | bury => exact ⟨rfl, by simpa [push, Call.overrides] using gentle⟩
  rintro (⟨event, member, told⟩ | ⟨left, member, last⟩)
  · rw [eventsAfter] at member
    rcases List.mem_append.mp member with new | old
    · exact ending (leaves.final (.inl ⟨event, new, told⟩))
    · exact ended (.inl ⟨event, old, told⟩)
  · rw [callsAfter] at member
    rcases List.mem_append.mp member with new | old
    · exact ending (leaves.final (.inr ⟨left, new, last⟩))
    · exact ended (.inr ⟨left, calls ▸ List.mem_cons_of_mem _ old, last⟩)

/-! ## Orderly lives -/

/-- A life stays orderly if no end is asked for while a call that persists is under way. -/
theorem Disturbed.orderly
    (happened : Disturbed key before after)
    (orderly : before.Orderly key)
    (closed : before.Closed key)
    (apart : after.calls = .notice key .willDestroy none :: .retire key :: before.calls →
      ∀ call ∈ before.calls, call.persists = false) :
    after.Orderly key := by
  obtain ⟨events, added, calls, announced, living⟩ := happened.leaves
  constructor
  case last =>
    rw [events]
    exact orderly.last
  case quiet =>
    rintro ⟨event, member, told⟩
    rw [events] at member
    have destroyed := (closed (.inl ⟨event, member, told⟩)).destroyed
    rw [calls]
    intro call left
    rcases List.mem_append.mp left with new | old
    · exact Bool.eq_false_iff.mpr fun persists => living ⟨call, new, persists⟩ destroyed
    · exact orderly.quiet ⟨event, member, told⟩ call old
  case ordered =>
    rw [calls]
    rcases announced with plain | rfl
    · have unowed {upper : Call} (member : upper ∈ added) : upper.owes .onDestroy = false :=
        Call.owes_of_not_isEnding (plain upper member) rfl
      refine List.pairwise_append.mpr ⟨?_, orderly.ordered, ?_⟩
      · refine List.pairwise_of_forall_mem_list fun upper member _ _ owes => ?_
        cases (unowed member).symm.trans owes
      · intro upper member _ _ owes
        cases (unowed member).symm.trans owes
    · have still := apart calls
      refine List.Pairwise.cons ?_ (List.Pairwise.cons ?_ orderly.ordered)
      · intro _ _ owes
        cases owes
      · exact fun lower member _ => still lower member

/-- What disturbs a life does not put it in order. -/
theorem Disturbed.orderly_before
    (happened : Disturbed key before after)
    (orderly : after.Orderly key) :
    before.Orderly key := by
  obtain ⟨events, added, calls, _⟩ := happened.leaves
  obtain ⟨last, quiet, ordered⟩ := orderly
  rw [events] at last quiet
  rw [calls] at quiet ordered
  exact ⟨last, fun told call member => quiet told call (List.mem_append_right _ member),
    (List.pairwise_append.mp ordered).2.1⟩

theorem Carried.orderly
    (calls : before.calls = call :: rest)
    (happened : Carried key call { before with calls := rest } after)
    (orderly : before.Orderly key)
    (closed : before.Closed key) :
    after.Orderly key := by
  obtain ⟨added, events, callsAfter, eventsAfter, leaves⟩ := happened.leaves
  have silent (told : ∃ event ∈ before.events, event.tells key .onDestroy) :
      events = [] ∧ ∀ left ∈ added, left.persists = false :=
    leaves.silent (orderly.quiet told call (calls ▸ List.mem_cons_self))
      (closed (.inl told)).destroyed
  have stillOutside (told : ∃ event ∈ before.events, event.tells key .onDestroy) :
      ∀ outer ∈ rest, outer.persists = false :=
    fun outer member => orderly.quiet told outer (calls ▸ List.mem_cons_of_mem _ member)
  constructor
  case last =>
    rw [eventsAfter]
    refine List.pairwise_append.mpr ⟨?_, orderly.last, ?_⟩
    · by_cases told : ∃ event ∈ events, event.tells key .onDestroy
      · obtain ⟨event, only⟩ := List.length_eq_one_iff.mp (leaves.alone told).1
        rw [only]
        exact List.pairwise_singleton _ _
      · refine List.pairwise_of_forall_mem_list fun _ _ older member => ?_
        exact Bool.eq_false_iff.mpr fun last => told ⟨older, member, last⟩
    · intro newer new older member
      refine Bool.eq_false_iff.mpr fun last => ?_
      rw [(silent ⟨older, member, last⟩).1] at new
      cases new
  case quiet =>
    rintro ⟨event, member, told⟩
    rw [eventsAfter] at member
    rw [callsAfter]
    intro left under
    rcases List.mem_append.mp member with new | old
    · have tells : ∃ event ∈ events, event.tells key .onDestroy := ⟨event, new, told⟩
      rw [(leaves.alone tells).2] at under
      exact orderly.still_of_owes calls (leaves.owes_iff.mpr (.inl tells)) left under
    · rcases List.mem_append.mp under with new | outside
      · exact (silent ⟨event, old, told⟩).2 left new
      · exact stillOutside ⟨event, old, told⟩ left outside
  case ordered =>
    rw [callsAfter]
    refine List.pairwise_append.mpr ⟨leaves.ordered, ?_, ?_⟩
    · have ordered := orderly.ordered
      rw [calls] at ordered
      exact (List.pairwise_cons.mp ordered).2
    · intro upper new outer member owes
      exact orderly.still_of_owes calls (leaves.owes_iff.mpr (.inr ⟨upper, new, owes⟩)) outer member

theorem Carried.orderly_before
    (calls : before.calls = call :: rest)
    (happened : Carried key call { before with calls := rest } after)
    (orderly : after.Orderly key) :
    before.Orderly key := by
  obtain ⟨added, events, callsAfter, eventsAfter, leaves⟩ := happened.leaves
  obtain ⟨last, quiet, ordered⟩ := orderly
  rw [eventsAfter] at last quiet
  rw [callsAfter] at quiet ordered
  have told (told : ∃ event ∈ before.events, event.tells key .onDestroy) :
      ∃ event ∈ events ++ before.events, event.tells key .onDestroy := by
    obtain ⟨event, member, told⟩ := told
    exact ⟨event, List.mem_append_right _ member, told⟩
  constructor
  case last => exact (List.pairwise_append.mp last).2.1
  case quiet =>
    intro toldBefore left member
    have still := quiet (told toldBefore)
    rw [calls] at member
    rcases List.mem_cons.mp member with rfl | outside
    · refine Bool.eq_false_iff.mpr fun persists => ?_
      rcases leaves.lasting persists with more | ⟨call, new, persistsToo⟩
      · obtain ⟨newer, new⟩ := List.exists_mem_of_ne_nil _ more
        obtain ⟨older, old, tells⟩ := toldBefore
        cases ((List.pairwise_append.mp last).2.2 newer new older old).symm.trans tells
      · cases (still call (List.mem_append_left _ new)).symm.trans persistsToo
    · exact still left (List.mem_append_right _ outside)
  case ordered =>
    rw [calls]
    refine List.Pairwise.cons ?_ (List.pairwise_append.mp ordered).2.1
    intro outer member owes
    rcases leaves.owes_iff.mp owes with ⟨event, new, tells⟩ | ⟨upper, new, owesToo⟩
    · exact quiet ⟨event, List.mem_append_left _ new, tells⟩ outer (List.mem_append_right _ member)
    · exact (List.pairwise_append.mp ordered).2.2 upper new outer member owesToo

end Life

end Hydration
