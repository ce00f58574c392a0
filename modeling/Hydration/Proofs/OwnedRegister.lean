import Hydration.Slot.Board
import Mathlib.Data.List.Induction

/-!
# A slot is a register that its latest subscription owns

Listeners are attached to one slot, values are passed on, and subscriptions are
cancelled and dropped in any order, before or after the slot itself is dropped.
The listener of the latest subscription is in the slot exactly as long as that
subscription is active; an older subscription changes nothing in the slot when it
ends; and whether a subscription is active depends on its own end alone.

Generations carry the proof.  The generation of a slot counts the listeners
attached to it, so the subscription with the key `key` undoes the generation
`key + 1`, which is the present one for the latest subscription and for no other.
A counter of 64 bits tells them apart as long as no more listeners were attached
than it can count.

A notification is over when the listener is called: whatever the listener does to
the board comes after it in the history.
-/

namespace Hydration

namespace Slot

/-- What is done with a slot and its subscriptions. -/
inductive Use where
  | attach
  | notify (value : Bool)
  | cancel (key : Nat)
  | drop (key : Nat)
  | dropSlot
  deriving DecidableEq, Repr

/-- The number of subscriptions handed out: one for each listener, as long as there is a slot. -/
def issued (history : List Use) : Nat :=
  (history.takeWhile (· ≠ .dropSlot)).count .attach

/-- The key of the subscription handed out last; the keys are 0, 1, 2 and so on. -/
def latest? (history : List Use) : Option Nat :=
  if issued history = 0 then none else some (issued history - 1)

/-- A subscription was handed out, and neither cancelled nor dropped since. -/
def IsHeld (history : List Use) (key : Nat) : Prop :=
  ∃ before after,
    history = before ++ .attach :: after ∧
      (.dropSlot ∉ before ∧ issued before = key) ∧
      .cancel key ∉ after ∧ .drop key ∉ after

section History

variable {history : List Use} {use : Use} {key : Nat}

theorem latest?_eq_some_iff : latest? history = some key ↔ issued history = key + 1 := by
  unfold latest?
  split <;> simp <;> omega

theorem issued_cons (first : Use) (rest : List Use) :
    issued (first :: rest) =
      match first with
      | .attach => issued rest + 1
      | .dropSlot => 0
      | _ => issued rest := by
  cases first <;> simp [issued]

theorem issued_concat (history : List Use) (use : Use) :
    issued (history ++ [use]) =
      issued history + if use = .attach ∧ .dropSlot ∉ history then 1 else 0 := by
  induction history with
  | nil => cases use <;> rfl
  | cons first rest inductionHypothesis =>
      rw [List.cons_append, issued_cons, issued_cons, inductionHypothesis]
      cases first <;> simp [Nat.add_right_comm]

/-- A subscription is held after one more use if it was and does not end, or is the new one. -/
theorem isHeld_concat :
    IsHeld (history ++ [use]) key ↔
      (IsHeld history key ∧ use ≠ .cancel key ∧ use ≠ .drop key) ∨
        use = .attach ∧ .dropSlot ∉ history ∧ issued history = key := by
  constructor
  · rintro ⟨before, after, split, start, kept, keptToo⟩
    rcases List.eq_nil_or_concat after with rfl | ⟨rest, last, rfl⟩
    · obtain ⟨rfl, same⟩ := List.append_inj' split rfl
      exact .inr ⟨List.singleton_inj.mp same, start⟩
    · rw [List.concat_eq_append, ← List.cons_append, ← List.append_assoc] at split
      obtain ⟨rfl, same⟩ := List.append_inj' split rfl
      obtain rfl := List.singleton_inj.mp same
      simp only [List.concat_eq_append, List.mem_append, List.mem_singleton, not_or]
        at kept keptToo
      exact .inl ⟨⟨before, rest, rfl, start, kept.1, keptToo.1⟩, Ne.symm kept.2, Ne.symm keptToo.2⟩
  · rintro (⟨⟨before, after, rfl, start, kept, keptToo⟩, going, goingToo⟩ | ⟨rfl, start⟩)
    · refine ⟨before, after ++ [use], by simp, start, ?_, ?_⟩ <;>
        simp only [List.mem_append, List.mem_singleton, not_or]
      · exact ⟨kept, Ne.symm going⟩
      · exact ⟨keptToo, Ne.symm goingToo⟩
    · exact ⟨history, [], rfl, start, List.not_mem_nil, List.not_mem_nil⟩

end History

namespace Board

/-- The board after one use, and what is heard of it. -/
def use (board : Board) : Use → Board × List Sound
  | .attach => (board.attach, [])
  | .notify value => (board, board.notify value)
  | .cancel key => board.cancel key
  | .drop key => board.drop key
  | .dropSlot => (board.dropSlot, [])

/-- A fresh board after uses, the first of them first. -/
def after (history : List Use) : Board :=
  history.foldl (fun board use => (board.use use).1) empty

theorem after_concat (history : List Use) (use : Use) :
    after (history ++ [use]) = ((after history).use use).1 := by
  rw [after, List.foldl_append]
  rfl

/-- What a history of uses leaves of a board. -/
structure Follows (board : Board) (history : List Use) : Prop where
  size : board.subscriptions.size = issued history
  gone : board.slot = none ↔ .dropSlot ∈ history
  generation : ∀ slot, board.slot = some slot → slot.generation = issued history
  pending : ∀ key undone,
    board.pending? key = some undone ↔
      IsHeld history key ∧ undone = .attachment (key + 1)
  listener : ∀ slot, board.slot = some slot → ∀ key,
    slot.listener = some key ↔ issued history = key + 1 ∧ IsHeld history key

section Follows

variable {board : Board} {history : List Use} {key : Nat}

theorem follows_empty : empty.Follows [] := by
  have nobody (key : Nat) : ¬IsHeld [] key := by
    rintro ⟨before, after, split, _⟩
    simp at split
  constructor
  case size => rfl
  case gone => simp [empty]
  case generation =>
    rintro _ ⟨⟩
    rfl
  case pending =>
    intro key undone
    simp [nobody, pending?, empty, Table.get?, Table.empty]
  case listener =>
    rintro _ ⟨⟩ key
    simp [nobody, Slot.empty]

theorem Follows.not_dropped
    {slot : Slot Nat}
    (follows : board.Follows history)
    (present : board.slot = some slot) :
    .dropSlot ∉ history := by
  simp [← follows.gone, present]

/-- A use that hands out no subscription and ends none. -/
theorem Follows.idle
    {use : Use}
    (follows : board.Follows history)
    (attaches : use = .attach → .dropSlot ∈ history)
    (ends : ∀ key, use ≠ .cancel key ∧ use ≠ .drop key)
    (drops : use ≠ .dropSlot) :
    board.Follows (history ++ [use]) := by
  have same : issued (history ++ [use]) = issued history := by
    rw [issued_concat, if_neg fun fresh => fresh.2 (attaches fresh.1)]
    rfl
  have held (key : Nat) : IsHeld (history ++ [use]) key ↔ IsHeld history key := by
    rw [isHeld_concat]
    have := ends key
    tauto
  constructor
  case size => rw [same, follows.size]
  case gone => simp [follows.gone, Ne.symm drops]
  case generation => simpa only [same] using follows.generation
  case pending => simpa only [held] using follows.pending
  case listener => simpa only [same, held] using follows.listener

/-- A listener is attached to a slot that is there. -/
theorem Follows.attach
    {slot : Slot Nat}
    (follows : board.Follows history)
    (present : board.slot = some slot) :
    board.attach.Follows (history ++ [.attach]) := by
  have started := follows.not_dropped present
  have more : issued (history ++ [.attach]) = issued history + 1 := by
    rw [issued_concat, if_pos ⟨rfl, started⟩]
  have held (key : Nat) :
      IsHeld (history ++ [.attach]) key ↔ IsHeld history key ∨ issued history = key := by
    simp [isHeld_concat, started]
  have generation := follows.generation slot present
  constructor
  case size => rw [size_attach present, follows.size, more]
  case gone => simp [slot_attach present, started]
  case generation =>
    intro renewed attached
    obtain rfl := Option.some.inj ((slot_attach present).symm.trans attached)
    rw [generation_attach, generation, more]
  case pending =>
    intro key undone
    rw [pending?_attach present, follows.size, generation, held]
    split
    · next newest => simp [newest, eq_comm]
    · next older => rw [follows.pending, or_iff_left (Ne.symm older)]
  case listener =>
    intro renewed attached key
    obtain rfl := Option.some.inj ((slot_attach present).symm.trans attached)
    rw [listener_attach, follows.size, more, held, Option.some_inj, Nat.add_right_cancel_iff]
    exact ⟨fun newest => ⟨newest, .inr newest⟩, And.left⟩

/-- A slot whose latest subscription has ended is empty. -/
theorem Follows.listener_of_released
    {slot : Slot Nat}
    (follows : board.Follows history)
    (present : board.slot = some slot)
    (latest : slot.generation = key + 1)
    (released : ¬IsHeld history key) :
    slot.listener = none := by
  cases found : slot.listener with
  | none => rfl
  | some other =>
      obtain ⟨count, held⟩ := (follows.listener slot present other).mp found
      have same : other = key := by
        have generation := follows.generation slot present
        omega
      exact absurd (same ▸ held) released

/-- Whoever ends a subscription detaches its generation, even if it had ended before. -/
theorem Follows.slot_ended
    {result : Board × List Sound}
    (follows : board.Follows history)
    (ends : board.Ends key result) :
    result.1.slot = board.slot.map (·.detach (key + 1)) := by
  rw [ends.slot]
  cases pending : board.pending? key with
  | some undone =>
      obtain ⟨_, rfl⟩ := (follows.pending key undone).mp pending
      rfl
  | none =>
      have released : ¬IsHeld history key := fun held => by
        rw [(follows.pending key _).mpr ⟨held, rfl⟩] at pending
        cases pending
      show board.slot = _
      cases present : board.slot with
      | none => rfl
      | some slot =>
          rw [Option.map_some, detach]
          split
          · next latest =>
              rw [← follows.listener_of_released present latest released]
          · rfl

/-- The end of a subscription that is not the latest leaves the slot as it is. -/
theorem Follows.slot_of_older
    {result : Board × List Sound}
    (follows : board.Follows history)
    (ends : board.Ends key result)
    (older : latest? history ≠ some key) :
    result.1.slot = board.slot := by
  rw [follows.slot_ended ends]
  cases present : board.slot with
  | none => rfl
  | some slot =>
      have outdated : slot.generation ≠ key + 1 := by
        rw [follows.generation slot present]
        exact fun count => older (latest?_eq_some_iff.mpr count)
      rw [Option.map_some, detach, if_neg outdated]

theorem Follows.sounds_ended
    {result : Board × List Sound}
    (follows : board.Follows history)
    (ends : board.Ends key result) :
    result.2 = [] := by
  rw [ends.sounds]
  cases pending : board.pending? key with
  | none => rfl
  | some undone =>
      obtain ⟨_, rfl⟩ := (follows.pending key undone).mp pending
      rfl

/-- A subscription is cancelled or dropped. -/
theorem Follows.ended
    {use : Use}
    {result : Board × List Sound}
    (follows : board.Follows history)
    (ending : use = .cancel key ∨ use = .drop key)
    (ends : board.Ends key result) :
    result.1.Follows (history ++ [use]) := by
  have same : issued (history ++ [use]) = issued history := by
    rcases ending with rfl | rfl <;> simp [issued_concat]
  have held (other : Nat) :
      IsHeld (history ++ [use]) other ↔ IsHeld history other ∧ other ≠ key := by
    rcases ending with rfl | rfl <;> simp [isHeld_concat, eq_comm]
  have slot := follows.slot_ended ends
  constructor
  case size => rw [ends.size, follows.size, same]
  case gone =>
    rw [slot, Option.map_eq_none_iff, follows.gone]
    rcases ending with rfl | rfl <;> simp
  case generation =>
    intro left present
    rw [slot, Option.map_eq_some_iff] at present
    obtain ⟨before, present, rfl⟩ := present
    rw [generation_detach, same, follows.generation before present]
  case pending =>
    intro other undone
    rw [ends.pending, held]
    split
    · next ended => simp [ended]
    · next others => rw [follows.pending, and_iff_left others]
  case listener =>
    intro left present other
    rw [slot, Option.map_eq_some_iff] at present
    obtain ⟨before, present, rfl⟩ := present
    rw [listener_detach, follows.generation before present, same, held]
    split
    · next latest =>
        have none_held : ¬(issued history = other + 1 ∧ IsHeld history other ∧ other ≠ key) := by
          omega
        exact iff_of_false nofun none_held
    · next older =>
        have others (count : issued history = other + 1) : other ≠ key := by
          rintro rfl
          exact older count
        rw [follows.listener before present]
        exact and_congr_right fun count => (and_iff_left (others count)).symm

theorem Follows.dropSlot (follows : board.Follows history) :
    board.dropSlot.Follows (history ++ [.dropSlot]) := by
  have same : issued (history ++ [.dropSlot]) = issued history := by
    simp [issued_concat]
  have held (key : Nat) : IsHeld (history ++ [.dropSlot]) key ↔ IsHeld history key := by
    simp [isHeld_concat]
  constructor
  case size => exact follows.size.trans same.symm
  case gone => simp [Board.dropSlot]
  case generation => rintro _ ⟨⟩
  case pending =>
    intro key undone
    rw [held]
    exact follows.pending key undone
  case listener => rintro _ ⟨⟩

/-- Each use keeps a board in step with its history. -/
theorem Follows.use (follows : board.Follows history) (use : Use) :
    (board.use use).1.Follows (history ++ [use]) := by
  cases use with
  | attach =>
      cases present : board.slot with
      | none =>
          show board.attach.Follows _
          rw [attach_of_none present]
          exact follows.idle (fun _ => follows.gone.mp present) (by simp) (by simp)
      | some slot => exact follows.attach present
  | notify value => exact follows.idle (by simp) (by simp) (by simp)
  | cancel key => exact follows.ended (.inl rfl) (board.ends_cancel key)
  | drop key => exact follows.ended (.inr rfl) (board.ends_drop key)
  | dropSlot => exact follows.dropSlot

theorem follows_after (history : List Use) : (after history).Follows history := by
  induction history using List.reverseRecOn with
  | nil => exact follows_empty
  | append_singleton history use inductionHypothesis =>
      rw [after_concat]
      exact inductionHypothesis.use use

/-- A subscription is active as long as it is held. -/
theorem Follows.isActive_iff (follows : board.Follows history) :
    board.isActive key = true ↔ IsHeld history key := by
  rw [isActive_eq_isSome_pending?, Option.isSome_iff_exists]
  simp [follows.pending]

/-- In a slot that is there is the listener of the latest subscription, if that one is active. -/
theorem Follows.listener_eq
    {slot : Slot Nat}
    (follows : board.Follows history)
    (present : board.slot = some slot) :
    slot.listener = (latest? history).filter board.isActive := by
  ext key
  rw [follows.listener slot present, Option.filter_eq_some_iff, latest?_eq_some_iff,
    follows.isActive_iff]

theorem Follows.isSet_eq (follows : board.Follows history) :
    board.slot.map Slot.isSet =
      if .dropSlot ∈ history then none else some ((latest? history).any board.isActive) := by
  cases present : board.slot with
  | none => rw [if_pos (follows.gone.mp present), Option.map_none]
  | some slot =>
      rw [if_neg (follows.not_dropped present), Option.map_some, isSet, follows.listener_eq present,
        Option.isSome_filter]

theorem Follows.notify_eq (follows : board.Follows history) (value : Bool) :
    board.notify value =
      if .dropSlot ∈ history then []
      else ((latest? history).filter board.isActive).toList.map (.heard · value) := by
  rw [Board.notify_eq]
  cases present : board.slot with
  | none => rw [if_pos (follows.gone.mp present)]; rfl
  | some slot =>
      rw [if_neg (follows.not_dropped present), Option.bind_some, follows.listener_eq present]

end Follows

/--
Whatever was done with a slot and its subscriptions, in whatever order: as long as
the slot is there, a listener is attached if and only if the subscription handed
out last is active.  A value that is passed on is heard by the listener of that
subscription, once, if it is active, and by nobody otherwise; no other use is heard.
Any other subscription that is cancelled or dropped leaves the slot as it is.  Each
subscription is active from the moment it is handed out until it is cancelled or
dropped itself.
-/
theorem owned_by_latest (history : List Use) :
    let board := after history
    (board.slot.map Slot.isSet =
        if .dropSlot ∈ history then none else some ((latest? history).any board.isActive)) ∧
      (∀ use, (board.use use).2 =
        match use with
        | .notify value =>
            if .dropSlot ∈ history then []
            else ((latest? history).filter board.isActive).toList.map (.heard · value)
        | _ => []) ∧
      (∀ key, latest? history ≠ some key →
        (board.cancel key).1.slot = board.slot ∧ (board.drop key).1.slot = board.slot) ∧
      ∀ key, board.isActive key = true ↔ IsHeld history key := by
  intro board
  have follows : board.Follows history := follows_after history
  refine ⟨follows.isSet_eq, fun use => ?_, fun key older => ⟨?_, ?_⟩, fun key =>
    follows.isActive_iff⟩
  · cases use with
    | attach => rfl
    | notify value => exact follows.notify_eq value
    | cancel key => exact follows.sounds_ended (board.ends_cancel key)
    | drop key => exact follows.sounds_ended (board.ends_drop key)
    | dropSlot => rfl
  · exact follows.slot_of_older (board.ends_cancel key) older
  · exact follows.slot_of_older (board.ends_drop key) older

/-- The first of two subscriptions is cancelled twice and then dropped, and the second is heard. -/
theorem owned_by_latest_replaced :
    let history : List Use := [.attach, .notify true, .attach, .cancel 0, .cancel 0]
    let board := after history
    board.slot.map Slot.isSet = some true ∧
      (board.use (.notify false)).2 = [.heard 1 false] ∧
      (latest? history ≠ some 0 ∧ (board.drop 0).1.slot = board.slot) ∧
      board.isActive 0 = false ∧ IsHeld history 1 := by
  intro history board
  obtain ⟨set, heard, older, active⟩ := owned_by_latest history
  have renewed : latest? history ≠ some 0 := by decide
  refine ⟨set.trans (by decide), (heard (.notify false)).trans (by decide), ?_, by decide, ?_⟩
  · exact ⟨renewed, (older 0 renewed).2⟩
  · exact (active 1).mp (by decide)

/-- A subscription outlives its slot, until it is cancelled itself. -/
example :
    (after [.attach, .dropSlot]).isActive 0 = true ∧
      (after [.attach, .dropSlot, .cancel 0]).isActive 0 = false := by
  decide

end Board

end Slot

end Hydration
