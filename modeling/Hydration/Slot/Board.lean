import Hydration.Slot.Basic
import Hydration.Table

/-!
# A slot and its subscriptions

One slot together with every subscription handed out so far.  Subscriptions may
be cancelled and dropped in any order, also after the slot is gone.
-/

namespace Hydration

namespace Slot

/-- What cancelling a subscription of a board undoes. -/
inductive Undoing where
  /-- The attachment of a generation. -/
  | attachment (generation : Nat)
  /-- Nothing but the report that it was cancelled. -/
  | report
  deriving DecidableEq, Repr

/-- What a board lets its owner hear. -/
inductive Sound where
  /-- The listener of a subscription got a value. -/
  | heard (subscription : Nat) (value : Bool)
  /-- A subscription reports that it was cancelled. -/
  | cancelled (subscription : Nat)
  deriving DecidableEq, Repr

/-- A slot, unless it was dropped, and the subscriptions that were not dropped. -/
structure Board where
  /-- The listener of a slot is known by the key of its subscription. -/
  slot : Option (Slot Nat)
  subscriptions : Table (Option (Subscription Undoing))
  deriving Repr

namespace Board

/-- A fresh slot without subscriptions. -/
def empty : Board := ⟨some Slot.empty, Table.empty⟩

/-- Attaches a listener; nothing if the slot is gone. -/
def attach (board : Board) : Board :=
  match board.slot with
  | none => board
  | some slot =>
      { slot := some (slot.attach board.subscriptions.size)
        subscriptions :=
          board.subscriptions.push (some (.undoing (.attachment (slot.generation + 1)))) }

/-- Adds a subscription of another kind. -/
def add (board : Board) (subscription : Subscription Undoing) : Board :=
  { board with subscriptions := board.subscriptions.push (some subscription) }

/-- Undoes what a subscription promised to undo. -/
def undo (board : Board) (key : Nat) : Option Undoing → Board × List Sound
  | none => (board, [])
  | some (.attachment generation) =>
      ({ board with slot := board.slot.map (·.detach generation) }, [])
  | some .report => (board, [.cancelled key])

/-- What is pending of a subscription that was not dropped. -/
def pending? (board : Board) (key : Nat) : Option Undoing :=
  ((board.subscriptions.get? key).bind id).bind Subscription.pending

/-- Cancels a subscription. -/
def cancel (board : Board) (key : Nat) : Board × List Sound :=
  let cancelled :=
    { board with
      subscriptions := board.subscriptions.modify key (·.map fun _ => .nothing) }
  cancelled.undo key (board.pending? key)

/-- Drops a subscription, which cancels it. -/
def drop (board : Board) (key : Nat) : Board × List Sound :=
  let dropped :=
    { board with subscriptions := board.subscriptions.modify key fun _ => none }
  dropped.undo key (board.pending? key)

def dropSlot (board : Board) : Board :=
  { board with slot := none }

/-- What is heard when the slot passes a value on. -/
def notify (board : Board) (value : Bool) : List Sound :=
  match board.slot.bind Slot.listener with
  | none => []
  | some key => [.heard key value]

/-- Whether a subscription is there and still active. -/
def isActive (board : Board) (key : Nat) : Bool :=
  ((board.subscriptions.get? key).bind id).any Subscription.isActive

theorem isActive_eq_isSome_pending? (board : Board) (key : Nat) :
    board.isActive key = (board.pending? key).isSome := by
  rw [isActive, pending?]
  cases (board.subscriptions.get? key).bind id <;> rfl

theorem notify_eq (board : Board) (value : Bool) :
    board.notify value = (board.slot.bind Slot.listener).toList.map (.heard · value) := by
  rw [notify]
  cases board.slot.bind Slot.listener <;> rfl

theorem attach_of_none {board : Board} (gone : board.slot = none) : board.attach = board := by
  rw [attach, gone]

section Attaching

variable {board : Board} {slot : Slot Nat}

theorem slot_attach (present : board.slot = some slot) :
    board.attach.slot = some (slot.attach board.subscriptions.size) := by
  rw [attach, present]

theorem size_attach (present : board.slot = some slot) :
    board.attach.subscriptions.size = board.subscriptions.size + 1 := by
  rw [attach, present]
  exact Table.size_push _ _

theorem pending?_attach (present : board.slot = some slot) (key : Nat) :
    board.attach.pending? key =
      if key = board.subscriptions.size then some (.attachment (slot.generation + 1))
      else board.pending? key := by
  rw [attach, present, pending?, Table.get?_push]
  split <;> rfl

end Attaching

/-- What it means that a subscription ends: what was pending of it is undone, and no more is. -/
structure Ends (board : Board) (key : Nat) (result : Board × List Sound) : Prop where
  size : result.1.subscriptions.size = board.subscriptions.size
  pending : ∀ other,
    result.1.pending? other = if other = key then none else board.pending? other
  slot : result.1.slot = (board.undo key (board.pending? key)).1.slot
  sounds : result.2 = (board.undo key (board.pending? key)).2

/-- A subscription is changed so that nothing is pending of it, and what was pending is undone. -/
theorem ends_undo
    (board : Board)
    (key : Nat)
    {change : Option (Subscription Undoing) → Option (Subscription Undoing)}
    (clears : ∀ entry, (change entry).bind Subscription.pending = none) :
    board.Ends key
      ({ board with subscriptions := board.subscriptions.modify key change }.undo key
        (board.pending? key)) := by
  have table (undone : Option Undoing) (changed : Board) :
      (changed.undo key undone).1.subscriptions = changed.subscriptions := by
    rcases undone with _ | _ | _ <;> rfl
  constructor
  · rw [table, Table.size_modify]
  · intro other
    rw [pending?, table, Table.get?_modify]
    split
    · cases board.subscriptions.get? other with
      | none => rfl
      | some entry => exact clears entry
    · rfl
  · rcases board.pending? key with _ | _ | _ <;> rfl
  · rcases board.pending? key with _ | _ | _ <;> rfl

theorem ends_cancel (board : Board) (key : Nat) : board.Ends key (board.cancel key) :=
  board.ends_undo key fun entry => by cases entry <;> rfl

theorem ends_drop (board : Board) (key : Nat) : board.Ends key (board.drop key) :=
  board.ends_undo key fun _ => rfl

end Board

end Slot

end Hydration
