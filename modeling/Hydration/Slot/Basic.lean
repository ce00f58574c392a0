/-!
# Listener slots

A slot holds at most one listener.  Each attachment gets a generation of its
own, so that a subscription that has been replaced detaches nothing.  A
subscription remembers what is to be done when it is cancelled, and does it at
most once.
-/

namespace Hydration

/-- The place of the single listener of a monitor. -/
structure Slot (α : Type) where
  /--
  How many listeners have been attached so far.  A word of 64 bits holds this
  number as long as fewer than 2 ^ 64 listeners are attached to one slot.
  -/
  generation : Nat
  listener : Option α
  deriving Repr

namespace Slot

variable {α : Type}

/-- A slot nobody has used. -/
def empty : Slot α := ⟨0, none⟩

/-- Attaches a listener in the place of any other; its generation is the new one. -/
def attach (slot : Slot α) (listener : α) : Slot α :=
  ⟨slot.generation + 1, some listener⟩

/-- Removes the listener if it is the one of this generation. -/
def detach (slot : Slot α) (generation : Nat) : Slot α :=
  if slot.generation = generation then { slot with listener := none } else slot

/-- Whether a listener is attached. -/
def isSet (slot : Slot α) : Bool :=
  slot.listener.isSome

@[simp] theorem listener_attach (slot : Slot α) (listener : α) :
    (slot.attach listener).listener = some listener := rfl

@[simp] theorem generation_attach (slot : Slot α) (listener : α) :
    (slot.attach listener).generation = slot.generation + 1 := rfl

@[simp] theorem generation_detach (slot : Slot α) (generation : Nat) :
    (slot.detach generation).generation = slot.generation := by
  unfold detach
  split <;> rfl

theorem listener_detach (slot : Slot α) (generation : Nat) :
    (slot.detach generation).listener =
      if slot.generation = generation then none else slot.listener := by
  unfold detach
  split <;> rfl

end Slot

/-- A promise to undo an attachment, of the kind `κ`. -/
structure Subscription (κ : Type) where
  /-- What is to be undone; nothing once the subscription is cancelled. -/
  pending : Option κ
  deriving Repr

namespace Subscription

variable {κ : Type}

/-- A subscription that undoes something. -/
def undoing (undone : κ) : Subscription κ := ⟨some undone⟩

/-- A subscription with nothing to undo. -/
def nothing : Subscription κ := ⟨none⟩

/-- Whether there is still something to undo. -/
def isActive (subscription : Subscription κ) : Bool :=
  subscription.pending.isSome

end Subscription

end Hydration
