/-!
# Visible elements

The host tells which elements can be seen; all others count as hidden.  An
entry also lists the monitors that watch its element.  Entries that are hidden
and watched by nobody are forgotten.
-/

namespace Hydration

/-- What is known of one element. -/
structure VisibilityEntry where
  element : Nat
  visible : Bool
  /-- The monitors of the element, oldest first. -/
  watchers : List Nat
  deriving DecidableEq, Repr

/-- The entries, oldest first. -/
structure Visibility where
  entries : List VisibilityEntry
  deriving DecidableEq, Repr

namespace Visibility

/-- Nothing is known. -/
def empty : Visibility := ⟨[]⟩

def entry? (visibility : Visibility) (element : Nat) : Option VisibilityEntry :=
  visibility.entries.find? fun entry => entry.element = element

/-- Whether an element can be seen. -/
def isVisible (visibility : Visibility) (element : Nat) : Bool :=
  ((visibility.entry? element).map VisibilityEntry.visible).getD false

/-- Changes the entry of an element, or a new last entry of a hidden one. -/
def update (element : Nat) (change : VisibilityEntry → VisibilityEntry) :
    List VisibilityEntry → List VisibilityEntry
  | [] => [change ⟨element, false, []⟩]
  | entry :: rest =>
      if entry.element = element then change entry :: rest
      else entry :: update element change rest

/-- Forgets watchers that have ended, and entries that are hidden and unwatched. -/
def prune (visibility : Visibility) (alive : Nat → Bool) : Visibility :=
  ⟨(visibility.entries.map fun entry =>
      { entry with watchers := entry.watchers.filter alive }).filter fun entry =>
    entry.visible || !entry.watchers.isEmpty⟩

/-- Records whether an element can be seen. -/
def set (visibility : Visibility) (element : Nat) (visible : Bool) : Visibility :=
  ⟨update element (fun entry => { entry with visible }) visibility.entries⟩

/-- Adds a watcher of an element. -/
def watch (visibility : Visibility) (element monitor : Nat) : Visibility :=
  ⟨update element
    (fun entry => { entry with watchers := entry.watchers ++ [monitor] })
    visibility.entries⟩

/-- The watchers of an element, oldest first. -/
def watchers (visibility : Visibility) (element : Nat) : List Nat :=
  ((visibility.entry? element).map VisibilityEntry.watchers).getD []

/-- The number of entries. -/
def tracked (visibility : Visibility) : Nat :=
  visibility.entries.length

end Visibility

end Hydration
