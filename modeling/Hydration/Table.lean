/-!
# Tables

Entries that are added and changed in place but never removed.  The key of an
entry is the number of entries added before it, so keys are never used twice.
-/

namespace Hydration

/-- Entries with the keys 0, 1, 2 and so on. -/
structure Table (α : Type) where
  entries : List α
  deriving Repr

namespace Table

variable {α : Type}

/-- The table without entries. -/
def empty : Table α := ⟨[]⟩

instance : Inhabited (Table α) := ⟨empty⟩

/-- The number of entries, which is the key of the next one. -/
def size (table : Table α) : Nat :=
  table.entries.length

/-- The entry with a key. -/
def get? (table : Table α) (key : Nat) : Option α :=
  table.entries[key]?

/-- Adds an entry under the key `table.size`. -/
def push (table : Table α) (entry : α) : Table α :=
  ⟨table.entries ++ [entry]⟩

/-- Changes the entry with a key, if there is one. -/
def modify (table : Table α) (key : Nat) (change : α → α) : Table α :=
  ⟨table.entries.modify key change⟩

/-- The keys of the entries with a property, in ascending order. -/
def keysWhere (table : Table α) (property : Nat → α → Bool) : List Nat :=
  (List.range table.size).filter fun key => (table.get? key).any (property key)

@[simp] theorem size_empty : (empty : Table α).size = 0 := rfl

@[simp] theorem size_push (table : Table α) (entry : α) :
    (table.push entry).size = table.size + 1 := by
  simp [size, push]

@[simp] theorem size_modify (table : Table α) (key : Nat) (change : α → α) :
    (table.modify key change).size = table.size := by
  simp [size, modify]

theorem get?_push (table : Table α) (entry : α) (key : Nat) :
    (table.push entry).get? key =
      if key = table.size then some entry else table.get? key := by
  by_cases same : key = table.size
  · simp [get?, push, size, same]
  · simp only [get?, push, same, ↓reduceIte]
    have other : key ≠ table.entries.length := same
    rcases Nat.lt_or_gt_of_ne other with below | above
    · rw [List.getElem?_append_left below]
    · rw [List.getElem?_append_right (Nat.le_of_lt above),
        List.getElem?_eq_none (by simp; omega),
        List.getElem?_eq_none (Nat.le_of_lt above)]

theorem get?_modify (table : Table α) (key other : Nat) (change : α → α) :
    (table.modify key change).get? other =
      if other = key then (table.get? other).map change else table.get? other := by
  simp only [get?, modify, List.getElem?_modify]
  by_cases same : key = other
  · simp [same]
  · simp [same, Ne.symm same]

@[simp] theorem modify_id (table : Table α) (key : Nat) : table.modify key id = table := by
  simp [modify]

theorem modify_modify (table : Table α) (key : Nat) (first second : α → α) :
    (table.modify key first).modify key second = table.modify key (second ∘ first) := by
  simp [modify, List.modify_modify_eq]

theorem get?_eq_none_iff (table : Table α) (key : Nat) :
    table.get? key = none ↔ table.size ≤ key := by
  simp [get?, size]

theorem get?_size (table : Table α) : table.get? table.size = none :=
  (get?_eq_none_iff _ _).mpr (Nat.le_refl _)

/-- What a table holds after an entry was added it held before, or it is that entry. -/
theorem get?_push_eq_some_iff {table : Table α} {entry found : α} {key : Nat} :
    (table.push entry).get? key = some found ↔
      table.get? key = some found ∨ key = table.size ∧ found = entry := by
  rw [get?_push]
  split
  · next last =>
      have absent : table.get? key = none :=
        (get?_eq_none_iff _ _).mpr (Nat.le_of_eq last.symm)
      rw [absent]
      simp [last, @eq_comm _ entry]
  · next earlier => simp [earlier]

theorem lt_size_of_found {table : Table α} {key : Nat} {entry : α}
    (found : table.get? key = some entry) : key < table.size :=
  (List.getElem?_eq_some_iff.mp found).1

theorem mem_keysWhere {table : Table α} {property : Nat → α → Bool} {key : Nat} :
    key ∈ table.keysWhere property ↔
      ∃ entry, table.get? key = some entry ∧ property key entry := by
  rw [keysWhere, List.mem_filter, List.mem_range, Option.any_eq_true]
  constructor
  · exact And.right
  · rintro ⟨entry, found, holds⟩
    exact ⟨lt_size_of_found found, entry, found, holds⟩

end Table

end Hydration
