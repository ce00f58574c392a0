/-!
# Texts in order

Texts are ordered by the code points of their characters.  Named values are
kept in lists that are ascending in their names, one value for each name.
-/

namespace Hydration

namespace Text

/-- Puts a text before the first one that is not below it. -/
def insertInOrder (text : String) : List String → List String
  | [] => [text]
  | first :: rest =>
      if first < text then first :: insertInOrder text rest
      else text :: first :: rest

/-- The texts in ascending order. -/
def inOrder (texts : List String) : List String :=
  texts.foldr insertInOrder []

/-- Gives a name a value; the list stays ascending and the name unique. -/
def assign {α : Type} (name : String) (value : α) :
    List (String × α) → List (String × α)
  | [] => [(name, value)]
  | first :: rest =>
      if first.1 = name then (name, value) :: rest
      else if first.1 < name then first :: assign name value rest
      else (name, value) :: first :: rest

def valueOf? {α : Type} (name : String) (values : List (String × α)) : Option α :=
  (values.find? fun entry => entry.1 = name).map Prod.snd

/-- The values without that of a name. -/
def unassign {α : Type} (name : String) (values : List (String × α)) :
    List (String × α) :=
  values.filter fun entry => entry.1 ≠ name

theorem valueOf?_assign
    {α : Type}
    (name other : String)
    (value : α)
    (values : List (String × α)) :
    valueOf? other (assign name value values) =
      if other = name then some value else valueOf? other values := by
  induction values with
  | nil =>
      by_cases same : other = name
      · simp [assign, valueOf?, same]
      · simp [assign, valueOf?, same, Ne.symm same]
  | cons first rest inductionHypothesis =>
      simp only [valueOf?] at inductionHypothesis
      by_cases same : other = name
      · subst same
        simp only [assign]
        split
        · simp [valueOf?]
        · next differs =>
            split
            · simpa [valueOf?, differs] using inductionHypothesis
            · simp [valueOf?]
      · simp only [same, ↓reduceIte] at inductionHypothesis ⊢
        simp only [assign]
        split
        · next sameName =>
            have differs : first.1 ≠ other := fun found =>
              same (found.symm.trans sameName)
            simp [valueOf?, differs, Ne.symm same]
        · split
          · by_cases found : first.1 = other
            · simp [valueOf?, found]
            · simpa [valueOf?, found] using inductionHypothesis
          · simp [valueOf?, Ne.symm same]

end Text

end Hydration
