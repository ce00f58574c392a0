/-!
# Fields of a text

Cutting a text at every separator and putting the pieces together again.  The
cut keeps empty pieces, so that joining is its inverse.
-/

namespace Hydration

namespace Text

/-- The pieces between the separators; there is always one more than separators. -/
def fields (separator : Char) : List Char → List (List Char)
  | [] => [[]]
  | character :: rest =>
      if character = separator then
        [] :: fields separator rest
      else
        match fields separator rest with
        | [] => [[character]]
        | piece :: pieces => (character :: piece) :: pieces

/-- The pieces with the separator between neighbours. -/
def joined (separator : Char) : List (List Char) → List Char
  | [] => []
  | [piece] => piece
  | piece :: next :: rest => piece ++ separator :: joined separator (next :: rest)

/-- A cut text has at least one piece. -/
theorem fields_ne_nil
    (separator : Char)
    (text : List Char) :
    fields separator text ≠ [] := by
  cases text with
  | nil => simp [fields]
  | cons character rest =>
      simp only [fields]
      split
      · simp
      · split <;> simp

/-- Joining the pieces spells the text again. -/
theorem joined_fields
    (separator : Char)
    (text : List Char) :
    joined separator (fields separator text) = text := by
  induction text with
  | nil => rfl
  | cons character rest inductionHypothesis =>
      simp only [fields]
      split
      · next same =>
          subst same
          cases shape : fields character rest with
          | nil => exact absurd shape (fields_ne_nil character rest)
          | cons piece pieces =>
              rw [shape] at inductionHypothesis
              simp [joined, inductionHypothesis]
      · cases shape : fields separator rest with
        | nil => exact absurd shape (fields_ne_nil separator rest)
        | cons piece pieces =>
            rw [shape] at inductionHypothesis
            cases pieces with
            | nil => simpa [joined] using inductionHypothesis
            | cons next others =>
                simp only [joined] at inductionHypothesis ⊢
                simp [inductionHypothesis]

/-- No piece holds the separator. -/
theorem not_mem_of_mem_fields
    {separator : Char}
    {text piece : List Char}
    (member : piece ∈ fields separator text) :
    separator ∉ piece := by
  induction text generalizing piece with
  | nil =>
      rw [fields, List.mem_singleton] at member
      simp [member]
  | cons character rest inductionHypothesis =>
      simp only [fields] at member
      split at member
      · rcases List.mem_cons.mp member with rfl | later
        · simp
        · exact inductionHypothesis later
      · next differs =>
          cases shape : fields separator rest with
          | nil => exact absurd shape (fields_ne_nil separator rest)
          | cons first others =>
              rw [shape] at member inductionHypothesis
              rcases List.mem_cons.mp member with rfl | later
              · simp [Ne.symm differs, inductionHypothesis List.mem_cons_self]
              · exact inductionHypothesis (List.mem_cons_of_mem _ later)

/-- The pieces are made of the text. -/
theorem subset_of_mem_fields
    {separator : Char}
    {text piece : List Char}
    (member : piece ∈ fields separator text) :
    piece ⊆ text := by
  induction text generalizing piece with
  | nil =>
      rw [fields, List.mem_singleton] at member
      simp [member]
  | cons character rest inductionHypothesis =>
      simp only [fields] at member
      split at member
      · rcases List.mem_cons.mp member with rfl | later
        · exact List.nil_subset _
        · exact List.subset_cons_of_subset _ (inductionHypothesis later)
      · cases shape : fields separator rest with
        | nil => exact absurd shape (fields_ne_nil separator rest)
        | cons first others =>
            rw [shape] at member inductionHypothesis
            rcases List.mem_cons.mp member with rfl | later
            · exact List.cons_subset_cons _ (inductionHypothesis List.mem_cons_self)
            · exact List.subset_cons_of_subset _
                (inductionHypothesis (List.mem_cons_of_mem _ later))

/-- A separator ends the pieces before it and begins those after it. -/
theorem fields_append_separator
    (separator : Char)
    (before after : List Char) :
    fields separator (before ++ separator :: after) =
      fields separator before ++ fields separator after := by
  induction before with
  | nil => simp [fields]
  | cons character rest inductionHypothesis =>
      simp only [List.cons_append, fields, inductionHypothesis]
      split
      · rfl
      · cases shape : fields separator rest with
        | nil => exact absurd shape (fields_ne_nil separator rest)
        | cons first others => rfl

/-- A text without the separator in front belongs to the first piece. -/
theorem fields_append_left
    {separator : Char}
    {first : List Char}
    (clear : separator ∉ first)
    (text : List Char) :
    ∃ piece pieces, fields separator text = piece :: pieces ∧
      fields separator (first ++ text) = (first ++ piece) :: pieces := by
  obtain ⟨piece, pieces, shape⟩ := List.exists_cons_of_ne_nil (fields_ne_nil separator text)
  refine ⟨piece, pieces, shape, ?_⟩
  induction first with
  | nil => exact shape
  | cons character rest inductionHypothesis =>
      obtain ⟨differs, clearRest⟩ := not_or.mp (mt List.mem_cons.mpr clear)
      rw [List.cons_append, fields, if_neg (Ne.symm differs), inductionHypothesis clearRest]
      rfl

/-- A text without the separator behind belongs to the last piece. -/
theorem fields_append_right
    {separator : Char}
    {last : List Char}
    (clear : separator ∉ last)
    (text : List Char) :
    ∃ pieces piece, fields separator text = pieces ++ [piece] ∧
      fields separator (text ++ last) = pieces ++ [piece ++ last] := by
  induction text with
  | nil =>
      refine ⟨[], [], rfl, ?_⟩
      obtain ⟨piece, pieces, shape, whole⟩ := fields_append_left clear []
      cases shape
      simpa using whole
  | cons character rest inductionHypothesis =>
      obtain ⟨pieces, piece, shape, whole⟩ := inductionHypothesis
      rw [List.cons_append, fields, fields, shape, whole]
      split
      · exact ⟨[] :: pieces, piece, rfl, rfl⟩
      · cases pieces with
        | nil => exact ⟨[], character :: piece, rfl, rfl⟩
        | cons first others => exact ⟨(character :: first) :: others, piece, rfl, rfl⟩

/-- A text without the separator is a single piece. -/
theorem fields_of_not_mem
    {separator : Char}
    {text : List Char}
    (clear : separator ∉ text) :
    fields separator text = [text] := by
  induction text with
  | nil => rfl
  | cons character rest inductionHypothesis =>
      obtain ⟨differs, clearRest⟩ := not_or.mp (mt List.mem_cons.mpr clear)
      rw [fields, if_neg (Ne.symm differs), inductionHypothesis clearRest]

/-- Cutting takes joined pieces apart again, unless one of them holds the separator. -/
theorem fields_joined
    {separator : Char}
    {pieces : List (List Char)}
    (any : pieces ≠ [])
    (clear : ∀ piece ∈ pieces, separator ∉ piece) :
    fields separator (joined separator pieces) = pieces := by
  induction pieces with
  | nil => exact absurd rfl any
  | cons piece rest inductionHypothesis =>
      obtain ⟨clearPiece, clearRest⟩ := List.forall_mem_cons.mp clear
      cases rest with
      | nil => exact fields_of_not_mem clearPiece
      | cons next others =>
          rw [joined, fields_append_separator, fields_of_not_mem clearPiece,
            inductionHypothesis (List.cons_ne_nil _ _) clearRest, List.singleton_append]

end Text

end Hydration
