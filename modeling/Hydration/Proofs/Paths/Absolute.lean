import Hydration.Path
import Mathlib.Data.List.TakeWhile

/-!
# Absolute paths are fixed points

An absolute path is spelled in one way only: resolving it again gives the same
path, against whatever base.  A rooted path with resolved segments has no two
slashes in a row, so it is never taken for a URL, and the scheme and authority of
a URL are found again where they were.
-/

namespace Hydration

namespace Path

/-- A segment that is neither empty nor a dot segment, and that holds no slash. -/
structure IsPlain (segment : List Char) : Prop where
  nonempty : segment ≠ []
  here : segment ≠ ['.']
  above : segment ≠ ['.', '.']
  whole : '/' ∉ segment

theorem descend_of_plain
    {walked : List (List Char)}
    {segment : List Char}
    (plain : IsPlain segment) :
    descend walked segment = segment :: walked := by
  simp [descend, plain.nonempty, plain.here, plain.above]

/-- Plain segments are walked as they are. -/
theorem foldl_descend_of_plain
    {pieces : List (List Char)}
    (plain : ∀ piece ∈ pieces, IsPlain piece)
    (walked : List (List Char)) :
    pieces.foldl descend walked = pieces.reverse ++ walked := by
  induction pieces generalizing walked with
  | nil => rfl
  | cons piece rest inductionHypothesis =>
      obtain ⟨first, others⟩ := List.forall_mem_cons.mp plain
      rw [List.foldl_cons, descend_of_plain first, inductionHypothesis others,
        List.reverse_cons, List.append_assoc, List.singleton_append]

/-- Whatever is walked without slashes, only plain segments are kept. -/
theorem plain_of_mem_foldl_descend
    {pieces walked : List (List Char)}
    (whole : ∀ piece ∈ pieces, '/' ∉ piece)
    (plain : ∀ segment ∈ walked, IsPlain segment) :
    ∀ segment ∈ pieces.foldl descend walked, IsPlain segment := by
  induction pieces generalizing walked with
  | nil => exact plain
  | cons piece rest inductionHypothesis =>
      obtain ⟨first, others⟩ := List.forall_mem_cons.mp whole
      refine inductionHypothesis others ?_
      intro segment member
      unfold descend at member
      split at member
      · exact plain segment member
      · next kept =>
          split at member
          · exact plain segment (List.mem_of_mem_tail member)
          · next below =>
              rcases List.mem_cons.mp member with rfl | walkedBefore
              · exact ⟨fun empty => kept (.inl empty), fun dot => kept (.inr dot), below, first⟩
              · exact plain segment walkedBefore

theorem plain_of_mem_segments {path segment : List Char} (member : segment ∈ segments path) :
    IsPlain segment := by
  refine plain_of_mem_foldl_descend (fun piece => Text.not_mem_of_mem_fields) ?_ segment
    (List.mem_reverse.mp member)
  exact fun _ none => absurd none List.not_mem_nil

/-- A slash in front adds no segment. -/
theorem segments_cons_slash (path : List Char) : segments ('/' :: path) = segments path := by
  simp [segments, Text.fields, descend]

theorem segments_joined
    {pieces : List (List Char)}
    (plain : ∀ piece ∈ pieces, IsPlain piece) :
    segments (Text.joined '/' pieces) = pieces := by
  by_cases any : pieces = []
  · subst any
    rfl
  · rw [segments, Text.fields_joined any fun piece member => (plain piece member).whole,
      foldl_descend_of_plain plain, List.append_nil, List.reverse_reverse]

theorem segments_normalise (path : List Char) : segments (normalise path) = segments path := by
  rw [normalise, segments_cons_slash, segments_joined fun _ => plain_of_mem_segments]

/-- A path whose segments are resolved stays as it is. -/
theorem normalise_normalise (path : List Char) :
    normalise (normalise path) = normalise path := by
  rw [normalise, segments_normalise, normalise]

/-- A text with a scheme is the scheme up to `://` and the rest. -/
theorem append_of_splitScheme?
    {path scheme rest : List Char}
    (found : splitScheme? path = some (scheme, rest)) :
    ∃ before, scheme = before ++ [':', '/', '/'] ∧ path = scheme ++ rest := by
  induction path generalizing scheme with
  | nil => cases found
  | cons character others inductionHypothesis =>
      unfold splitScheme? at found
      split at found
      · cases found
        exact ⟨[], rfl, rfl⟩
      · obtain ⟨⟨later, _⟩, there, same⟩ := Option.map_eq_some_iff.mp found
        cases same
        obtain ⟨before, rfl, split⟩ := inductionHypothesis there
        exact ⟨character :: before, rfl, congrArg (character :: ·) split⟩

/-- The scheme is found again whatever follows it. -/
theorem splitScheme?_append
    {path scheme rest : List Char}
    (found : splitScheme? path = some (scheme, rest))
    (other : List Char) :
    splitScheme? (scheme ++ other) = some (scheme, other) := by
  induction path generalizing scheme with
  | nil => cases found
  | cons character others inductionHypothesis =>
      unfold splitScheme? at found
      split at found
      · cases found
        rfl
      · next unmarked =>
          obtain ⟨⟨later, behind⟩, there, same⟩ := Option.map_eq_some_iff.mp found
          cases same
          obtain ⟨before, rfl, split⟩ := append_of_splitScheme? there
          rw [List.cons_append, splitScheme?, inductionHypothesis there, Option.map_some]
          -- The mark cannot stand across the seam, for the scheme is as long as the mark.
          intro after colon slashes
          refine unmarked (others.drop 2) colon ?_
          rw [split]
          rcases before with _ | ⟨first, _ | ⟨second, before⟩⟩
          · simp at slashes
          · simp at slashes
          · simp only [List.cons_append, List.cons.injEq] at slashes ⊢
            exact ⟨slashes.1, slashes.2.1, rfl⟩

/-- A rooted path with resolved segments is no URL. -/
theorem splitScheme?_normalise (path : List Char) : splitScheme? (normalise path) = none := by
  refine Option.eq_none_iff_forall_not_mem.mpr ?_
  rintro ⟨scheme, rest⟩ found
  obtain ⟨before, rfl, split⟩ := append_of_splitScheme? found
  have plain : ∀ segment ∈ segments path, IsPlain segment := fun _ => plain_of_mem_segments
  -- Two slashes in a row would enclose an empty piece.
  have gap : [] ∈ Text.fields '/' (Text.joined '/' (segments path)) := by
    cases before with
    | nil => cases split
    | cons first others =>
        have tail : Text.joined '/' (segments path) = (others ++ [':']) ++ '/' :: '/' :: rest := by
          simpa [normalise] using (List.cons.inj split).2
        rw [tail, Text.fields_append_separator, Text.fields, if_pos rfl]
        exact List.mem_append_right _ List.mem_cons_self
  by_cases any : segments path = []
  · cases before with
    | nil => cases split
    | cons => simp [normalise, any, Text.joined] at split
  · rw [Text.fields_joined any fun piece member => (plain piece member).whole] at gap
    exact (plain [] gap).nonempty rfl

/-- The canonical spelling of a URL is a URL in canonical spelling. -/
theorem ofUrl?_of_ofUrl? {path url : List Char} (found : ofUrl? path = some url) :
    ofUrl? url = some url := by
  obtain ⟨⟨scheme, rest⟩, there, rfl⟩ := Option.map_eq_some_iff.mp found
  dsimp only
  generalize tail : rest.dropWhile (· ≠ '/') = path
  have authority : ∀ character ∈ rest.takeWhile (· ≠ '/'), decide (character ≠ '/') = true :=
    fun _ => List.mem_takeWhile_imp
  rw [ofUrl?, List.append_assoc, splitScheme?_append there, Option.map_some]
  by_cases empty : path = []
  · simp only [if_pos empty, List.append_nil]
    rw [List.takeWhile_eq_self_iff.mpr authority, List.dropWhile_eq_nil_iff.mpr authority]
    simp
  · simp only [if_neg empty]
    rw [List.takeWhile_append_of_pos authority, List.dropWhile_append_of_pos authority]
    have rooted : (normalise path).takeWhile (· ≠ '/') = [] := rfl
    have whole : (normalise path).dropWhile (· ≠ '/') = normalise path := rfl
    rw [rooted, whole, if_neg (by simp [normalise]), normalise_normalise, List.append_nil,
      List.append_assoc]

theorem resolve_of_ofUrl? {url : List Char} (isUrl : ofUrl? url = some url) (base : List Char) :
    resolve base url = url := by
  rw [resolve, isUrl]

theorem resolve_normalise (base path : List Char) :
    resolve base (normalise path) = normalise path := by
  have rooted : (normalise path).head? = some '/' := rfl
  rw [resolve, ofUrl?, splitScheme?_normalise, Option.map_none]
  simp only [rooted, if_pos, normalise_normalise]

/-- A resolved path is a URL in canonical spelling or a rooted path with resolved segments. -/
theorem resolve_cases (base path : List Char) :
    ofUrl? (resolve base path) = some (resolve base path) ∨
      ∃ other, resolve base path = normalise other := by
  unfold resolve
  split
  · next url isUrl => exact .inl (ofUrl?_of_ofUrl? isUrl)
  · split
    · exact .inr ⟨_, rfl⟩
    · split
      · dsimp only
        cases isUrl : ofUrl? (trimSlashes base ++ '/' :: path) with
        | none => exact .inr ⟨_, rfl⟩
        | some url => exact .inl (ofUrl?_of_ofUrl? isUrl)
      · exact .inr ⟨_, rfl⟩

/-- An absolute path stays as it is, whatever base it is resolved against. -/
theorem absolute_absolute (base other path : String) :
    absolute other (absolute base path) = absolute base path := by
  simp only [absolute, String.toList_ofList]
  rcases resolve_cases base.toList path.toList with isUrl | ⟨rooted, same⟩
  · rw [resolve_of_ofUrl? isUrl]
  · rw [same, resolve_normalise]

theorem absolute_ne_empty (base path : String) : absolute base path ≠ "" := by
  intro empty
  have nothing : resolve base.toList path.toList = [] := by
    simpa [absolute] using empty
  rcases resolve_cases base.toList path.toList with isUrl | ⟨rooted, same⟩
  · rw [nothing] at isUrl
    cases isUrl
  · cases same.symm.trans nothing

end Path

end Hydration
