import Hydration.Text.Blank
import Mathlib.Data.List.DropRight
import Mathlib.Data.List.TakeWhile

/-!
# Trimming

What trimming takes off is white space, and what it leaves begins and ends with
none.  So a text is trimmed to another if and only if it is that text between
blanks.
-/

namespace Hydration

namespace Text

/-- A text of white space. -/
def IsBlankText (text : List Char) : Prop :=
  ∀ character ∈ text, isBlank character

variable {blanks text : List Char} {character : Char}

@[simp] theorem isBlankText_nil : IsBlankText [] :=
  fun _ member => absurd member List.not_mem_nil

theorem IsBlankText.append
    {others : List Char}
    (blank : IsBlankText blanks)
    (alsoBlank : IsBlankText others) :
    IsBlankText (blanks ++ others) :=
  fun character member => (List.mem_append.mp member).elim (blank character) (alsoBlank character)

/-- Only blanks stand in white space. -/
theorem IsBlankText.not_mem
    (blank : IsBlankText blanks)
    (free : isBlank character = false) :
    character ∉ blanks := by
  intro member
  rw [blank character member] at free
  cases free

/-- Where a text follows blanks, what does not begin with a blank begins behind them. -/
theorem exists_of_blanks_append
    {gap core : List Char}
    (blank : IsBlankText blanks)
    (start : ∃ first ∈ core.head?, isBlank first = false)
    (same : blanks ++ text = gap ++ core) :
    ∃ between, gap = blanks ++ between ∧ text = between ++ core := by
  rcases List.append_eq_append_iff.mp same with ⟨between, gapShape, textShape⟩ |
    ⟨covered, blanksShape, coreShape⟩
  · exact ⟨between, gapShape, textShape⟩
  · cases covered with
    | nil => exact ⟨[], by simpa using blanksShape.symm, by simpa using coreShape.symm⟩
    | cons character others =>
        obtain ⟨first, head, free⟩ := start
        obtain rfl : character = first := by simpa [coreShape] using head
        exact absurd (by simp [blanksShape]) (blank.not_mem free)

/-- Where a text precedes blanks, what does not end with a blank ends before them. -/
theorem exists_of_append_blanks
    {core rest : List Char}
    (blank : IsBlankText blanks)
    (finish : ∃ last ∈ core.getLast?, isBlank last = false)
    (same : text ++ blanks = core ++ rest) :
    ∃ between, text = core ++ between ∧ rest = between ++ blanks := by
  rcases List.append_eq_append_iff.mp same with ⟨covered, coreShape, blanksShape⟩ |
    ⟨between, textShape, restShape⟩
  · rcases List.eq_nil_or_concat covered with rfl | ⟨others, character, rfl⟩
    · exact ⟨[], by simpa using coreShape.symm, by simpa using blanksShape.symm⟩
    · obtain ⟨last, end', free⟩ := finish
      obtain rfl : character = last := by simpa [coreShape] using end'
      exact absurd (by simp [blanksShape]) (blank.not_mem free)
  · exact ⟨between, textShape, restShape⟩

/-- The printable characters of the smallest alphabet are not white space. -/
theorem isBlank_of_printable (above : 32 < character.toNat) (below : character.toNat < 127) :
    isBlank character = false := by
  simp only [isBlank, blankRanges, List.any_cons, List.any_nil, Bool.or_false,
    Bool.or_eq_false_iff, Bool.and_eq_false_iff, decide_eq_false_iff_not]
  omega

/-- Leading blanks are trimmed, and nothing behind them. -/
theorem trimStart_append
    (blank : IsBlankText blanks)
    (start : ∀ next ∈ text.head?, isBlank next = false) :
    trimStart (blanks ++ text) = text := by
  rw [trimStart, List.dropWhile_append_of_pos blank]
  cases text with
  | nil => rfl
  | cons character rest => rw [List.dropWhile_cons_of_neg (by simp [start character rfl])]

/-- What was trimmed from the start of a text is white space. -/
theorem exists_blanks_trimStart (text : List Char) :
    ∃ blanks, IsBlankText blanks ∧ text = blanks ++ trimStart text :=
  ⟨text.takeWhile isBlank, fun _ member => List.mem_takeWhile_imp member,
    List.takeWhile_append_dropWhile.symm⟩

theorem trimStart_eq_nil_iff : trimStart text = [] ↔ IsBlankText text :=
  List.dropWhile_eq_nil_iff

/-- What was trimmed from the end of a text is white space. -/
theorem exists_blanks_trimEnd (text : List Char) :
    ∃ blanks, IsBlankText blanks ∧ text = trimEnd text ++ blanks :=
  ⟨text.rtakeWhile isBlank, fun _ member => List.mem_rtakeWhile_imp member,
    List.rdropWhile_append_rtakeWhile.symm⟩

/-- Nothing is trimmed from the end of a text that does not end in a blank. -/
theorem trimEnd_eq_self_iff :
    trimEnd text = text ↔ ∀ last ∈ text.getLast?, isBlank last = false := by
  constructor
  · intro trimmed last member
    have nonempty : text ≠ [] := by
      rintro rfl
      cases member
    have free := List.rdropWhile_eq_self_iff.mp trimmed nonempty
    rw [List.getLast?_eq_some_getLast nonempty] at member
    cases member
    simpa using free
  · intro firm
    refine List.rdropWhile_eq_self_iff.mpr fun nonempty => ?_
    simp [firm _ (List.getLast?_eq_some_getLast nonempty)]

/-- A text whose end is trimmed stays so without its beginning. -/
theorem trimEnd_of_append
    {first second : List Char}
    (trimmed : trimEnd (first ++ second) = first ++ second) :
    trimEnd second = second := by
  refine List.rdropWhile_eq_self_iff.mpr fun nonempty => ?_
  have last :=
    List.rdropWhile_eq_self_iff.mp trimmed (List.append_ne_nil_of_right_ne_nil _ nonempty)
  rwa [List.getLast_append_of_ne_nil _ nonempty] at last

/-- Only the end of a text says whether there is something to trim from it. -/
theorem trimEnd_append
    {second : List Char}
    (first : List Char)
    (nonempty : second ≠ [])
    (trimmed : trimEnd second = second) :
    trimEnd (first ++ second) = first ++ second := by
  refine List.rdropWhile_eq_self_iff.mpr fun _ => ?_
  rw [List.getLast_append_of_ne_nil _ nonempty]
  exact List.rdropWhile_eq_self_iff.mp trimmed nonempty

/-- Blanks at the end of a text are trimmed. -/
theorem trimEnd_append_blanks
    (text : List Char)
    (blank : IsBlankText blanks) :
    trimEnd (text ++ blanks) = trimEnd text := by
  rw [trimEnd, List.reverse_append, List.dropWhile_append_of_pos fun character member =>
    blank character (List.mem_reverse.mp member)]
  rfl

/-- Trimming takes something off both ends. -/
theorem exists_eq_append_trim (text : List Char) :
    ∃ first last, text = first ++ trim text ++ last := by
  obtain ⟨last, ends⟩ : trim text <+: trimStart text := List.rdropWhile_prefix _ _
  refine ⟨text.takeWhile isBlank, last, ?_⟩
  rw [List.append_assoc, ends, trimStart, List.takeWhile_append_dropWhile]

theorem trimEnd_trim (text : List Char) : trimEnd (trim text) = trim text :=
  List.rdropWhile_idempotent _ _

theorem trim_trim (text : List Char) : trim (trim text) = trim text := by
  have start : trimStart (trim text) = trim text := by
    obtain ⟨last, ends⟩ : trim text <+: trimStart text := List.rdropWhile_prefix _ _
    have first := List.head?_dropWhile_not isBlank text
    cases shape : trim text with
    | nil => rfl
    | cons character rest =>
        rw [← trimStart, ← ends, shape] at first
        simpa [trimStart] using first
  rw [trim, start, trimEnd_trim]

/-- A text whose end is trimmed does not end in blanks. -/
theorem eq_nil_of_trimEnd_append
    {text blanks : List Char}
    (trimmed : trimEnd (text ++ blanks) = text ++ blanks)
    (allBlank : ∀ blank ∈ blanks, isBlank blank) :
    blanks = [] := by
  have same : trimEnd blanks = blanks := trimEnd_of_append trimmed
  rw [← same]
  exact List.rdropWhile_eq_nil_iff.mpr allBlank

/-- What trimming takes off both ends is white space. -/
theorem exists_blanks_trim (text : List Char) :
    ∃ first last, IsBlankText first ∧ IsBlankText last ∧ text = first ++ trim text ++ last := by
  obtain ⟨first, blankFirst, shape⟩ := exists_blanks_trimStart text
  obtain ⟨last, blankLast, ends⟩ := exists_blanks_trimEnd (trimStart text)
  refine ⟨first, last, blankFirst, blankLast, ?_⟩
  rw [List.append_assoc, trim, ← ends]
  exact shape

/-- Blanks at both ends are trimmed. -/
theorem trim_append
    {first last : List Char}
    (blankFirst : IsBlankText first)
    (blankLast : IsBlankText last) :
    trim (first ++ text ++ last) = trim text := by
  rw [trim, trimStart, List.append_assoc, List.dropWhile_append_of_pos blankFirst,
    List.dropWhile_append, trim, trimStart]
  split
  · next blank =>
      rw [List.isEmpty_iff] at blank
      rw [blank, List.dropWhile_eq_nil_iff.mpr blankLast]
  · exact trimEnd_append_blanks _ blankLast

theorem trim_append_left {first : List Char} (blank : IsBlankText first) :
    trim (first ++ text) = trim text := by
  have whole : trim (first ++ text ++ []) = trim text := trim_append blank isBlankText_nil
  simpa using whole

theorem trim_append_right {last : List Char} (blank : IsBlankText last) :
    trim (text ++ last) = trim text := by
  have whole : trim ([] ++ text ++ last) = trim text := trim_append isBlankText_nil blank
  simpa using whole

theorem trim_of_blank (blank : IsBlankText text) : trim text = [] := by
  rw [trim, trimStart_eq_nil_iff.mpr blank]
  rfl

/-- Only white space is trimmed to nothing. -/
theorem trim_eq_nil_iff : trim text = [] ↔ IsBlankText text := by
  refine ⟨fun nothing => ?_, trim_of_blank⟩
  obtain ⟨first, last, blankFirst, blankLast, shape⟩ := exists_blanks_trim text
  rw [shape, nothing, List.append_nil]
  exact blankFirst.append blankLast

/-- A text that begins and ends with no blank is not trimmed. -/
theorem trim_of_ends
    (start : ∀ first ∈ text.head?, isBlank first = false)
    (finish : ∀ last ∈ text.getLast?, isBlank last = false) :
    trim text = text := by
  rw [trim, show trimStart text = text from trimStart_append isBlankText_nil start]
  exact trimEnd_eq_self_iff.mpr finish

end Text

end Hydration
