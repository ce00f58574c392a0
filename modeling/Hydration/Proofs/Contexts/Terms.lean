import Hydration.Context.Parser
import Hydration.Proofs.Texts.Trimming

/-!
# How the text of a context is cut

A text is cut at its separators from the front.  Whether it is cut at a place
depends only on the character before that place and on what follows up to the
next `@`.  So the terms of texts that are joined by separators are the terms of
each text in turn, as long as no text ends in a blank.
-/

namespace Hydration

namespace Context

/-- A separator is `and` behind an ASCII blank, and after blanks of its own an `@`. -/
theorem afterSeparator?_eq_some_iff {before text after : List Char} :
    afterSeparator? before text = some after ↔
      (∃ last earlier, before = last :: earlier ∧ Text.isAsciiBlank last) ∧
        ∃ gap blanks, Text.isBlank gap ∧ (∀ blank ∈ blanks, Text.isBlank blank) ∧
          text = 'a' :: 'n' :: 'd' :: gap :: (blanks ++ '@' :: after) := by
  constructor
  · intro found
    unfold afterSeparator? at found
    split at found
    · next last earlier gap rest =>
        split at found
        · next blank =>
            obtain ⟨lastBlank, gapBlank⟩ := Bool.and_eq_true_iff.mp blank
            split at found
            · next shape =>
                cases found
                refine ⟨⟨last, earlier, rfl, lastBlank⟩, gap, rest.takeWhile Text.isBlank,
                  gapBlank, fun blank member => List.mem_takeWhile_imp member, ?_⟩
                rw [← shape, Text.trimStart, List.takeWhile_append_dropWhile]
            · cases found
        · cases found
    · cases found
  · rintro ⟨⟨last, earlier, rfl, lastBlank⟩, gap, blanks, gapBlank, allBlank, rfl⟩
    have shape : Text.trimStart (blanks ++ '@' :: after) = '@' :: after := by
      rw [Text.trimStart, List.dropWhile_append_of_pos allBlank]
      rfl
    simp [afterSeparator?, lastBlank, gapBlank, shape]

variable {before text after : List Char}

/-- A separator stays one whatever follows. -/
theorem afterSeparator?_append
    (found : afterSeparator? before text = some after)
    (more : List Char) :
    afterSeparator? before (text ++ more) = some (after ++ more) := by
  obtain ⟨behind, gap, blanks, gapBlank, allBlank, rfl⟩ := afterSeparator?_eq_some_iff.mp found
  exact afterSeparator?_eq_some_iff.mpr ⟨behind, gap, blanks, gapBlank, allBlank, by simp⟩

theorem afterSeparator?_eq_none_of_append
    {more : List Char}
    (absent : afterSeparator? before (text ++ more) = none) :
    afterSeparator? before text = none := by
  cases found : afterSeparator? before text with
  | none => rfl
  | some after =>
      rw [afterSeparator?_append found] at absent
      cases absent

/-- Of what was passed only the last character counts. -/
theorem afterSeparator?_reverse_append
    {passed : List Char}
    (nonempty : passed ≠ [])
    (earlier text : List Char) :
    afterSeparator? (passed.reverse ++ earlier) text = afterSeparator? passed.reverse text := by
  obtain ⟨last, others, shape⟩ := List.exists_cons_of_ne_nil (List.reverse_ne_nil_iff.mpr nonempty)
  ext after
  simp [afterSeparator?_eq_some_iff, shape]

/-- No separator begins at the front of a text or behind a character that is no blank. -/
theorem afterSeparator?_reverse_of_not_blank
    {passed : List Char}
    (free : ∀ last ∈ passed, Text.isBlank last = false)
    (text : List Char) :
    afterSeparator? passed.reverse text = none := by
  rw [Option.eq_none_iff_forall_ne_some]
  intro after found
  obtain ⟨⟨last, earlier, shape, blank⟩, _⟩ := afterSeparator?_eq_some_iff.mp found
  have member : last ∈ passed := by
    rw [← List.mem_reverse, shape]
    exact List.mem_cons_self
  cases (free last member).symm.trans (Text.isBlank_of_isAsciiBlank blank)

/-- A text that begins with another letter than `a` does not begin with a separator. -/
theorem afterSeparator?_of_ne
    {first : Char}
    {rest : List Char}
    (differs : first ≠ 'a') :
    afterSeparator? before (first :: rest) = none := by
  rw [Option.eq_none_iff_forall_ne_some]
  intro after found
  obtain ⟨_, _, _, _, _, same⟩ := afterSeparator?_eq_some_iff.mp found
  exact differs (List.cons.inj same).1

/--
The texts that separate terms: blanks of which the last is an ASCII one, `and`,
more blanks, and the `@` of the next term.
-/
inductive IsSeparator : List Char → Prop where
  | intro
      {blanks gap : List Char}
      {last : Char}
      (blank : Text.IsBlankText blanks)
      (ascii : Text.isAsciiBlank last)
      (nonempty : gap ≠ [])
      (blankGap : Text.IsBlankText gap) :
      IsSeparator (blanks ++ last :: 'a' :: 'n' :: 'd' :: (gap ++ ['@']))

/-- A separator is found at its `and`, which stands behind its first blanks. -/
theorem IsSeparator.exists_blanks
    {separator : List Char}
    (isSeparator : IsSeparator separator)
    (rest : List Char) :
    ∃ blanks last others, Text.IsBlankText (blanks ++ [last]) ∧
      separator ++ rest = (blanks ++ [last]) ++ 'a' :: others ∧
      ∀ before, afterSeparator? (last :: before) ('a' :: others) = some rest := by
  cases isSeparator with
  | @intro blanks gap last blank ascii nonempty blankGap =>
      obtain ⟨first, others, rfl⟩ := List.exists_cons_of_ne_nil nonempty
      obtain ⟨blankFirst, blankOthers⟩ := List.forall_mem_cons.mp blankGap
      refine ⟨blanks, last, 'n' :: 'd' :: first :: (others ++ '@' :: rest), ?_, by simp, ?_⟩
      · exact blank.append (List.forall_mem_singleton.mpr (Text.isBlank_of_isAsciiBlank ascii))
      · intro before
        exact afterSeparator?_eq_some_iff.mpr
          ⟨⟨last, before, rfl, ascii⟩, first, others, blankFirst, blankOthers, rfl⟩

/-- A separator begins with a blank. -/
theorem IsSeparator.exists_first
    {separator : List Char}
    (isSeparator : IsSeparator separator) :
    ∃ first others, separator = first :: others ∧ Text.isBlank first := by
  cases isSeparator with
  | @intro blanks gap last blank ascii =>
      cases blanks with
      | nil => exact ⟨last, _, rfl, Text.isBlank_of_isAsciiBlank ascii⟩
      | cons first others => exact ⟨first, _, rfl, blank first List.mem_cons_self⟩

/-- The separator of the canonical text, behind a condition and before the name of the next. -/
def separator : List Char :=
  [' ', 'a', 'n', 'd', ' ', '@']

theorem isSeparator_separator : IsSeparator separator :=
  IsSeparator.intro Text.isBlankText_nil (by decide) (List.cons_ne_nil ' ' [])
    (List.forall_mem_singleton.mpr (by decide))

/-- No separator begins in a text without blanks at its end and ends behind it. -/
theorem afterSeparator?_append_separator
    {separator rest : List Char}
    (isSeparator : IsSeparator separator)
    (nonempty : text ≠ [])
    (firm : Text.trimEnd text = text)
    (absent : afterSeparator? before text = none) :
    afterSeparator? before (text ++ (separator ++ rest)) = none := by
  obtain ⟨first, _, shape, firstBlank⟩ := isSeparator.exists_first
  rw [Option.eq_none_iff_forall_ne_some]
  intro after found
  obtain ⟨behind, gap, blanks, gapBlank, allBlank, same⟩ := afterSeparator?_eq_some_iff.mp found
  match text with
  | [] => exact nonempty rfl
  | [_] =>
      obtain ⟨_, rfl, _⟩ : _ ∧ first = 'n' ∧ _ := by simpa [shape] using same
      exact absurd firstBlank (by decide)
  | [_, _] =>
      obtain ⟨_, _, rfl, _⟩ : _ ∧ _ ∧ first = 'd' ∧ _ := by simpa [shape] using same
      exact absurd firstBlank (by decide)
  | [_, _, _] =>
      -- Behind its first blanks the separator has an `and`, and not an `@`.
      obtain ⟨_, _, _, onward⟩ : _ ∧ _ ∧ _ ∧ separator ++ rest = (gap :: blanks) ++ '@' :: after := by
        simpa using same
      obtain ⟨front, last, others, blankFront, spelled, _⟩ := isSeparator.exists_blanks rest
      have toAnd : Text.trimStart (separator ++ rest) = 'a' :: others := by
        rw [spelled]
        exact Text.trimStart_append blankFront (by simp; decide)
      have toAt : Text.trimStart (separator ++ rest) = '@' :: after := by
        rw [onward]
        exact Text.trimStart_append (List.forall_mem_cons.mpr ⟨gapBlank, allBlank⟩)
          (by simp; decide)
      simp [toAnd] at toAt
  | _ :: _ :: _ :: fourth :: others =>
      obtain ⟨rfl, rfl, rfl, rfl, onward⟩ : _ ∧ _ ∧ _ ∧ _ ∧ _ := by simpa using same
      rcases List.append_eq_append_iff.mp onward with ⟨behindText, split, _⟩ | ⟨within, split, tail⟩
      · -- The text would end among the blanks of the separator.
        have ends : ∀ blank ∈ fourth :: others, Text.isBlank blank := by
          intro blank member
          rcases List.mem_cons.mp member with rfl | inOthers
          · exact gapBlank
          · exact allBlank blank (by rw [split]; exact List.mem_append_left _ inOthers)
        have firmBehind : Text.trimEnd (['a', 'n', 'd'] ++ fourth :: others) =
            ['a', 'n', 'd'] ++ fourth :: others := firm
        exact List.cons_ne_nil _ _ (Text.eq_nil_of_trimEnd_append firmBehind ends)
      · cases within with
        | nil =>
            obtain ⟨rfl, _⟩ : '@' = first ∧ _ := by simpa [shape] using tail
            exact absurd firstBlank (by decide)
        | cons at_ within =>
            obtain ⟨rfl, _⟩ := List.cons.inj tail
            have inText : afterSeparator? before
                ('a' :: 'n' :: 'd' :: fourth :: others) = some within :=
              afterSeparator?_eq_some_iff.mpr
                ⟨behind, fourth, blanks, gapBlank, allBlank, by rw [split]⟩
            cases absent.symm.trans inText

theorem terms_of_some (found : afterSeparator? before text = some after) :
    terms before text = Text.trimEnd before.reverse :: terms [] after := by
  obtain ⟨_, _, _, _, _, rfl⟩ := afterSeparator?_eq_some_iff.mp found
  rw [terms]
  split
  · next other same =>
      cases found.symm.trans same
      rfl
  · next absent =>
      cases found.symm.trans absent

theorem terms_of_none
    {character : Char}
    {rest : List Char}
    (absent : afterSeparator? before (character :: rest) = none) :
    terms before (character :: rest) = terms (character :: before) rest := by
  rw [terms]
  split
  · next found =>
      cases absent.symm.trans found
  · rfl

/-- Blanks are passed: no separator is found at any of them. -/
theorem terms_append_blanks
    {blanks : List Char}
    (blank : Text.IsBlankText blanks) :
    terms before (blanks ++ text) = terms (blanks.reverse ++ before) text := by
  induction blanks generalizing before with
  | nil => rfl
  | cons first others inductionHypothesis =>
      obtain ⟨blankFirst, blankOthers⟩ := List.forall_mem_cons.mp blank
      have differs : first ≠ 'a' := by
        rintro rfl
        exact absurd blankFirst (by decide)
      rw [List.cons_append, terms_of_none (afterSeparator?_of_ne differs),
        inductionHypothesis blankOthers, List.reverse_cons, List.append_assoc]
      rfl

/-- The terms of texts that are joined by a separator are the terms of each. -/
theorem terms_append_separator
    {separator : List Char}
    (isSeparator : IsSeparator separator)
    (firm : Text.trimEnd (before.reverse ++ text) = before.reverse ++ text)
    (rest : List Char) :
    terms before (text ++ (separator ++ rest)) = terms before text ++ terms [] rest := by
  fun_induction terms before text with
  | case1 before =>
      obtain ⟨blanks, last, others, blank, spelled, found⟩ := isSeparator.exists_blanks rest
      rw [List.append_nil] at firm
      have passed : (blanks ++ [last]).reverse ++ before = last :: (blanks.reverse ++ before) := by
        simp
      have trimmed : Text.trimEnd (last :: (blanks.reverse ++ before)).reverse = before.reverse := by
        rw [← passed, List.reverse_append, List.reverse_reverse,
          Text.trimEnd_append_blanks _ blank, firm]
      rw [List.nil_append, spelled, terms_append_blanks blank, passed, terms_of_some (found _),
        trimmed]
      rfl
  | case2 before character others after found inductionHypothesis =>
      obtain ⟨_, gap, blanks, _, _, shape⟩ := afterSeparator?_eq_some_iff.mp found
      rw [terms_of_some (afterSeparator?_append found _), List.cons_append]
      congr 1
      apply inductionHypothesis
      let front := before.reverse ++ ('a' :: 'n' :: 'd' :: gap :: (blanks ++ ['@']))
      rw [shape] at firm
      have firmBehind : Text.trimEnd (front ++ after) = front ++ after := by
        simpa [front] using firm
      exact Text.trimEnd_of_append firmBehind
  | case3 before character others absent inductionHypothesis =>
      have firmText : Text.trimEnd (character :: others) = character :: others :=
        Text.trimEnd_of_append firm
      rw [List.cons_append, terms_of_none]
      · exact inductionHypothesis (by simpa using firm)
      · exact afterSeparator?_append_separator isSeparator (List.cons_ne_nil _ _) firmText absent

/-- Whether a text is cut somewhere, if `before` was passed before it. -/
def IsCut (before text : List Char) : Prop :=
  ∃ passed rest, text = passed ++ rest ∧ afterSeparator? (passed.reverse ++ before) rest ≠ none

/-- No separator begins inside a part of a text that is not cut. -/
theorem afterSeparator?_of_not_isCut
    {first passed rest last : List Char}
    (whole : ¬ IsCut [] (first ++ (passed ++ rest) ++ last))
    (nonempty : passed ≠ []) :
    afterSeparator? passed.reverse rest = none := by
  by_contra found
  refine whole ⟨first ++ passed, rest ++ last, by simp, fun absent => found ?_⟩
  rw [List.append_nil, List.reverse_append, afterSeparator?_reverse_append nonempty] at absent
  exact afterSeparator?_eq_none_of_append absent

theorem isCut_of_isCut_rest
    {character : Char}
    {rest : List Char}
    (cut : IsCut (character :: before) rest) :
    IsCut before (character :: rest) := by
  obtain ⟨passed, others, rfl, found⟩ := cut
  exact ⟨character :: passed, others, rfl, by simpa using found⟩

/-- A text that is not cut is a single term. -/
theorem terms_of_not_isCut (whole : ¬ IsCut before text) :
    terms before text = [before.reverse ++ text] := by
  induction text generalizing before with
  | nil => simp [terms]
  | cons character rest inductionHypothesis =>
      have absent : afterSeparator? before (character :: rest) = none := by
        by_contra found
        exact whole ⟨[], character :: rest, rfl, found⟩
      rw [terms_of_none absent, inductionHypothesis (whole ∘ isCut_of_isCut_rest)]
      simp

theorem terms_ne_nil (before text : List Char) : terms before text ≠ [] := by
  fun_induction terms before text with
  | case1 => simp
  | case2 => simp
  | case3 _ _ _ _ inductionHypothesis => exact inductionHypothesis

/-- A text that is cut has more than one term. -/
theorem one_lt_length_terms (cut : IsCut before text) : 1 < (terms before text).length := by
  induction text generalizing before with
  | nil =>
      obtain ⟨passed, rest, empty, found⟩ := cut
      obtain ⟨rfl, rfl⟩ := List.append_eq_nil_iff.mp empty.symm
      simp [afterSeparator?] at found
  | cons character others inductionHypothesis =>
      cases here : afterSeparator? before (character :: others) with
      | some after =>
          rw [terms_of_some here, List.length_cons]
          exact Nat.succ_lt_succ (List.length_pos_iff.mpr (terms_ne_nil [] after))
      | none =>
          rw [terms_of_none here]
          apply inductionHypothesis
          obtain ⟨passed, rest, shape, found⟩ := cut
          cases passed with
          | nil =>
              cases shape
              exact (found here).elim
          | cons first passed =>
              cases shape
              exact ⟨passed, rest, rfl, by simpa using found⟩

/-- What was passed before a text has held no separator, in view of the text. -/
def Passed (before text : List Char) : Prop :=
  ∀ passed rest, before.reverse = passed ++ rest → rest ≠ [] →
    afterSeparator? passed.reverse (rest ++ text) = none

theorem Passed.cons
    {character : Char}
    {rest : List Char}
    (passed : Passed before (character :: rest))
    (absent : afterSeparator? before (character :: rest) = none) :
    Passed (character :: before) rest := by
  intro earlier later shape nonempty
  obtain ⟨others, last, rfl⟩ := (List.eq_nil_or_concat' later).resolve_left nonempty
  rw [List.reverse_cons, ← List.append_assoc] at shape
  obtain ⟨reached, same⟩ := List.append_inj' shape rfl
  cases same
  by_cases alone : others = []
  · rw [alone, List.append_nil] at reached
    simpa [alone, ← reached] using absent
  · simpa using passed earlier others reached alone

theorem Passed.not_isCut
    (passed : Passed before text)
    {term : List Char}
    (initial : term <+: before.reverse) :
    ¬ IsCut [] term := by
  rintro ⟨earlier, rest, rfl, found⟩
  rw [List.append_nil] at found
  apply found
  obtain ⟨others, shape⟩ := initial
  by_cases empty : rest = []
  · simp [empty, afterSeparator?]
  · have absent := passed earlier (rest ++ others) (by simp [← shape])
      (List.append_ne_nil_of_left_ne_nil empty _)
    rw [List.append_assoc] at absent
    exact afterSeparator?_eq_none_of_append absent

theorem not_isCut_of_mem_terms_of_passed
    (passed : Passed before text)
    {term : List Char}
    (member : term ∈ terms before text) :
    ¬ IsCut [] term := by
  fun_induction terms before text with
  | case1 before =>
      rw [List.mem_singleton.mp member]
      exact passed.not_isCut (List.prefix_refl _)
  | case2 before character others after found inductionHypothesis =>
      rcases List.mem_cons.mp member with rfl | later
      · exact passed.not_isCut (List.rdropWhile_prefix _ _)
      · refine inductionHypothesis ?_ later
        intro earlier rest shape nonempty
        exact (nonempty (List.append_eq_nil_iff.mp shape.symm).2).elim
  | case3 before character others absent inductionHypothesis =>
      exact inductionHypothesis (passed.cons absent) member

/-- The terms of a text are not cut any further. -/
theorem not_isCut_of_mem_terms
    {term : List Char}
    (member : term ∈ terms [] text) :
    ¬ IsCut [] term := by
  refine not_isCut_of_mem_terms_of_passed ?_ member
  intro earlier rest shape nonempty
  exact (nonempty (List.append_eq_nil_iff.mp shape.symm).2).elim

end Context

end Hydration
