import Hydration.Proofs.Queries.Features
import Mathlib

/-!
# Media queries are read by their grammar

A text is read as a media query if and only if the grammar says so, and what is
read is what the grammar says: which pieces are negated, for which kind of device
they are, and their features in order.
-/

namespace Hydration

namespace Media

variable
  {piece : String} {text name : List Char} {lexemes : List Lexeme} {features : List Feature}
  {kind : Kind} {branch : Branch} {negated : Bool}

theorem token_eq_word_iff {lexeme : Lexeme} {word : List Char} :
    lexeme.token = .word word ↔ lexeme = .word word := by
  cases lexeme <;> simp [Lexeme.token]

/-- Behind the first test come features, each behind an `and`. -/
theorem readMore_eq_ok_iff (lexemes : List Lexeme) {features : List Feature} :
    readMore piece (lexemes.map Lexeme.token) = .ok features ↔ AreFeatures lexemes features := by
  match lexemes with
  | [] =>
      constructor
      · rintro ⟨⟩
        exact .nothing
      · rintro ⟨⟩
        rfl
  | [joiner] =>
      constructor
      · intro read
        simp only [List.map_cons, List.map_nil, readMore] at read
        split at read <;> cases read
      · rintro ⟨⟩
  | joiner :: .word text :: later =>
      constructor
      · intro read
        simp only [List.map_cons, readMore] at read
        split at read <;> cases read
      · rintro ⟨⟩
  | joiner :: .group body :: later =>
      simp only [List.map_cons, readMore]
      constructor
      · intro read
        split at read
        · next joins =>
            rw [token_eq_word_iff.mp joins]
            simp only [Lexeme.token, readFeatureToken] at read
            split at read
            · cases read
            · next feature found =>
                obtain ⟨others, readLater, rfl⟩ := map_eq_ok_iff.mp read
                exact .another (readFeature_trim_eq_ok_iff.mp found)
                  ((readMore_eq_ok_iff later).mp readLater)
        · cases read
      · rintro ⟨⟩
        next isFeature areFeatures =>
          rw [if_pos (token_eq_word_iff.mpr rfl)]
          simp only [Lexeme.token, readFeatureToken]
          rw [readFeature_trim_eq_ok_iff.mpr isFeature]
          exact map_eq_ok_iff.mpr ⟨_, (readMore_eq_ok_iff later).mpr areFeatures, rfl⟩

theorem readKind_eq_ok_iff : readKind name = .ok kind ↔ name = kind.word := by
  constructor
  · intro read
    unfold readKind at read
    split at read
    · next word => cases read; exact String.ofList_injective word
    · next word => cases read; exact String.ofList_injective word
    · next word => cases read; exact String.ofList_injective word
    · cases read
  · rintro rfl
    cases kind <;> rfl

/-- A test is read as a media type or a feature, and features behind it. -/
theorem readBody_eq_ok_iff :
    readBody piece negated (lexemes.map Lexeme.token) = .ok branch ↔
      ∃ kind features, IsTest lexemes kind features ∧ branch = ⟨negated, kind, features⟩ := by
  constructor
  · intro read
    cases lexemes with
    | nil => cases read
    | cons lexeme later =>
        cases lexeme with
        | word name =>
            simp only [List.map_cons, Lexeme.token, readBody] at read
            split at read
            · cases read
            · split at read
              · cases read
              · next kind named =>
                  obtain ⟨features, readLater, rfl⟩ := map_eq_ok_iff.mp read
                  rw [readKind_eq_ok_iff.mp named]
                  exact ⟨kind, features, .typed kind ((readMore_eq_ok_iff later).mp readLater), rfl⟩
        | group body =>
            simp only [List.map_cons, Lexeme.token, readBody] at read
            split at read
            · cases read
            · next feature found =>
                obtain ⟨features, readLater, rfl⟩ := map_eq_ok_iff.mp read
                exact ⟨.all, feature :: features, .untyped (readFeature_trim_eq_ok_iff.mp found)
                  ((readMore_eq_ok_iff later).mp readLater), rfl⟩
  · rintro ⟨kind, _, ⟨_, areFeatures⟩ | ⟨isFeature, areFeatures⟩, rfl⟩
    · have differs : kind.word ≠ ['a', 'n', 'd'] := by cases kind <;> decide
      simp only [List.map_cons, Lexeme.token, readBody]
      rw [if_neg differs, readKind_eq_ok_iff.mpr rfl]
      exact map_eq_ok_iff.mpr ⟨_, (readMore_eq_ok_iff _).mpr areFeatures, rfl⟩
    · simp only [List.map_cons, Lexeme.token, readBody]
      rw [readFeature_trim_eq_ok_iff.mpr isFeature]
      exact map_eq_ok_iff.mpr ⟨_, (readMore_eq_ok_iff _).mpr areFeatures, rfl⟩

/-- Words and groups are read as a branch: a leading `not` or `only` belongs to no test. -/
theorem readBody_splitNegation_eq_ok_iff :
    readBody piece (splitNegation (lexemes.map Lexeme.token)).1
        (splitNegation (lexemes.map Lexeme.token)).2 = .ok branch ↔
      IsBranch lexemes branch := by
  constructor
  · intro read
    unfold splitNegation at read
    split at read
    · next shape =>
        obtain ⟨first, rest, rfl, spelled, rfl⟩ := List.map_eq_cons_iff.mp shape
        obtain ⟨kind, features, isTest, rfl⟩ := readBody_eq_ok_iff.mp read
        rw [token_eq_word_iff.mp spelled]
        exact .negated isTest
    · next shape =>
        obtain ⟨first, rest, rfl, spelled, rfl⟩ := List.map_eq_cons_iff.mp shape
        obtain ⟨kind, features, isTest, rfl⟩ := readBody_eq_ok_iff.mp read
        rw [token_eq_word_iff.mp spelled]
        exact .only isTest
    · obtain ⟨kind, features, isTest, rfl⟩ := readBody_eq_ok_iff.mp read
      exact .plain isTest
  · intro isBranch
    cases isBranch with
    | @plain _ kind _ isTest =>
        have whole : splitNegation (lexemes.map Lexeme.token) =
            (false, lexemes.map Lexeme.token) := by
          cases isTest with
          | typed => cases kind <;> rfl
          | untyped => rfl
        rw [whole]
        exact readBody_eq_ok_iff.mpr ⟨_, _, isTest, rfl⟩
    | negated isTest | only isTest =>
        exact readBody_eq_ok_iff.mpr ⟨_, _, isTest, rfl⟩

/-- One piece is read as the grammar says. -/
theorem readPiece_eq_ok_iff (lower : ∀ character ∈ text, character.isUpper = false) :
    readPiece text = .ok branch ↔ IsPiece text branch := by
  have cut {found : List Token} :
      tokens (String.ofList (Text.trim text)) text = .ok found ↔
        ∃ lexemes, Spells lexemes text ∧ found = lexemes.map Lexeme.token :=
    tokens_eq_ok_iff lower
  constructor
  · intro read
    simp only [readPiece] at read
    split at read
    · cases read
    · next found cutText =>
        obtain ⟨lexemes, spelled, rfl⟩ := cut.mp cutText
        exact ⟨lexemes, spelled, readBody_splitNegation_eq_ok_iff.mp read⟩
  · rintro ⟨lexemes, spelled, isBranch⟩
    rw [readPiece, cut.mpr ⟨lexemes, spelled, rfl⟩]
    exact readBody_splitNegation_eq_ok_iff.mpr isBranch

/-- The pieces are read one by one. -/
theorem readPieces_eq_ok_iff
    {pieces : List (List Char)}
    {branches : List Branch}
    (lower : ∀ piece ∈ pieces, ∀ character ∈ piece, character.isUpper = false) :
    readPieces pieces = .ok branches ↔ List.Forall₂ IsPiece pieces branches := by
  induction pieces generalizing branches with
  | nil =>
      rw [List.forall₂_nil_left_iff, readPieces, Except.ok.injEq, eq_comm]
  | cons piece rest inductionHypothesis =>
      obtain ⟨lowerPiece, lowerRest⟩ := List.forall_mem_cons.mp lower
      rw [List.forall₂_cons_left_iff, readPieces]
      constructor
      · intro read
        split at read
        · cases read
        · next branch readFirst =>
            obtain ⟨others, readRest, rfl⟩ := map_eq_ok_iff.mp read
            exact ⟨branch, others, (readPiece_eq_ok_iff lowerPiece).mp readFirst,
              (inductionHypothesis lowerRest).mp readRest, rfl⟩
      · rintro ⟨branch, others, isPiece, arePieces, rfl⟩
        rw [(readPiece_eq_ok_iff lowerPiece).mpr isPiece]
        exact map_eq_ok_iff.mpr ⟨others, (inductionHypothesis lowerRest).mpr arePieces, rfl⟩

/-- White space has no case. -/
theorem map_toLower_of_blank (blank : Text.IsBlankText text) : text.map Char.toLower = text := by
  refine (List.map_congr_left fun character member => ?_).trans (List.map_id _)
  have notUpper : ¬(65 ≤ character.toNat ∧ character.toNat ≤ 90) := by
    rintro ⟨above, below⟩
    have free : Text.isBlank character = false :=
      Text.isBlank_of_printable (by omega) (by omega)
    rw [blank character member] at free
    cases free
  exact dif_neg notUpper

/-- Blanks around a piece change nothing. -/
theorem isPiece_append_left_iff
    {blanks : List Char}
    (blank : Text.IsBlankText blanks) :
    IsPiece (blanks ++ text) branch ↔ IsPiece text branch :=
  exists_congr fun _ => and_congr_left fun _ =>
    ⟨fun spelled => spelled.of_append_left blank, fun spelled => spelled.append_left blank⟩

theorem isPiece_append_right_iff
    {blanks : List Char}
    (blank : Text.IsBlankText blanks) :
    IsPiece (text ++ blanks) branch ↔ IsPiece text branch :=
  exists_congr fun _ => and_congr_left fun _ =>
    ⟨fun spelled => spelled.of_append_right blank, fun spelled => spelled.append_right blank⟩

/-- Blanks around a text belong to its first and its last piece, and change nothing. -/
theorem forall₂_isPiece_append_iff
    {first last : List Char}
    {branches : List Branch}
    (blankFirst : Text.IsBlankText first)
    (blankLast : Text.IsBlankText last) :
    List.Forall₂ IsPiece (Text.fields ',' (first ++ text ++ last)) branches ↔
      List.Forall₂ IsPiece (Text.fields ',' text) branches := by
  have clearFirst : ',' ∉ first := blankFirst.not_mem (by decide)
  have clearLast : ',' ∉ last := blankLast.not_mem (by decide)
  obtain ⟨pieces, piece, shape, whole⟩ := Text.fields_append_right clearLast (first ++ text)
  obtain ⟨head, others, inner, same⟩ := Text.fields_append_left clearFirst text
  have front : List.Forall₂ IsPiece (Text.fields ',' (first ++ text)) branches ↔
      List.Forall₂ IsPiece (Text.fields ',' text) branches := by
    rw [same, inner, List.forall₂_cons_left_iff, List.forall₂_cons_left_iff]
    simp only [isPiece_append_left_iff blankFirst]
  rw [← front, whole, shape]
  clear whole shape front
  induction pieces generalizing branches with
  | nil =>
      simp only [List.nil_append, List.forall₂_cons_left_iff, isPiece_append_right_iff blankLast]
  | cons _ _ inductionHypothesis =>
      simp only [List.cons_append, List.forall₂_cons_left_iff, inductionHypothesis]

theorem isQuery_iff {branches : List Branch} :
    IsQuery text branches ↔
      Text.IsBlankText text ∧ branches = [] ∨
        List.Forall₂ IsPiece (Text.fields ',' (text.map Char.toLower)) branches := by
  constructor
  · rintro (blank | ⟨nonempty, whole, spelled, said⟩)
    · exact .inl ⟨blank, rfl⟩
    · rw [← spelled, Text.fields_joined nonempty whole]
      exact .inr said
  · rintro (⟨blank, rfl⟩ | said)
    · exact .nothing blank
    · exact .pieces (Text.fields_ne_nil _ _) (fun _ => Text.not_mem_of_mem_fields)
        (Text.joined_fields _ _) said

/-- An empty text is no piece. -/
theorem not_isPiece_nil : ¬IsPiece [] branch := by
  rintro ⟨lexemes, spelled, isBranch⟩
  generalize whole : ([] : List Char) = written at spelled
  cases spelled with
  | nothing =>
      cases isBranch with
      | plain isTest => cases isTest
  | word _ nonempty => simp [nonempty] at whole
  | group => simp at whole

end Media

/--
A text is read as a media query if and only if the grammar says so; the query
keeps the text without the blanks at its ends, and its branches are those that
the text says.
-/
theorem MediaQuery.parse_eq_ok_iff (source : String) (query : MediaQuery) :
    MediaQuery.parse source = .ok query ↔
      query.source = Text.trimmed source ∧ Media.IsQuery source.toList query.branches := by
  obtain ⟨first, last, blankFirst, blankLast, shape⟩ := Text.exists_blanks_trim source.toList
  have blank : Text.IsBlankText source.toList ↔ Text.trim source.toList = [] := by
    refine ⟨Text.trim_of_blank, fun nothing => ?_⟩
    rw [shape, nothing, List.append_nil]
    exact blankFirst.append blankLast
  rw [Media.isQuery_iff, blank, MediaQuery.parse, Text.trimmed]
  generalize Text.trim source.toList = text at *
  have lower : ∀ piece ∈ Text.fields ',' (text.map Char.toLower), ∀ character ∈ piece,
      character.isUpper = false := by
    intro piece member character inside
    obtain ⟨_, _, rfl⟩ := List.mem_map.mp (Text.subset_of_mem_fields member inside)
    exact Char.isUpper_toLower_eq_false _
  rw [shape, List.map_append, List.map_append, Media.map_toLower_of_blank blankFirst,
    Media.map_toLower_of_blank blankLast, Media.forall₂_isPiece_append_iff blankFirst blankLast]
  obtain ⟨kept, branches⟩ := query
  cases text with
  | nil =>
      simp only [List.map_nil, Text.fields, List.forall₂_cons_left_iff, Media.not_isPiece_nil]
      constructor
      · rintro ⟨⟩
        exact ⟨rfl, .inl ⟨trivial, rfl⟩⟩
      · rintro ⟨rfl, ⟨_, rfl⟩ | ⟨_, _, nothing, _⟩⟩
        · rfl
        · exact nothing.elim
  | cons character rest =>
      rw [← Media.readPieces_eq_ok_iff lower]
      simp only [List.map_cons, map_eq_ok_iff, MediaQuery.mk.injEq]
      constructor
      · rintro ⟨found, read, rfl, rfl⟩
        exact ⟨rfl, .inr read⟩
      · rintro ⟨rfl, ⟨nothing, _⟩ | read⟩
        · cases nothing
        · exact ⟨branches, read, rfl, rfl⟩

end Hydration
