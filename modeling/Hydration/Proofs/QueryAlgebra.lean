import Hydration.Proofs.QueryGrammar

/-!
# Media queries are composed like their texts

A comma between two texts is a disjunction, `not` in front of a text is a
negation, and `and` with a group behind a text is a conjunction.  Each holds of the
texts themselves, whatever their blanks and their case, and whether or not they
can be read.
-/

namespace Hydration

namespace Media

variable
  {text body : List Char} {lexemes : List Lexeme} {kind : Kind} {features : List Feature}
  {branch : Branch}

/-- Features may follow features. -/
theorem AreFeatures.append
    {others : List Lexeme}
    {more : List Feature}
    (areFeatures : AreFeatures lexemes features)
    (also : AreFeatures others more) :
    AreFeatures (lexemes ++ others) (features ++ more) := by
  induction areFeatures with
  | nothing => exact also
  | another isFeature _ inductionHypothesis => exact .another isFeature inductionHypothesis

/-- Features may follow a test. -/
theorem IsTest.append
    {others : List Lexeme}
    {more : List Feature}
    (isTest : IsTest lexemes kind features)
    (also : AreFeatures others more) :
    IsTest (lexemes ++ others) kind (features ++ more) := by
  cases isTest with
  | typed kind later => exact .typed kind (later.append also)
  | untyped isFeature later => exact .untyped isFeature (later.append also)

/-- A piece that is a test, without `not` or `only` in front of it. -/
def IsPlainPiece (text : List Char) (kind : Kind) (features : List Feature) : Prop :=
  ∃ lexemes, Spells lexemes text ∧ IsTest lexemes kind features

theorem IsPlainPiece.isPiece (isPlain : IsPlainPiece text kind features) :
    IsPiece text ⟨false, kind, features⟩ := by
  obtain ⟨lexemes, spelled, isTest⟩ := isPlain
  exact ⟨lexemes, spelled, .plain isTest⟩

/-- No test begins with `not` or `only`. -/
theorem IsTest.head_ne
    {word : List Char}
    (isTest : IsTest lexemes kind features)
    (particle : word = ['n', 'o', 't'] ∨ word = ['o', 'n', 'l', 'y']) :
    lexemes.head? ≠ some (.word word) := by
  cases isTest with
  | typed kind => rcases particle with rfl | rfl <;> cases kind <;> simp [Kind.word]
  | untyped => simp

/-- A piece that begins with a word is a branch of the word and of what the rest spells. -/
theorem isPiece_word_append_iff
    {word : List Char}
    (nonempty : word ≠ [])
    (letters : ∀ letter ∈ word, isWordLetter letter) :
    IsPiece (word ++ ' ' :: text) branch ↔
      ∃ lexemes, Spells lexemes text ∧ IsBranch (.word word :: lexemes) branch := by
  have space : Text.IsBlankText [' '] := List.forall_mem_singleton.mpr (by decide)
  have split {lexemes : List Lexeme} :
      Spells lexemes (word ++ ' ' :: text) ↔
        ∃ later, lexemes = .word word :: later ∧ Spells later ([' '] ++ text) :=
    spells_word_append_iff nonempty letters (by simp; decide)
  constructor
  · rintro ⟨_, spelled, isBranch⟩
    obtain ⟨later, rfl, spelledLater⟩ := split.mp spelled
    exact ⟨later, spelledLater.of_append_left space, isBranch⟩
  · rintro ⟨later, spelled, isBranch⟩
    exact ⟨_, split.mpr ⟨later, rfl, spelled.append_left space⟩, isBranch⟩

/-- Behind `not` a piece is the negation of a test. -/
theorem isPiece_not_iff :
    IsPiece (['n', 'o', 't'] ++ ' ' :: text) branch ↔
      ∃ kind features, IsPlainPiece text kind features ∧ branch = ⟨true, kind, features⟩ := by
  rw [isPiece_word_append_iff (List.cons_ne_nil _ _) (List.all_eq_true.mp rfl)]
  constructor
  · rintro ⟨lexemes, spelled, isBranch⟩
    cases isBranch with
    | plain isTest => exact absurd rfl (isTest.head_ne (.inl rfl))
    | negated isTest => exact ⟨_, _, ⟨lexemes, spelled, isTest⟩, rfl⟩
  · rintro ⟨kind, features, ⟨lexemes, spelled, isTest⟩, rfl⟩
    exact ⟨lexemes, spelled, .negated isTest⟩

/-- Behind `only` a piece is the test by itself. -/
theorem isPiece_only_iff :
    IsPiece (['o', 'n', 'l', 'y'] ++ ' ' :: text) branch ↔
      ∃ kind features, IsPlainPiece text kind features ∧ branch = ⟨false, kind, features⟩ := by
  rw [isPiece_word_append_iff (List.cons_ne_nil _ _) (List.all_eq_true.mp rfl)]
  constructor
  · rintro ⟨lexemes, spelled, isBranch⟩
    cases isBranch with
    | plain isTest => exact absurd rfl (isTest.head_ne (.inr rfl))
    | only isTest => exact ⟨_, _, ⟨lexemes, spelled, isTest⟩, rfl⟩
  · rintro ⟨kind, features, ⟨lexemes, spelled, isTest⟩, rfl⟩
    exact ⟨lexemes, spelled, .only isTest⟩

/-- A piece that does not begin with `not` or `only` is a test. -/
theorem isPiece_iff_of_plain
    (plain : ∀ lexemes, Spells lexemes text →
      lexemes.head? ≠ some (.word ['n', 'o', 't']) ∧
        lexemes.head? ≠ some (.word ['o', 'n', 'l', 'y'])) :
    IsPiece text branch ↔
      ∃ kind features, IsPlainPiece text kind features ∧ branch = ⟨false, kind, features⟩ := by
  constructor
  · rintro ⟨lexemes, spelled, isBranch⟩
    obtain ⟨noNot, noOnly⟩ := plain lexemes spelled
    cases isBranch with
    | plain isTest => exact ⟨_, _, ⟨lexemes, spelled, isTest⟩, rfl⟩
    | negated => exact absurd rfl noNot
    | only => exact absurd rfl noOnly
  · rintro ⟨kind, features, isPlain, rfl⟩
    exact isPlain.isPiece

/-- A group by itself is a feature. -/
theorem isPiece_group_iff (closes : ')' ∉ body) :
    IsPiece ('(' :: (body ++ [')'])) branch ↔
      ∃ feature, IsFeature body feature ∧ branch = ⟨false, .all, [feature]⟩ := by
  constructor
  · rintro ⟨_, spelled, isBranch⟩
    obtain ⟨later, rfl, spelledLater⟩ := (spells_group_append_iff closes).mp spelled
    have nothing : later = [] := by
      generalize written : ([] : List Char) = rest at spelledLater
      cases spelledLater with
      | nothing => rfl
      | word _ nonempty => simp [nonempty] at written
      | group => simp at written
    subst nothing
    cases isBranch with
    | plain isTest =>
        cases isTest with
        | untyped isFeature later =>
            cases later
            exact ⟨_, isFeature, rfl⟩
  · rintro ⟨feature, isFeature, rfl⟩
    exact ⟨[.group body], (spells_group_append_iff closes).mpr ⟨[], rfl, .nothing (by simp)⟩,
      .plain (.untyped isFeature .nothing)⟩

/-- A group behind `and` adds its feature to a test. -/
theorem IsPlainPiece.append
    {feature : Feature}
    (isPlain : IsPlainPiece text kind features)
    (closes : ')' ∉ body)
    (isFeature : IsFeature body feature) :
    IsPlainPiece (text ++ (' ' :: (['a', 'n', 'd'] ++ ' ' :: '(' :: (body ++ [')'])))) kind
      (features ++ [feature]) := by
  obtain ⟨lexemes, spelled, isTest⟩ := isPlain
  have space : Text.IsBlankText [' '] := List.forall_mem_singleton.mpr (by decide)
  have group : Spells [.group body] (' ' :: '(' :: (body ++ [')'])) :=
    .group space closes (.nothing Text.isBlankText_nil)
  have joined : Spells [.word ['a', 'n', 'd'], .group body]
      (' ' :: (['a', 'n', 'd'] ++ ' ' :: '(' :: (body ++ [')']))) :=
    .word space (List.cons_ne_nil _ _) (List.all_eq_true.mp rfl) (by simp; decide) group
  exact ⟨_, spelled.append joined (by simp; decide),
    isTest.append (.another isFeature .nothing)⟩

/-- A relation of lists that begin with two lists is one of each of them. -/
theorem forall₂_append_left_iff
    {α β : Type}
    {relation : α → β → Prop}
    {early late : List α}
    {others : List β} :
    List.Forall₂ relation (early ++ late) others ↔
      ∃ first second, others = first ++ second ∧ List.Forall₂ relation early first ∧
        List.Forall₂ relation late second := by
  constructor
  · intro related
    induction early generalizing others with
    | nil => exact ⟨[], others, rfl, .nil, related⟩
    | cons head tail inductionHypothesis =>
        obtain ⟨other, rest, isHead, later, rfl⟩ := List.forall₂_cons_left_iff.mp related
        obtain ⟨first, second, rfl, isFirst, isSecond⟩ := inductionHypothesis later
        exact ⟨other :: first, second, rfl, .cons isHead isFirst, isSecond⟩
  · rintro ⟨first, second, rfl, isFirst, isSecond⟩
    exact List.rel_append isFirst isSecond

/-- Lower-casing makes and takes away letters only. -/
theorem mem_map_toLower_iff
    {mark : Char}
    (unlettered : mark.isAlpha = false) :
    mark ∈ text.map Char.toLower ↔ mark ∈ text := by
  have same {character : Char} (free : character.isAlpha = false) : character.toLower = character :=
    Char.toLower_eq_of_not_isUpper fun upper => by simp [Char.isAlpha, upper] at free
  constructor
  · intro member
    obtain ⟨character, inside, rfl⟩ := List.mem_map.mp member
    rw [Char.isAlpha_toLower_eq_isAlpha] at unlettered
    rwa [same unlettered]
  · intro member
    exact List.mem_map.mpr ⟨mark, member, same unlettered⟩

theorem isUpper_of_mem_map_toLower
    {character : Char}
    (member : character ∈ text.map Char.toLower) :
    character.isUpper = false := by
  obtain ⟨_, _, rfl⟩ := List.mem_map.mp member
  exact Char.isUpper_toLower_eq_false _

/-- A negated branch holds where the branch does not. -/
theorem Branch.holds_negated (kind : Kind) (features : List Feature) (viewport : Viewport) :
    Branch.holds ⟨true, kind, features⟩ viewport =
      !Branch.holds ⟨false, kind, features⟩ viewport := by
  simp [Branch.holds]

/-- A branch with more features holds where the branch and the features do. -/
theorem Branch.holds_append
    (kind : Kind)
    (features : List Feature)
    (feature : Feature)
    (viewport : Viewport) :
    Branch.holds ⟨false, kind, features ++ [feature]⟩ viewport =
      (Branch.holds ⟨false, kind, features⟩ viewport &&
        Branch.holds ⟨false, .all, [feature]⟩ viewport) := by
  simp [Branch.holds, Bool.and_assoc]

end Media

namespace MediaQuery

open Media

/-- What a text says of a viewport, if it can be read as a media query. -/
def verdict? (text : String) (viewport : Viewport) : Option Bool :=
  (parse text).toOption.map (·.holds viewport)

variable {text : String} {viewport : Viewport} {verdict : Bool}

theorem parse_of_not_blank (nonblank : ¬Text.IsBlankText text.toList) :
    parse text =
      (readPieces (Text.fields ',' ((Text.trim text.toList).map Char.toLower))).map
        (⟨Text.trimmed text, ·⟩) := by
  obtain ⟨character, rest, trimmed⟩ :=
    List.exists_cons_of_ne_nil (mt Text.trim_eq_nil_iff.mp nonblank)
  simp only [parse, Text.trimmed, trimmed, List.map_cons]

/-- The pieces of a text are read without regard to the blanks around the text. -/
theorem readPieces_trim_eq_ok_iff {branches : List Branch} :
    readPieces (Text.fields ',' ((Text.trim text.toList).map Char.toLower)) = .ok branches ↔
      List.Forall₂ IsPiece (Text.fields ',' (text.toList.map Char.toLower)) branches := by
  obtain ⟨first, last, blankFirst, blankLast, shape⟩ := Text.exists_blanks_trim text.toList
  have lowered : text.toList.map Char.toLower =
      first ++ (Text.trim text.toList).map Char.toLower ++ last := by
    conv_lhs => rw [shape]
    rw [List.map_append, List.map_append, map_toLower_of_blank blankFirst,
      map_toLower_of_blank blankLast]
  have lower : ∀ piece ∈ Text.fields ',' ((Text.trim text.toList).map Char.toLower),
      ∀ character ∈ piece, character.isUpper = false :=
    fun _ member _ inside => isUpper_of_mem_map_toLower (Text.subset_of_mem_fields member inside)
  rw [readPieces_eq_ok_iff lower, lowered, forall₂_isPiece_append_iff blankFirst blankLast]

/-- A text that is not blank holds if one of its pieces does. -/
theorem verdict?_eq_some_iff (nonblank : ¬Text.IsBlankText text.toList) :
    verdict? text viewport = some verdict ↔
      ∃ branches,
        List.Forall₂ IsPiece (Text.fields ',' (text.toList.map Char.toLower)) branches ∧
          branches.any (·.holds viewport) = verdict := by
  simp only [← readPieces_trim_eq_ok_iff, verdict?, parse_of_not_blank nonblank]
  cases found : readPieces (Text.fields ',' ((Text.trim text.toList).map Char.toLower)) with
  | error fault => simp [Except.map, Except.toOption]
  | ok branches =>
      have nonempty : branches.isEmpty = false := by
        refine List.isEmpty_eq_false_iff.mpr ?_
        rintro rfl
        exact Text.fields_ne_nil _ _
          (List.forall₂_nil_right_iff.mp (readPieces_trim_eq_ok_iff.mp found))
      simp [Except.map, Except.toOption, MediaQuery.holds, nonempty]

/-- A comma between two texts joins what they hold, and the whole is read if both are. -/
theorem verdict?_comma
    {first second : String}
    (nonblank : ¬Text.IsBlankText first.toList)
    (alsoNonblank : ¬Text.IsBlankText second.toList) :
    verdict? (first ++ "," ++ second) viewport =
      Option.map₂ (· || ·) (verdict? first viewport) (verdict? second viewport) := by
  have whole : ¬Text.IsBlankText (first ++ "," ++ second).toList :=
    fun blank => blank.not_mem (by decide : Text.isBlank ',' = false) (by simp)
  have cut : Text.fields ',' ((first ++ "," ++ second).toList.map Char.toLower) =
      Text.fields ',' (first.toList.map Char.toLower) ++
        Text.fields ',' (second.toList.map Char.toLower) := by
    rw [← Text.fields_append_separator]
    simp
  ext verdict
  rw [verdict?_eq_some_iff whole, cut, Option.map₂_eq_some_iff]
  simp only [Option.mem_def, verdict?_eq_some_iff nonblank, verdict?_eq_some_iff alsoNonblank,
    forall₂_append_left_iff]
  constructor
  · rintro ⟨_, ⟨early, late, rfl, isFirst, isSecond⟩, rfl⟩
    exact ⟨_, _, ⟨early, isFirst, rfl⟩, ⟨late, isSecond, rfl⟩, List.any_append.symm⟩
  · rintro ⟨_, _, ⟨early, isFirst, rfl⟩, ⟨late, isSecond, rfl⟩, rfl⟩
    exact ⟨_, ⟨early, late, rfl, isFirst, isSecond⟩, List.any_append⟩

/-- A text of one piece says what the piece says. -/
theorem verdict?_eq_some_iff_of_whole
    (nonblank : ¬Text.IsBlankText text.toList)
    (whole : ',' ∉ text.toList) :
    verdict? text viewport = some verdict ↔
      ∃ branch, IsPiece (text.toList.map Char.toLower) branch ∧
        branch.holds viewport = verdict := by
  rw [verdict?_eq_some_iff nonblank,
    Text.fields_of_not_mem (mt (mem_map_toLower_iff (by decide)).mp whole)]
  simp [List.forall₂_cons_left_iff]

/-- The first word or group of a text, if the text can be cut into words and groups. -/
def firstToken? (text : String) : Option Token :=
  (tokens text (text.toList.map Char.toLower)).toOption.bind List.head?

/-- A text without commas that says something and does not begin with `not` or `only`. -/
structure IsPlain (text : String) : Prop where
  nonblank : ¬Text.IsBlankText text.toList
  whole : ',' ∉ text.toList
  notNegated : firstToken? text ≠ some (.word ['n', 'o', 't'])
  notOnly : firstToken? text ≠ some (.word ['o', 'n', 'l', 'y'])

/-- The first token of a text is what the text spells first. -/
theorem firstToken?_of_spells
    {lexemes : List Lexeme}
    (spelled : Spells lexemes (text.toList.map Char.toLower)) :
    firstToken? text = lexemes.head?.map Lexeme.token := by
  have cut : tokens text (text.toList.map Char.toLower) = .ok (lexemes.map Lexeme.token) :=
    (tokens_eq_ok_iff fun _ => isUpper_of_mem_map_toLower).mpr ⟨lexemes, spelled, rfl⟩
  rw [firstToken?, cut]
  exact List.head?_map

/-- A plain text is a test, and holds if the test does. -/
theorem IsPlain.verdict?_eq_some_iff (isPlain : IsPlain text) :
    verdict? text viewport = some verdict ↔
      ∃ kind features, IsPlainPiece (text.toList.map Char.toLower) kind features ∧
        Branch.holds ⟨false, kind, features⟩ viewport = verdict := by
  have plain (lexemes : List Lexeme) (spelled : Spells lexemes (text.toList.map Char.toLower)) :
      lexemes.head? ≠ some (.word ['n', 'o', 't']) ∧
        lexemes.head? ≠ some (.word ['o', 'n', 'l', 'y']) := by
    have first := firstToken?_of_spells spelled
    constructor
    · intro head
      exact isPlain.notNegated (by rw [first, head]; rfl)
    · intro head
      exact isPlain.notOnly (by rw [first, head]; rfl)
  simp only [verdict?_eq_some_iff_of_whole isPlain.nonblank isPlain.whole,
    isPiece_iff_of_plain plain]
  constructor
  · rintro ⟨_, ⟨kind, features, isTest, rfl⟩, said⟩
    exact ⟨kind, features, isTest, said⟩
  · rintro ⟨kind, features, isTest, said⟩
    exact ⟨_, ⟨kind, features, isTest, rfl⟩, said⟩

/-- A word in front of a plain text makes one piece with it. -/
theorem IsPlain.verdict?_append_left_iff
    {word : String}
    {first : Char}
    (isPlain : IsPlain text)
    (clear : ',' ∉ word.toList)
    (member : first ∈ word.toList)
    (solid : Text.isBlank first = false) :
    verdict? (word ++ text) viewport = some verdict ↔
      ∃ branch, IsPiece (word.toList.map Char.toLower ++ text.toList.map Char.toLower) branch ∧
        branch.holds viewport = verdict := by
  have nonblank : ¬Text.IsBlankText (word ++ text).toList :=
    fun blank => blank.not_mem solid (by simp [member])
  have whole : ',' ∉ (word ++ text).toList := by simp [clear, isPlain.whole]
  rw [verdict?_eq_some_iff_of_whole nonblank whole, String.toList_append, List.map_append]

/-- In front of a plain text, `not` turns around what it holds. -/
theorem verdict?_not (isPlain : IsPlain text) :
    verdict? ("not " ++ text) viewport = (verdict? text viewport).map (!·) := by
  have lowered : "not ".toList.map Char.toLower ++ text.toList.map Char.toLower =
      ['n', 'o', 't'] ++ ' ' :: text.toList.map Char.toLower := by
    simp
  have inFront : 'n' ∈ "not ".toList := by decide
  ext verdict
  rw [isPlain.verdict?_append_left_iff (by decide) inFront (by decide), lowered,
    Option.map_eq_some_iff]
  simp only [isPiece_not_iff, isPlain.verdict?_eq_some_iff]
  constructor
  · rintro ⟨_, ⟨kind, features, isTest, rfl⟩, said⟩
    exact ⟨_, ⟨kind, features, isTest, rfl⟩, (Branch.holds_negated ..).symm.trans said⟩
  · rintro ⟨_, ⟨kind, features, isTest, rfl⟩, said⟩
    exact ⟨_, ⟨kind, features, isTest, rfl⟩, (Branch.holds_negated ..).trans said⟩

/-- In front of a plain text, `only` changes nothing. -/
theorem verdict?_only (isPlain : IsPlain text) :
    verdict? ("only " ++ text) viewport = verdict? text viewport := by
  have lowered : "only ".toList.map Char.toLower ++ text.toList.map Char.toLower =
      ['o', 'n', 'l', 'y'] ++ ' ' :: text.toList.map Char.toLower := by
    simp
  have inFront : 'o' ∈ "only ".toList := by decide
  ext verdict
  rw [isPlain.verdict?_append_left_iff (by decide) inFront (by decide), lowered]
  simp only [isPiece_only_iff, isPlain.verdict?_eq_some_iff]
  constructor
  · rintro ⟨_, ⟨kind, features, isTest, rfl⟩, said⟩
    exact ⟨kind, features, isTest, said⟩
  · rintro ⟨kind, features, isTest, said⟩
    exact ⟨_, ⟨kind, features, isTest, rfl⟩, said⟩

/-- A group by itself holds if its feature does. -/
theorem verdict?_group_eq_some_iff
    {body : String}
    (whole : ',' ∉ body.toList)
    (closes : ')' ∉ body.toList) :
    verdict? ("(" ++ body ++ ")") viewport = some verdict ↔
      ∃ feature, IsFeature (body.toList.map Char.toLower) feature ∧
        Branch.holds ⟨false, .all, [feature]⟩ viewport = verdict := by
  have nonblank : ¬Text.IsBlankText ("(" ++ body ++ ")").toList :=
    fun blank => blank.not_mem (by decide : Text.isBlank '(' = false) (by simp)
  have wholeGroup : ',' ∉ ("(" ++ body ++ ")").toList := by simp [whole]
  have lowered : ("(" ++ body ++ ")").toList.map Char.toLower =
      '(' :: (body.toList.map Char.toLower ++ [')']) := by
    simp
  rw [verdict?_eq_some_iff_of_whole nonblank wholeGroup, lowered]
  simp only [isPiece_group_iff (mt (mem_map_toLower_iff (by decide)).mp closes)]
  constructor
  · rintro ⟨_, ⟨feature, isFeature, rfl⟩, said⟩
    exact ⟨feature, isFeature, said⟩
  · rintro ⟨feature, isFeature, said⟩
    exact ⟨_, ⟨feature, isFeature, rfl⟩, said⟩

/-- A group that can be read by itself can be read behind a plain text and `and`. -/
theorem verdict?_and
    {body : String}
    {also : Bool}
    (isPlain : IsPlain text)
    (whole : ',' ∉ body.toList)
    (closes : ')' ∉ body.toList)
    (said : verdict? text viewport = some verdict)
    (alsoSaid : verdict? ("(" ++ body ++ ")") viewport = some also) :
    verdict? (text ++ " and (" ++ body ++ ")") viewport = some (verdict && also) := by
  obtain ⟨kind, features, isTest, rfl⟩ := isPlain.verdict?_eq_some_iff.mp said
  obtain ⟨feature, isFeature, rfl⟩ := (verdict?_group_eq_some_iff whole closes).mp alsoSaid
  have nonblank : ¬Text.IsBlankText (text ++ " and (" ++ body ++ ")").toList :=
    fun blank => blank.not_mem (by decide : Text.isBlank '(' = false) (by simp)
  have wholeText : ',' ∉ (text ++ " and (" ++ body ++ ")").toList := by
    simp [isPlain.whole, whole]
  have lowered : (text ++ " and (" ++ body ++ ")").toList.map Char.toLower =
      text.toList.map Char.toLower ++
        (' ' :: (['a', 'n', 'd'] ++ ' ' :: '(' :: (body.toList.map Char.toLower ++ [')']))) := by
    simp
  have closesLowered : ')' ∉ body.toList.map Char.toLower :=
    mt (mem_map_toLower_iff (by decide)).mp closes
  rw [verdict?_eq_some_iff_of_whole nonblank wholeText, lowered]
  exact ⟨_, (isTest.append closesLowered isFeature).isPiece, Branch.holds_append ..⟩

/--
Texts compose like their meanings, for every viewport.  A comma is a disjunction
of any two texts that are not blank, and the whole is read if and only if both
are.  `not` and `only` in front of a plain text are its negation and the text
itself, and `and` with a group behind it is a conjunction.
-/
theorem verdict?_composes (viewport : Viewport) :
    (∀ first second : String,
      ¬Text.IsBlankText first.toList → ¬Text.IsBlankText second.toList →
        verdict? (first ++ "," ++ second) viewport =
          Option.map₂ (· || ·) (verdict? first viewport) (verdict? second viewport)) ∧
      ∀ query, IsPlain query →
        verdict? ("not " ++ query) viewport = (verdict? query viewport).map (!·) ∧
          verdict? ("only " ++ query) viewport = verdict? query viewport ∧
            ∀ (body : String) (verdict also : Bool),
              ',' ∉ body.toList → ')' ∉ body.toList →
                verdict? query viewport = some verdict →
                  verdict? ("(" ++ body ++ ")") viewport = some also →
                    verdict? (query ++ " and (" ++ body ++ ")") viewport =
                      some (verdict && also) :=
  ⟨fun _ _ nonblank alsoNonblank => verdict?_comma nonblank alsoNonblank,
    fun _ isPlain => ⟨verdict?_not isPlain, verdict?_only isPlain,
      fun _ _ _ whole closes said alsoSaid => verdict?_and isPlain whole closes said alsoSaid⟩⟩

/-- A text about wide screens, in mixed case, behind other texts and in front of one. -/
theorem verdict?_composes_of_screen :
    verdict? ("print" ++ "," ++ "SCREEN and (orientation:landscape)") .standard = some true ∧
      verdict? ("not " ++ "SCREEN and (orientation:landscape)") .standard = some false ∧
      verdict? ("only " ++ "SCREEN and (orientation:landscape)") .standard = some true ∧
      verdict? ("SCREEN and (orientation:landscape)" ++ " and (" ++ " Orientation : portrait " ++
        ")") .standard = some false := by
  have prints : verdict? "print" .standard = some false := by decide +kernel
  have lies : verdict? "SCREEN and (orientation:landscape)" .standard = some true := by
    decide +kernel
  have stands : verdict? ("(" ++ " Orientation : portrait " ++ ")") .standard = some false := by
    decide +kernel
  have nonblank : ¬Text.IsBlankText "SCREEN and (orientation:landscape)".toList :=
    fun blank => blank.not_mem (by decide : Text.isBlank 'S' = false) (by decide)
  have isPlain : IsPlain "SCREEN and (orientation:landscape)" :=
    ⟨nonblank, by decide, by decide +kernel, by decide +kernel⟩
  obtain ⟨joins, plain⟩ := verdict?_composes .standard
  obtain ⟨turned, kept, joined⟩ := plain _ isPlain
  refine ⟨?_, ?_, ?_, ?_⟩
  · rw [joins "print" _ (fun blank => blank.not_mem (by decide : Text.isBlank 'p' = false)
      (by decide)) nonblank, prints, lies]
    rfl
  · rw [turned, lies]
    rfl
  · exact kept.trans lies
  · exact joined _ true false (by decide) (by decide) lies stands

end MediaQuery

end Hydration
