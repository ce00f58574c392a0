import Hydration.Media.Query
import Hydration.Proofs.Texts.Trimming
import Hydration.Text.Fields
import Mathlib.Data.List.Forall2

/-!
# The grammar of media queries

What a text says is a relation between texts and branches that knows nothing of
how the text is read.  The relation goes from the outside in: a text is a list
of pieces between commas, a piece is a list of words and groups with blanks
around them, and these are `not` or `only`, a media type, and features joined by
`and`.  A feature is the inside of a group.

Media queries are written in any case; the grammar is that of lower-cased texts.
-/

namespace Hydration

namespace Media

/-- The natural number that digits write in the decimal system. -/
def numeral (digits : List Char) : Nat :=
  digits.foldl (fun value digit => value * 10 + (digit.toNat - '0'.toNat)) 0

/-- The double nearest to a decimal number with these digits before and behind the point. -/
def decimal (whole places : List Char) : Float :=
  Float.ofScientific (numeral (whole ++ places)) true places.length

/-- Decimal numbers: digits, at least one, and at most one point among them. -/
inductive IsNumber : List Char → Float → Prop where
  | whole
      {digits : List Char}
      (nonempty : digits ≠ [])
      (allDigits : ∀ digit ∈ digits, digit.isDigit) :
      IsNumber digits (decimal digits [])
  | pointed
      {whole places : List Char}
      (nonempty : whole ++ places ≠ [])
      (allDigits : ∀ digit ∈ whole ++ places, digit.isDigit) :
      IsNumber (whole ++ '.' :: places) (decimal whole places)

/-- Lengths: a number with a unit, possibly behind blanks, or zero. -/
inductive IsLength : List Char → Length → Prop where
  | px
      {number blanks : List Char}
      {value : Float}
      (isNumber : IsNumber number value)
      (blank : Text.IsBlankText blanks) :
      IsLength (number ++ blanks ++ ['p', 'x']) (.px value)
  | em
      {number blanks : List Char}
      {value : Float}
      (isNumber : IsNumber number value)
      (blank : Text.IsBlankText blanks) :
      IsLength (number ++ blanks ++ ['e', 'm']) (.em value)
  | rem
      {number blanks : List Char}
      {value : Float}
      (isNumber : IsNumber number value)
      (blank : Text.IsBlankText blanks) :
      IsLength (number ++ blanks ++ ['r', 'e', 'm']) (.rem value)
  | zero
      {number : List Char}
      {value : Float}
      (isNumber : IsNumber number value)
      (isZero : (value == 0.0) = true) :
      IsLength number (.px 0.0)

/-- What a comparison puts in front of the name of a side. -/
def Bound.marker : Bound → List Char
  | atLeast => ['m', 'i', 'n', '-']
  | atMost => ['m', 'a', 'x', '-']
  | exactly => []

/-- The name of a side. -/
def Side.word : Side → List Char
  | width => ['w', 'i', 'd', 't', 'h']
  | height => ['h', 'e', 'i', 'g', 'h', 't']

/-- The name of an orientation. -/
def Orientation.word : Orientation → List Char
  | portrait => ['p', 'o', 'r', 't', 'r', 'a', 'i', 't']
  | landscape => ['l', 'a', 'n', 'd', 's', 'c', 'a', 'p', 'e']

/-- The name of the feature that asks how the viewport lies. -/
def orientationName : List Char :=
  ['o', 'r', 'i', 'e', 'n', 't', 'a', 't', 'i', 'o', 'n']

/-- A name and a value with a colon between them, and blanks around both. -/
inductive IsPair (name value : List Char) : List Char → Prop where
  | intro
      {before after first last : List Char}
      (blankBefore : Text.IsBlankText before)
      (blankAfter : Text.IsBlankText after)
      (blankFirst : Text.IsBlankText first)
      (blankLast : Text.IsBlankText last) :
      IsPair name value (before ++ name ++ after ++ ':' :: (first ++ value ++ last))

/-- Features, as they stand inside a group. -/
inductive IsFeature : List Char → Feature → Prop where
  | extent
      {body value : List Char}
      {length : Length}
      (side : Side)
      (bound : Bound)
      (isLength : IsLength value length)
      (isPair : IsPair (bound.marker ++ side.word) value body) :
      IsFeature body (.extent side bound length)
  | orientation
      {body : List Char}
      (orientation : Orientation)
      (isPair : IsPair orientationName orientation.word body) :
      IsFeature body (.orientation orientation)

/-- A word, or the inside of a group as it is written. -/
inductive Lexeme where
  | word (text : List Char)
  | group (body : List Char)

/-- The characters of words: small letters, digits and hyphens. -/
def isWordLetter (character : Char) : Bool :=
  character.isLower || character.isDigit || character == '-'

/--
The words and groups that a text spells, with blanks around them.  A word goes
as far as it can, so that two words never touch.
-/
inductive Spells : List Lexeme → List Char → Prop where
  | nothing
      {blanks : List Char}
      (blank : Text.IsBlankText blanks) :
      Spells [] blanks
  | word
      {lexemes : List Lexeme}
      {blanks word rest : List Char}
      (blank : Text.IsBlankText blanks)
      (nonempty : word ≠ [])
      (letters : ∀ letter ∈ word, isWordLetter letter)
      (longest : ∀ next ∈ rest.head?, isWordLetter next = false)
      (later : Spells lexemes rest) :
      Spells (.word word :: lexemes) (blanks ++ word ++ rest)
  | group
      {lexemes : List Lexeme}
      {blanks body rest : List Char}
      (blank : Text.IsBlankText blanks)
      (closes : ')' ∉ body)
      (later : Spells lexemes rest) :
      Spells (.group body :: lexemes) (blanks ++ '(' :: (body ++ ')' :: rest))

/-- Any number of features, each behind an `and`. -/
inductive AreFeatures : List Lexeme → List Feature → Prop where
  | nothing :
      AreFeatures [] []
  | another
      {lexemes : List Lexeme}
      {features : List Feature}
      {body : List Char}
      {feature : Feature}
      (isFeature : IsFeature body feature)
      (later : AreFeatures lexemes features) :
      AreFeatures (.word ['a', 'n', 'd'] :: .group body :: lexemes) (feature :: features)

/-- The name of a media type. -/
def Kind.word : Kind → List Char
  | all => ['a', 'l', 'l']
  | screen => ['s', 'c', 'r', 'e', 'e', 'n']
  | print => ['p', 'r', 'i', 'n', 't']

/-- A media type or a feature, and then more features. -/
inductive IsTest : List Lexeme → Kind → List Feature → Prop where
  | typed
      {lexemes : List Lexeme}
      {features : List Feature}
      (kind : Kind)
      (later : AreFeatures lexemes features) :
      IsTest (.word kind.word :: lexemes) kind features
  | untyped
      {lexemes : List Lexeme}
      {features : List Feature}
      {body : List Char}
      {feature : Feature}
      (isFeature : IsFeature body feature)
      (later : AreFeatures lexemes features) :
      IsTest (.group body :: lexemes) .all (feature :: features)

/-- A test, possibly behind `not`, which negates it, or `only`. -/
inductive IsBranch : List Lexeme → Branch → Prop where
  | plain
      {lexemes : List Lexeme}
      {kind : Kind}
      {features : List Feature}
      (isTest : IsTest lexemes kind features) :
      IsBranch lexemes ⟨false, kind, features⟩
  | negated
      {lexemes : List Lexeme}
      {kind : Kind}
      {features : List Feature}
      (isTest : IsTest lexemes kind features) :
      IsBranch (.word ['n', 'o', 't'] :: lexemes) ⟨true, kind, features⟩
  | only
      {lexemes : List Lexeme}
      {kind : Kind}
      {features : List Feature}
      (isTest : IsTest lexemes kind features) :
      IsBranch (.word ['o', 'n', 'l', 'y'] :: lexemes) ⟨false, kind, features⟩

/-- A piece of a lower-cased text says what its words and groups say. -/
def IsPiece (piece : List Char) (branch : Branch) : Prop :=
  ∃ lexemes, Spells lexemes piece ∧ IsBranch lexemes branch

/--
A text says nothing at all, which it does without any branch, or its pieces
between the commas say one branch each.
-/
inductive IsQuery (text : List Char) : List Branch → Prop where
  | nothing
      (blank : Text.IsBlankText text) :
      IsQuery text []
  | pieces
      {pieces : List (List Char)}
      {branches : List Branch}
      (nonempty : pieces ≠ [])
      (whole : ∀ piece ∈ pieces, ',' ∉ piece)
      (spelled : Text.joined ',' pieces = text.map Char.toLower)
      (said : List.Forall₂ IsPiece pieces branches) :
      IsQuery text branches

end Media

end Hydration
