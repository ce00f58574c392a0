import Hydration.Media.Query
import Hydration.Text.Blank
import Hydration.Text.Fields

/-!
# Reading media queries

The text is lower-cased and cut at commas.  Each piece is first cut into words
and parenthesised groups, then read as an optional `not` or `only`, an optional
media type, and features joined by `and`.  The first piece that is not of this
form spoils the query.
-/

namespace Hydration

namespace Media

/-- Why a text is no media query. -/
inductive Fault where
  /-- A group is opened and not closed. -/
  | unclosedGroup (piece : String)
  /-- A character that starts neither a word nor a group. -/
  | unexpectedCharacter (character : Char) (piece : String)
  /-- A media type nobody knows. -/
  | unknownKind (name : String)
  /-- Two parts without an `and` between them. -/
  | expectedAnd (piece : String)
  /-- An `and` with nothing behind it. -/
  | danglingAnd (piece : String)
  /-- A word in the place of a feature. -/
  | expectedFeature (word : String)
  /-- Neither a media type nor a feature. -/
  | emptyPiece (piece : String)
  /-- A group without a colon. -/
  | valueless (body : String)
  /-- A feature nobody knows. -/
  | unknownFeature (name : String)
  /-- An orientation nobody knows. -/
  | unknownOrientation (value : String)
  /-- A value that is no length. -/
  | invalidLength (value : String)
  deriving DecidableEq, Repr

/-- The wording of a fault. -/
def Fault.message : Fault → String
  | unclosedGroup piece => "unclosed '(' in '" ++ piece ++ "'"
  | unexpectedCharacter character piece =>
      "unexpected character '" ++ character.toString ++ "' in '" ++ piece ++ "'"
  | unknownKind name => "unknown media type '" ++ name ++ "'"
  | expectedAnd piece => "expected 'and' in '" ++ piece ++ "'"
  | danglingAnd piece => "dangling 'and' in '" ++ piece ++ "'"
  | expectedFeature word => "expected a '(feature)' but found '" ++ word ++ "'"
  | emptyPiece piece => "empty media query '" ++ piece ++ "'"
  | valueless body => "unsupported feature '(" ++ body ++ ")'"
  | unknownFeature name => "unsupported feature '" ++ name ++ "'"
  | unknownOrientation value => "unknown orientation '" ++ value ++ "'"
  | invalidLength value => "invalid length '" ++ value ++ "'"

/-- A word, or the trimmed inside of a group. -/
inductive Token where
  | word (text : List Char)
  | group (body : List Char)
  deriving DecidableEq, Repr

def isWordCharacter (character : Char) : Bool :=
  character.isAlphanum || character == '-'

/-- The text up to the first closing parenthesis and the text behind it. -/
def splitGroup? : List Char → Option (List Char × List Char)
  | [] => none
  | character :: rest =>
      if character = ')' then
        some ([], rest)
      else
        (splitGroup? rest).map fun parts => (character :: parts.1, parts.2)

/-- What follows a group is shorter than what it was cut from. -/
theorem splitGroup?_length
    {text body after : List Char}
    (found : splitGroup? text = some (body, after)) :
    after.length < text.length := by
  induction text generalizing body after with
  | nil => simp [splitGroup?] at found
  | cons character rest inductionHypothesis =>
      simp only [splitGroup?] at found
      split at found
      · injection found with same
        injection same with _ same
        subst same
        simp
      · obtain ⟨parts, inner, same⟩ := Option.map_eq_some_iff.mp found
        have shorter : parts.2.length < rest.length := inductionHypothesis inner
        have sameAfter : parts.2 = after := congrArg Prod.snd same
        rw [sameAfter] at shorter
        simp only [List.length_cons]
        omega

/-- Cuts a text into tokens; `piece` is the whole piece, for the wording of a fault. -/
def tokens (piece : String) (text : List Char) : Except Fault (List Token) :=
  match _start : Text.trimStart text with
  | [] => .ok []
  | character :: rest =>
      if character = '(' then
        match _found : splitGroup? rest with
        | none => .error (.unclosedGroup piece)
        | some (body, after) =>
            (tokens piece after).map (.group (Text.trim body) :: ·)
      else if isWordCharacter character then
        (tokens piece (rest.dropWhile isWordCharacter)).map
          (.word (character :: rest.takeWhile isWordCharacter) :: ·)
      else
        .error (.unexpectedCharacter character piece)
termination_by text.length
decreasing_by
  · have shorter := splitGroup?_length _found
    have trimmed := (List.dropWhile_suffix Text.isBlank (l := text)).length_le
    rw [← Text.trimStart, _start] at trimmed
    simp only [List.length_cons] at trimmed
    omega
  · have shorter := (List.dropWhile_suffix isWordCharacter (l := rest)).length_le
    have trimmed := (List.dropWhile_suffix Text.isBlank (l := text)).length_le
    rw [← Text.trimStart, _start] at trimmed
    simp only [List.length_cons] at trimmed
    omega

/--
The value of a decimal number: digits with at most one point among them and at
least one digit, rounded to the nearest double.
-/
def number? (text : List Char) : Option Float :=
  let whole := text.takeWhile Char.isDigit
  let digits (text : List Char) : Nat :=
    text.foldl (fun value digit => value * 10 + (digit.toNat - '0'.toNat)) 0
  match text.dropWhile Char.isDigit with
  | [] =>
      if whole = [] then none else some (Float.ofScientific (digits whole) true 0)
  | character :: places =>
      if character = '.' ∧ places.all Char.isDigit = true ∧ whole ++ places ≠ [] then
        some (Float.ofScientific (digits (whole ++ places)) true places.length)
      else
        none

/-- The characters that may stand in a number. -/
def isNumberCharacter (character : Char) : Bool :=
  character.isDigit || character == '.'

/-- Reads a length; only zero may go without a unit. -/
def readLength (value : List Char) : Except Fault Length :=
  match number? (value.takeWhile isNumberCharacter) with
  | none => .error (.invalidLength (String.ofList value))
  | some number =>
      match String.ofList (Text.trim (value.dropWhile isNumberCharacter)) with
      | "px" => .ok (.px number)
      | "em" => .ok (.em number)
      | "rem" => .ok (.rem number)
      | "" =>
          if number == 0.0 then .ok (.px 0.0) else .error (.invalidLength (String.ofList value))
      | _ => .error (.invalidLength (String.ofList value))

/-- The comparison that a feature name asks for, and the name of what is compared. -/
def splitBound (name : List Char) : Bound × List Char :=
  match name with
  | 'm' :: 'i' :: 'n' :: '-' :: rest => (.atLeast, rest)
  | 'm' :: 'a' :: 'x' :: '-' :: rest => (.atMost, rest)
  | _ => (.exactly, name)

/-- Reads the trimmed inside of a group. -/
def readFeature (body : List Char) : Except Fault Feature :=
  match body.dropWhile (· ≠ ':') with
  | [] => .error (.valueless (String.ofList body))
  | _ :: after =>
      let name := Text.trim (body.takeWhile (· ≠ ':'))
      let value := Text.trim after
      let parts := splitBound name
      match String.ofList parts.2, parts.1 with
      | "width", bound => (readLength value).map (.extent .width bound)
      | "height", bound => (readLength value).map (.extent .height bound)
      | "orientation", .exactly =>
          match String.ofList value with
          | "portrait" => .ok (.orientation .portrait)
          | "landscape" => .ok (.orientation .landscape)
          | other => .error (.unknownOrientation other)
      | _, _ => .error (.unknownFeature (String.ofList name))

/-- Reads the feature that a token stands for. -/
def readFeatureToken : Token → Except Fault Feature
  | .group body => readFeature body
  | .word text => .error (.expectedFeature (String.ofList text))

/-- Reads features, each behind an `and`. -/
def readMore (piece : String) : List Token → Except Fault (List Feature)
  | [] => .ok []
  | joiner :: rest =>
      if joiner = .word ['a', 'n', 'd'] then
        match rest with
        | [] => .error (.danglingAnd piece)
        | token :: later =>
            match readFeatureToken token with
            | .error fault => .error fault
            | .ok feature => (readMore piece later).map (feature :: ·)
      else
        .error (.expectedAnd piece)

/-- Reads a media type. -/
def readKind (name : List Char) : Except Fault Kind :=
  match String.ofList name with
  | "all" => .ok .all
  | "screen" => .ok .screen
  | "print" => .ok .print
  | other => .error (.unknownKind other)

/-- Whether a piece starts with `not`, and its tokens without a leading `not` or `only`. -/
def splitNegation (tokens : List Token) : Bool × List Token :=
  match tokens with
  | .word ['n', 'o', 't'] :: rest => (true, rest)
  | .word ['o', 'n', 'l', 'y'] :: rest => (false, rest)
  | _ => (false, tokens)

/-- Reads what follows `not` or `only`: a media type or a feature, then more features. -/
def readBody (piece : String) (negated : Bool) : List Token → Except Fault Branch
  | [] => .error (.emptyPiece piece)
  | .word name :: rest =>
      if name = ['a', 'n', 'd'] then
        .error (.expectedFeature "and")
      else
        match readKind name with
        | .error fault => .error fault
        | .ok kind => (readMore piece rest).map (⟨negated, kind, ·⟩)
  | .group body :: rest =>
      match readFeature body with
      | .error fault => .error fault
      | .ok feature => (readMore piece rest).map (⟨negated, .all, feature :: ·⟩)

/-- Reads one piece of a lower-cased text. -/
def readPiece (text : List Char) : Except Fault Branch :=
  let piece := String.ofList (Text.trim text)
  match tokens piece text with
  | .error fault => .error fault
  | .ok tokens =>
      let parts := splitNegation tokens
      readBody piece parts.1 parts.2

/-- Reads the pieces in order; the first fault wins. -/
def readPieces : List (List Char) → Except Fault (List Branch)
  | [] => .ok []
  | piece :: rest =>
      match readPiece piece with
      | .error fault => .error fault
      | .ok branch => (readPieces rest).map (branch :: ·)

end Media

/-- Reads a media query; a blank text always holds. -/
def MediaQuery.parse (source : String) : Except Media.Fault MediaQuery :=
  let text := Text.trim source.toList
  match text.map Char.toLower with
  | [] => .ok ⟨String.ofList text, []⟩
  | lowered => (Media.readPieces (Text.fields ',' lowered)).map (⟨String.ofList text, ·⟩)

end Hydration
