/-!
# Flat TOML documents

The part of TOML in which every entry gives a text to a plain key: comments,
bare and quoted keys, and the four forms of strings.  Documents with tables,
dotted keys or other values are not read.  A line ends with a line feed, with or
without a carriage return before it; multi-line strings keep the carriage return.
-/

namespace Hydration

namespace Toml

/-- Whether every carriage return stands before a line feed. -/
def hasWholeLineEnds : List Char → Bool
  | [] => true
  | '\r' :: '\n' :: rest => hasWholeLineEnds rest
  | character :: rest => character ≠ '\r' && hasWholeLineEnds rest

def isLineEnd (character : Char) : Bool :=
  character == '\n' || character == '\r'

/-- The text behind the line end it starts with, if it starts with one. -/
def behindLineEnd? : List Char → Option (List Char)
  | '\n' :: rest => some rest
  | '\r' :: '\n' :: rest => some rest
  | _ => none

theorem behindLineEnd?_length
    {text rest : List Char}
    (found : behindLineEnd? text = some rest) :
    rest.length < text.length := by
  unfold behindLineEnd? at found
  split at found <;> grind

/-- A character that may stand for itself in strings and comments. -/
def isPlain (character : Char) : Bool :=
  character == '\t' || (0x20 ≤ character.toNat && character.toNat ≠ 0x7F)

/-- Space and tab. -/
def isSpace (character : Char) : Bool :=
  character == ' ' || character == '\t'

/-- The text without leading spaces and tabs. -/
def skip (text : List Char) : List Char :=
  text.dropWhile isSpace

/-- The characters of bare keys. -/
def isBare (character : Char) : Bool :=
  character.isAlphanum || character == '_' || character == '-'

/-- The value of a hexadecimal digit. -/
def hexValue? (character : Char) : Option Nat :=
  if character.isDigit then some (character.toNat - 48)
  else if 'a' ≤ character ∧ character ≤ 'f' then some (character.toNat - 87)
  else if 'A' ≤ character ∧ character ≤ 'F' then some (character.toNat - 55)
  else none

/-- The character with the number that hexadecimal digits spell, if there is one. -/
def codePoint? (digits : List Char) : Option Char :=
  let number? : Option Nat :=
    digits.foldl
      (fun number? digit => do
        let number ← number?
        let value ← hexValue? digit
        return number * 16 + value)
      (some 0)
  match number? with
  | none => none
  | some number => if number.isValidChar then some (Char.ofNat number) else none

/-- The character that a letter behind a backslash stands for. -/
def escape? (letter : Char) : Option Char :=
  if letter = '"' then some '"'
  else if letter = '\\' then some '\\'
  else if letter = 'b' then some '\x08'
  else if letter = 't' then some '\t'
  else if letter = 'n' then some '\n'
  else if letter = 'f' then some '\x0c'
  else if letter = 'r' then some '\r'
  else if letter = 'e' then some '\x1b'
  else none

/-- The text behind a backslash that ends a line: further blanks and empty lines are dropped. -/
def afterLineEnd? (text : List Char) : Option (List Char) :=
  (behindLineEnd? (skip text)).map fun rest =>
    rest.dropWhile fun character => isSpace character || isLineEnd character

theorem skip_length (text : List Char) : (skip text).length ≤ text.length :=
  (List.dropWhile_suffix isSpace).length_le

theorem afterLineEnd?_length
    {text rest : List Char}
    (found : afterLineEnd? text = some rest) :
    rest.length < text.length := by
  obtain ⟨after, start, same⟩ := Option.map_eq_some_iff.mp found
  have skipped := skip_length text
  have behind := behindLineEnd?_length start
  have shorter :=
    (List.dropWhile_suffix (fun character => isSpace character || isLineEnd character)
      (l := after)).length_le
  rw [same] at shorter
  omega

/-- The quote of literal strings. -/
def apostrophe : Char := Char.ofNat 39

/--
The quotes that still belong to a multi-line string and the text behind it, for
a text behind a first quote; none if fewer than three quotes stand together.
-/
def closing? (quote : Char) : List Char → Option (List Char × List Char)
  | a :: b :: c :: d :: rest =>
      if a = quote ∧ b = quote ∧ c = quote ∧ d = quote then some ([quote, quote], rest)
      else if a = quote ∧ b = quote ∧ c = quote then some ([quote], d :: rest)
      else if a = quote ∧ b = quote then some ([], c :: d :: rest)
      else none
  | [a, b, c] =>
      if a = quote ∧ b = quote ∧ c = quote then some ([quote], [])
      else if a = quote ∧ b = quote then some ([], [c])
      else none
  | [a, b] => if a = quote ∧ b = quote then some ([], []) else none
  | _ => none

/--
Reads the inside of a basic string and its closing quotes; `multiline` tells
which kind, `seen` holds the text so far backwards.  Up to two quotes may stand
before the three that close a multi-line string.
-/
def basic (multiline : Bool) (seen text : List Char) : Option (String × List Char) :=
  match text with
  | [] => none
  | '"' :: rest =>
      if multiline then
        match closing? '"' rest with
        | some (quotes, after) => some (String.ofList (seen.reverse ++ quotes), after)
        | none => basic multiline ('"' :: seen) rest
      else
        some (String.ofList seen.reverse, rest)
  | '\\' :: 'x' :: a :: b :: rest =>
      match codePoint? [a, b] with
      | none => none
      | some character => basic multiline (character :: seen) rest
  | '\\' :: 'u' :: a :: b :: c :: d :: rest =>
      match codePoint? [a, b, c, d] with
      | none => none
      | some character => basic multiline (character :: seen) rest
  | '\\' :: 'U' :: a :: b :: c :: d :: e :: f :: g :: h :: rest =>
      match codePoint? [a, b, c, d, e, f, g, h] with
      | none => none
      | some character => basic multiline (character :: seen) rest
  | '\\' :: rest =>
      match rest with
      | [] => none
      | letter :: after =>
          match escape? letter with
          | some character => basic multiline (character :: seen) after
          | none =>
              if multiline then
                match _found : afterLineEnd? (letter :: after) with
                | none => none
                | some later => basic multiline seen later
              else
                none
  | character :: rest =>
      if isPlain character || (multiline && isLineEnd character) then
        basic multiline (character :: seen) rest
      else
        none
termination_by text.length
decreasing_by
  · simp
  · simp only [List.length_cons]; omega
  · simp only [List.length_cons]; omega
  · simp only [List.length_cons]; omega
  · simp only [List.length_cons]; omega
  · have shorter := afterLineEnd?_length _found
    simp only [List.length_cons] at *
    omega
  · simp

/-- Reads the inside of a literal string and its closing quotes. -/
def literal (multiline : Bool) (seen : List Char) : List Char → Option (String × List Char)
  | [] => none
  | character :: rest =>
      if character = apostrophe then
        if multiline then
          match closing? apostrophe rest with
          | some (quotes, after) => some (String.ofList (seen.reverse ++ quotes), after)
          | none => literal multiline (character :: seen) rest
        else
          some (String.ofList seen.reverse, rest)
      else if isPlain character || (multiline && isLineEnd character) then
        literal multiline (character :: seen) rest
      else
        none

/-- A text without the line end it starts with. -/
def dropLineEnd (text : List Char) : List Char :=
  (behindLineEnd? text).getD text

/-- Reads a string in one of its four forms. -/
def string? (text : List Char) : Option (String × List Char) :=
  match text with
  | '"' :: '"' :: '"' :: rest => basic true [] (dropLineEnd rest)
  | '"' :: rest => basic false [] rest
  | character :: rest =>
      if character = apostrophe then
        match rest with
        | second :: third :: after =>
            if second = apostrophe ∧ third = apostrophe then
              literal true [] (dropLineEnd after)
            else
              literal false [] rest
        | _ => literal false [] rest
      else
        none
  | [] => none

/-- Reads a bare or quoted key. -/
def key? (text : List Char) : Option (String × List Char) :=
  match text with
  | '"' :: rest => basic false [] rest
  | character :: rest =>
      if character = apostrophe then
        literal false [] rest
      else if isBare character then
        some (String.ofList (character :: rest.takeWhile isBare), rest.dropWhile isBare)
      else
        none
  | [] => none

/-- What follows the end of a line: blanks, a comment, and a line end or the end of the text. -/
def lineEnd? (text : List Char) : Option (List Char) :=
  let behind :=
    match skip text with
    | '#' :: rest => rest.dropWhile isPlain
    | rest => rest
  if behind = [] then some [] else behindLineEnd? behind

/-- Reads an entry up to the end of its line. -/
def entry? (text : List Char) : Option ((String × String) × List Char) :=
  match key? text with
  | none => none
  | some (key, afterKey) =>
      match skip afterKey with
      | '=' :: afterSign =>
          match string? (skip afterSign) with
          | none => none
          | some (value, afterValue) => (lineEnd? afterValue).map ((key, value), ·)
      | _ => none

/--
Reads lines until the text ends.  Every line takes at least one character, so
`fuel` need not exceed the length of the text.
-/
def entries? (fuel : Nat) (text : List Char) : Option (List (String × String)) :=
  match fuel, skip text with
  | _, [] => some []
  | 0, _ => none
  | fuel + 1, character :: rest =>
      if isLineEnd character || character == '#' then
        match lineEnd? (character :: rest) with
        | none => none
        | some later => entries? fuel later
      else
        match entry? (character :: rest) with
        | none => none
        | some (entry, later) => (entries? fuel later).map (entry :: ·)

/-- A text without the byte order mark it starts with. -/
def dropByteOrderMark : List Char → List Char
  | '\uFEFF' :: rest => rest
  | text => text

/-- The entries of a document in the order of the text; none if it is not flat. -/
def read? (source : String) : Option (List (String × String)) :=
  let text := dropByteOrderMark source.toList
  if hasWholeLineEnds text then entries? text.length text else none

end Toml

end Hydration
