import Hydration.Json.Numeral

/-!
# Reading JSON texts

The grammar of JSON with three limits: values may be nested at most 127 deep,
a number must stay in the range of doubles, and a string must be made of whole
characters.  `Json.read?` keeps repeated fields; `Json.parse?` settles them.
-/

namespace Hydration

namespace Json

/-- What was read from a text, and a rest that is shorter than the text. -/
abbrev Reading (α : Type) (text : List Char) :=
  { found : α × List Char // found.2.length < text.length }

/-- The white space of JSON texts. -/
def isSpace (character : Char) : Bool :=
  character == ' ' || character == '\t' || character == '\n' || character == '\r'

/-- The text without leading white space. -/
def skip (text : List Char) : List Char :=
  text.dropWhile isSpace

theorem skip_length (text : List Char) : (skip text).length ≤ text.length :=
  (List.dropWhile_suffix isSpace).length_le

/-- How deep values may be nested. -/
def depthLimit : Nat := 127

/-- The value of a hexadecimal digit. -/
def hexValue? (character : Char) : Option Nat :=
  if character.isDigit then some (character.toNat - 48)
  else if 'a' ≤ character ∧ character ≤ 'f' then some (character.toNat - 87)
  else if 'A' ≤ character ∧ character ≤ 'F' then some (character.toNat - 55)
  else none

/-- The number written by four hexadecimal digits. -/
def hexUnit? (a b c d : Char) : Option Nat := do
  let first ← hexValue? a
  let second ← hexValue? b
  let third ← hexValue? c
  let fourth ← hexValue? d
  return ((first * 16 + second) * 16 + third) * 16 + fourth

/-- The character that a letter behind a backslash stands for. -/
def escape? (letter : Char) : Option Char :=
  if letter = '"' then some '"'
  else if letter = '\\' then some '\\'
  else if letter = '/' then some '/'
  else if letter = 'b' then some '\x08'
  else if letter = 'f' then some '\x0c'
  else if letter = 'n' then some '\n'
  else if letter = 'r' then some '\r'
  else if letter = 't' then some '\t'
  else none

/-- Reads the inside of a string up to its closing quote; `seen` holds it backwards. -/
def readString (seen : List Char) : List Char → Option (String × List Char)
  | [] => none
  | '"' :: rest => some (String.ofList seen.reverse, rest)
  | '\\' :: 'u' :: a :: b :: c :: d :: rest =>
      match hexUnit? a b c d with
      | none => none
      | some unit =>
          if 0xD800 ≤ unit ∧ unit < 0xDC00 then
            match rest with
            | '\\' :: 'u' :: e :: f :: g :: h :: later =>
                match hexUnit? e f g h with
                | none => none
                | some low =>
                    if 0xDC00 ≤ low ∧ low < 0xE000 then
                      readString
                        (Char.ofNat ((unit - 0xD800) * 0x400 + (low - 0xDC00) + 0x10000) :: seen)
                        later
                    else
                      none
            | _ => none
          else if 0xDC00 ≤ unit ∧ unit < 0xE000 then
            none
          else
            readString (Char.ofNat unit :: seen) rest
  | '\\' :: letter :: rest =>
      match escape? letter with
      | none => none
      | some character => readString (character :: seen) rest
  | character :: rest =>
      if character.toNat < 0x20 ∨ character = '\\' then none
      else readString (character :: seen) rest

theorem readString_length
    {seen text rest : List Char}
    {value : String}
    (found : readString seen text = some (value, rest)) :
    rest.length < text.length := by
  fun_induction readString seen text <;> simp_all <;> omega

/-- A leading minus sign, and what follows a sign; a plus is dropped only where `plus` allows it. -/
def readSign (plus : Bool) (text : List Char) : Bool × List Char :=
  match text with
  | '-' :: rest => (true, rest)
  | '+' :: rest => if plus then (false, rest) else (false, text)
  | _ => (false, text)

theorem readSign_length (plus : Bool) (text : List Char) :
    (readSign plus text).2.length ≤ text.length := by
  unfold readSign
  split
  · simp
  · split <;> simp
  · simp

/-- Reads the exponent of a number, if one is written; `none` if it has no digits. -/
def readExponent (text : List Char) : Option (Option Int × List Char) :=
  match text with
  | mark :: rest =>
      if mark = 'e' ∨ mark = 'E' then
        let signed := readSign true rest
        let digits := signed.2.takeWhile Char.isDigit
        if digits = [] then
          none
        else
          let size : Int := digitsValue digits
          some (some (if signed.1 then -size else size), signed.2.dropWhile Char.isDigit)
      else
        some (none, text)
  | [] => some (none, text)

/-- Reads the places behind a point, if one is written; `none` if there are no digits. -/
def readPlaces (text : List Char) : Option (Option (List Char) × List Char) :=
  match text with
  | '.' :: rest =>
      let digits := rest.takeWhile Char.isDigit
      if digits = [] then none else some (some digits, rest.dropWhile Char.isDigit)
  | _ => some (none, text)

/-- Reads the digits before the point: a zero, or digits that start with none. -/
def readWhole (text : List Char) : Option (List Char × List Char) :=
  match text with
  | '0' :: rest => some (['0'], rest)
  | character :: rest =>
      if character.isDigit then
        some (character :: rest.takeWhile Char.isDigit, rest.dropWhile Char.isDigit)
      else
        none
  | [] => none

def readNumber (text : List Char) : Option (Json × List Char) :=
  let signed := readSign false text
  match readWhole signed.2 with
  | none => none
  | some (whole, afterWhole) =>
      match readPlaces afterWhole with
      | none => none
      | some (places?, afterPlaces) =>
          match readExponent afterPlaces with
          | none => none
          | some (exponent?, rest) =>
              let numeral : Numeral :=
                { negative := signed.1
                  whole := whole
                  places := places?.getD []
                  exponent := exponent?.getD 0
                  plain := places?.isNone && exponent?.isNone }
              numeral.value?.map (·, rest)

theorem readWhole_length
    {text whole rest : List Char}
    (found : readWhole text = some (whole, rest)) :
    rest.length < text.length := by
  unfold readWhole at found
  split at found
  · grind
  · split at found
    · have shorter := (List.dropWhile_suffix Char.isDigit (l := ‹List Char›)).length_le
      grind
    · simp at found
  · simp at found

theorem readPlaces_length
    {text rest : List Char}
    {places : Option (List Char)}
    (found : readPlaces text = some (places, rest)) :
    rest.length ≤ text.length := by
  unfold readPlaces at found
  split at found
  · next after =>
      have shorter := (List.dropWhile_suffix Char.isDigit (l := after)).length_le
      grind
  · grind

theorem readExponent_length
    {text rest : List Char}
    {exponent : Option Int}
    (found : readExponent text = some (exponent, rest)) :
    rest.length ≤ text.length := by
  unfold readExponent at found
  split at found
  · next mark after =>
      have signed := readSign_length true after
      have shorter :=
        (List.dropWhile_suffix Char.isDigit (l := (readSign true after).2)).length_le
      grind
  · grind

theorem readNumber_length
    {text rest : List Char}
    {value : Json}
    (found : readNumber text = some (value, rest)) :
    rest.length < text.length := by
  unfold readNumber at found
  dsimp only at found
  split at found
  · simp at found
  · next whole afterWhole wholeFound =>
      split at found
      · simp at found
      · next places afterPlaces placesFound =>
          split at found
          · simp at found
          · next exponent after exponentFound =>
              obtain ⟨number, _, same⟩ := Option.map_eq_some_iff.mp found
              injection same with _ same
              subst same
              have first := readWhole_length wholeFound
              have second := readPlaces_length placesFound
              have third := readExponent_length exponentFound
              have signed := readSign_length false text
              omega

/-- Reads a number with the proof that it takes something. -/
def takeNumber? (text : List Char) : Option (Reading Json text) :=
  match found : readNumber text with
  | none => none
  | some (value, rest) => some ⟨(value, rest), readNumber_length found⟩

/-- Reads the inside of a string with the proof that it takes something. -/
def takeString? (text : List Char) : Option (Reading String text) :=
  match found : readString [] text with
  | none => none
  | some (value, rest) => some ⟨(value, rest), readString_length found⟩

mutual

/-- Reads a value that starts with the text; `depth` is how deep it may be nested. -/
def readValue? (depth : Nat) (text : List Char) : Option (Reading Json text) :=
  match text with
  | 'n' :: 'u' :: 'l' :: 'l' :: rest =>
      some ⟨(.null, rest), by simp only [List.length_cons]; omega⟩
  | 't' :: 'r' :: 'u' :: 'e' :: rest =>
      some ⟨(.bool true, rest), by simp only [List.length_cons]; omega⟩
  | 'f' :: 'a' :: 'l' :: 's' :: 'e' :: rest =>
      some ⟨(.bool false, rest), by simp only [List.length_cons]; omega⟩
  | '"' :: rest =>
      match takeString? rest with
      | none => none
      | some ⟨(value, after), shorter⟩ =>
          some ⟨(.string value, after), by simp only [List.length_cons] at *; omega⟩
  | '[' :: rest =>
      match depth with
      | 0 => none
      | inner + 1 =>
          match start : skip rest with
          | ']' :: after =>
              some ⟨(.array [], after), by
                have shorter := skip_length rest
                rw [start] at shorter
                simp only [List.length_cons] at *
                omega⟩
          | _ =>
              match readItems? inner rest with
              | none => none
              | some ⟨(items, after), shorter⟩ =>
                  some ⟨(.array items, after), by simp only [List.length_cons] at *; omega⟩
  | '\x7b' :: rest =>
      match depth with
      | 0 => none
      | inner + 1 =>
          match start : skip rest with
          | '\x7d' :: after =>
              some ⟨(.object [], after), by
                have shorter := skip_length rest
                rw [start] at shorter
                simp only [List.length_cons] at *
                omega⟩
          | _ =>
              match readFields? inner rest with
              | none => none
              | some ⟨(fields, after), shorter⟩ =>
                  some ⟨(.object fields, after), by simp only [List.length_cons] at *; omega⟩
  | text => takeNumber? text
termination_by (text.length, 0)

/-- Reads the items of an array and its closing bracket. -/
def readItems? (depth : Nat) (text : List Char) : Option (Reading (List Json) text) :=
  match readValue? depth (skip text) with
  | none => none
  | some ⟨(item, rest), itemShorter⟩ =>
      match start : skip rest with
      | ']' :: after =>
          some ⟨([item], after), by
            have first := skip_length rest
            have second := skip_length text
            rw [start] at first
            simp only [List.length_cons] at *
            omega⟩
      | ',' :: after =>
          match readItems? depth after with
          | none => none
          | some ⟨(items, last), shorter⟩ =>
              some ⟨(item :: items, last), by
                have first := skip_length rest
                have second := skip_length text
                rw [start] at first
                simp only [List.length_cons] at *
                omega⟩
      | _ => none
termination_by (text.length, 1)
decreasing_by
  · have shorter := skip_length text
    simp only [Prod.lex_def]
    omega
  · have first := skip_length rest
    have second := skip_length text
    rw [start] at first
    simp only [Prod.lex_def, List.length_cons] at *
    omega

/-- Reads the fields of an object and its closing brace. -/
def readFields? (depth : Nat) (text : List Char) : Option (Reading (List (String × Json)) text) :=
  match opening : skip text with
  | '"' :: afterQuote =>
      match takeString? afterQuote with
      | none => none
      | some ⟨(name, afterName), nameShorter⟩ =>
          match colon : skip afterName with
          | ':' :: afterColon =>
              match readValue? depth (skip afterColon) with
              | none => none
              | some ⟨(value, rest), valueShorter⟩ =>
                  match start : skip rest with
                  | '\x7d' :: after =>
                      some ⟨([(name, value)], after), by
                        have first := skip_length rest
                        have second := skip_length text
                        have third := skip_length afterName
                        have fourth := skip_length afterColon
                        rw [start] at first
                        rw [opening] at second
                        rw [colon] at third
                        simp only [List.length_cons] at *
                        omega⟩
                  | ',' :: after =>
                      match readFields? depth after with
                      | none => none
                      | some ⟨(fields, last), shorter⟩ =>
                          some ⟨((name, value) :: fields, last), by
                            have first := skip_length rest
                            have second := skip_length text
                            have third := skip_length afterName
                            have fourth := skip_length afterColon
                            rw [start] at first
                            rw [opening] at second
                            rw [colon] at third
                            simp only [List.length_cons] at *
                            omega⟩
                  | _ => none
          | _ => none
  | _ => none
termination_by (text.length, 1)
decreasing_by
  · have second := skip_length text
    have third := skip_length afterName
    have fourth := skip_length afterColon
    rw [opening] at second
    rw [colon] at third
    simp only [Prod.lex_def, List.length_cons] at *
    omega
  · have first := skip_length rest
    have second := skip_length text
    have third := skip_length afterName
    have fourth := skip_length afterColon
    rw [start] at first
    rw [opening] at second
    rw [colon] at third
    simp only [Prod.lex_def, List.length_cons] at *
    omega

end

/-- The value written by a whole text, with repeated fields as written. -/
def read? (source : String) : Option Json :=
  match readValue? depthLimit (skip source.toList) with
  | none => none
  | some ⟨(value, rest), _⟩ => if skip rest = [] then some value else none

/-- The value written by a whole text. -/
def parse? (source : String) : Option Json :=
  (read? source).map settled

end Json

end Hydration
