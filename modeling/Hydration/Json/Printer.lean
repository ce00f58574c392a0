import Hydration.Decimal.Layout
import Hydration.Json.Basic

/-!
# Writing JSON texts

The compact text of a value in ASCII: other characters are escaped by their
units of sixteen bits.
-/

namespace Hydration

namespace Json

/-- Four hexadecimal digits behind a backslash and a `u`. -/
def escapeUnit (unit : Nat) : List Char :=
  let digits := Nat.toDigits 16 unit
  ['\\', 'u'] ++ List.replicate (4 - digits.length) '0' ++ digits

/-- How one character stands in a string. -/
def escapeCharacter (character : Char) : List Char :=
  let number := character.toNat
  if character = '"' then ['\\', '"']
  else if character = '\\' then ['\\', '\\']
  else if 0x20 ≤ number ∧ number < 0x7F then [character]
  else if number < 0x10000 then escapeUnit number
  else
    escapeUnit (0xD800 + (number - 0x10000) / 0x400) ++
      escapeUnit (0xDC00 + (number - 0x10000) % 0x400)

/-- A string with its quotes. -/
def renderString (text : String) : String :=
  String.ofList ('"' :: text.toList.flatMap escapeCharacter ++ ['"'])

mutual

/-- The compact text of a value. -/
def render : Json → String
  | .null => "null"
  | .bool true => "true"
  | .bool false => "false"
  | .int value => toString value
  | .real value => Decimal.writeFloat Decimal.Layout.description value
  | .string value => renderString value
  | .array items => "[" ++ ",".intercalate (renderItems items) ++ "]"
  | .object fields => "\x7b" ++ ",".intercalate (renderFields fields) ++ "\x7d"

/-- The texts of the items of an array. -/
def renderItems : List Json → List String
  | [] => []
  | item :: rest => item.render :: renderItems rest

/-- The texts of the fields of an object. -/
def renderFields : List (String × Json) → List String
  | [] => []
  | (name, value) :: rest =>
      (renderString name ++ ":" ++ value.render) :: renderFields rest

end

end Json

end Hydration
