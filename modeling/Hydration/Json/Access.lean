import Hydration.Json.Basic

/-!
# Taking JSON values apart

The value of a given kind in a JSON value or in one of its fields.  A field that
is null counts as absent.
-/

namespace Hydration

namespace Json

def text? : Json → Option String
  | .string value => some value
  | _ => none

/-- A truth value. -/
def bool? : Json → Option Bool
  | .bool value => some value
  | _ => none

/-- A whole number. -/
def int? : Json → Option Int
  | .int value => some value
  | _ => none

/-- A whole number that is not negative. -/
def nat? : Json → Option Nat
  | .int value => if value < 0 then none else some value.toNat
  | _ => none

/-- A number as a double, the nearest one to a whole number. -/
def float? : Json → Option Float
  | .int value => some (Float.ofInt value)
  | .real value => some value
  | _ => none

def items? : Json → Option (List Json)
  | .array items => some items
  | _ => none

def fields? : Json → Option (List (String × Json))
  | .object fields => some fields
  | _ => none

/-- The value of a field that is present and not null. -/
def given? (json : Json) (name : String) : Option Json :=
  match json.field? name with
  | some .null => none
  | found => found

/-- The value of a field, or null. -/
def valueAt (json : Json) (name : String) : Json :=
  (json.field? name).getD .null

/-- The text in a field. -/
def textAt? (json : Json) (name : String) : Option String :=
  (json.given? name).bind text?

/-- The number in a field. -/
def natAt? (json : Json) (name : String) : Option Nat :=
  (json.given? name).bind nat?

/-- The truth value in a field. -/
def boolAt? (json : Json) (name : String) : Option Bool :=
  (json.given? name).bind bool?

/-- The truth value in a field, if there is one. -/
def flagAt (json : Json) (name : String) (otherwise : Bool) : Bool :=
  (json.boolAt? name).getD otherwise

/-- The items of an array in a field; none if there is no array. -/
def itemsAt (json : Json) (name : String) : List Json :=
  ((json.given? name).bind items?).getD []

/-- The fields of an object in a field; none if there is no object. -/
def fieldsAt (json : Json) (name : String) : List (String × Json) :=
  ((json.given? name).bind fields?).getD []

end Json

end Hydration
