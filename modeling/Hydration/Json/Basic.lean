/-!
# JSON values

Options are opaque JSON values.  Objects keep their fields in the order of the
text; whole numbers are kept apart from other numbers.  `Json.merge` lays one
value over another, field by field where both are objects.
-/

namespace Hydration

/-- A JSON value. -/
inductive Json where
  | null
  | bool (value : Bool)
  | int (value : Int)
  | real (value : Float)
  | string (value : String)
  | array (items : List Json)
  | object (fields : List (String × Json))
  deriving Repr, Inhabited

namespace Json

/-- The value of a field; the last of several with one name. -/
def lookup (name : String) (fields : List (String × Json)) : Option Json :=
  (fields.reverse.find? fun field => field.1 == name).map Prod.snd

/-- Gives a field a value, in its old place if it has one. -/
def insert (name : String) (value : Json) : List (String × Json) → List (String × Json)
  | [] => [(name, value)]
  | field :: rest =>
      if field.1 = name then (name, value) :: rest
      else field :: insert name value rest

/-- Lays fields over fields; the later ones win. -/
def overlay (base overrides : List (String × Json)) : List (String × Json) :=
  overrides.foldl (fun fields field => insert field.1 field.2 fields) base

/--
Lays `overrides` over `base`: objects field by field, null not at all, and any
other value whole.
-/
def merge (base overrides : Json) : Json :=
  match base, overrides with
  | .object fields, .object others => .object (overlay fields others)
  | base, .null => base
  | _, overrides => overrides

/-- The value of a field of an object. -/
def field? (name : String) : Json → Option Json
  | .object fields => lookup name fields
  | _ => none

mutual

/-- The value with one field for each name of an object; the last one counts. -/
def settled : Json → Json
  | .array items => .array (settledItems items)
  | .object fields => .object (overlay [] (settledFields fields))
  | value => value

/-- Settles the items of an array. -/
def settledItems : List Json → List Json
  | [] => []
  | item :: rest => item.settled :: settledItems rest

/-- Settles the values of the fields of an object. -/
def settledFields : List (String × Json) → List (String × Json)
  | [] => []
  | (name, value) :: rest => (name, value.settled) :: settledFields rest

end

end Json

end Hydration
