import Hydration.Json.Parser
import Hydration.Settings.Basic
import Hydration.Toml

/-!
# Settings documents

Settings are read from a TOML document, a JSON object, or a JSON array that
lists them in the order of declaration.  Unknown and repeated keys and values
that are no strings are refused; what a document leaves out keeps its standard
value.  A document that can be read is then checked.
-/

namespace Hydration

namespace Settings

/-- The settings that keys choose; none if a key is unknown or repeated. -/
def choices? : List (String × String) → Option (List (Setting × String))
  | [] => some []
  | (key, value) :: rest =>
      match Setting.ofKey? key, choices? rest with
      | some setting, some choices =>
          if choices.any fun choice => choice.1 = setting then none
          else some ((setting, value) :: choices)
      | _, _ => none

/-- The fields whose values are all strings. -/
def strings? : List (String × Json) → Option (List (String × String))
  | [] => some []
  | (key, .string value) :: rest => (strings? rest).map ((key, value) :: ·)
  | _ :: _ => none

/-- The settings chosen by the items of an array, one for each in turn. -/
def listed? : List Setting → List Json → Option (List (Setting × String))
  | _, [] => some []
  | setting :: settings, .string value :: items =>
      (listed? settings items).map ((setting, value) :: ·)
  | _, _ :: _ => none

/-- The settings chosen by a JSON value. -/
def jsonChoices? : Json → Option (List (Setting × String))
  | .object fields => (strings? fields).bind choices?
  | .array items => listed? Setting.all items
  | _ => none

/-- Reads settings from a TOML document. -/
def ofToml (source : String) : Except SettingsFault Settings :=
  match (Toml.read? source).bind choices? with
  | none => .error .unreadableToml
  | some choices => (ofChoices choices).checked

/-- Reads settings from a JSON document. -/
def ofJson (source : String) : Except SettingsFault Settings :=
  match (Json.read? source).bind jsonChoices? with
  | none => .error .unreadableJson
  | some choices => (ofChoices choices).checked

end Settings

end Hydration
