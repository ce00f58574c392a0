import Hydration.Description
import Hydration.Page.Basic

/-!
# Reports

Faults and events as JSON values, for hosts that keep logs.  A fault is an object
with its kind and its wording; an event is an array that starts with its name.
Elements are written by the names the host has for them.
-/

namespace Hydration

namespace Report

def fault (kind message : String) : Json :=
  .object [("error", .string kind), ("message", .string message)]

/-- A fault whose wording is not reported. -/
def bare (kind : String) : Json :=
  .object [("error", .string kind)]

def contextFault (cause : ContextFault) : Json :=
  let kind :=
    match cause with
    | .unknownMonitor _ => "UnknownMonitor"
    | .malformedTerm .. => "MalformedTerm"
    | .invalidQuery .. => "InvalidQuery"
  fault kind cause.message

def mountKind : MountFault → String
  | .configuration _ => "Configuration"
  | .importFailed .. => "Import"
  | .constructionFailed .. => "Construction"
  | .missingConstructor _ => "MissingConstructor"
  | .invalidOptions .. => "InvalidOptions"

/-- A mount fault; what a reader of options says about them is left out. -/
def mountFault : MountFault → Json
  | .invalidOptions module _ =>
      .object [("error", .string "InvalidOptions"), ("module", .string module)]
  | cause => fault (mountKind cause) cause.message

/-- A settings fault; what a reader of documents says about them is left out. -/
def settingsFault : SettingsFault → Json
  | .unreadableToml => bare "TomlParse"
  | .unreadableJson => bare "JsonParse"
  | .invalid setting defect =>
      .object
        [("error", .string "Invalid"), ("key", .string setting.key),
          ("message", .string (SettingsFault.invalid setting defect).message)]

def registryFault (cause : RegistryFault) : Json :=
  fault "InvalidArgument" cause.message

/-- A value, or null. -/
def option {α : Type} (report : α → Json) : Option α → Json
  | none => .null
  | some value => report value

/-- Truth values, or null. -/
def values (values : List (Option Bool)) : Json :=
  .array (values.map (option .bool))

def label (elementName : ElementId → String) (page : Page) (key : BindingId) : Json :=
  option (fun binding => .string (binding.label ++ "@" ++ elementName binding.element))
    (page.binding? key)

/-- What a host calls the watches it made. -/
inductive WatchName where
  /-- A monitor, whose audience never changes. -/
  | monitor
  /-- A context, with the number of its audience. -/
  | context
  deriving DecidableEq, Repr

/-- An event, if it is one that logs show. -/
def event? (elementName : ElementId → String) (watchName : WatchName) (page : Page) :
    Event → Option Json
  | .noticed key notice phase wanted cause heard =>
      if heard then
        some (.array
          ([.string notice.name, label elementName page key,
              .string (Description.phase phase), .bool wanted] ++
            (cause.map mountFault).toList))
      else
        none
  | .arguments key => some (.array [.string "arguments", label elementName page key])
  | .constructing key name arguments =>
      some (.array
        [.string "construct", .string name,
          option (fun binding => .string (elementName binding.element)) (page.binding? key),
          arguments])
  | .constructed .. => none
  | .failed .. => none
  | .destructing _ _ name => some (.array [.string "destruct", .string name])
  | .loading report =>
      some (.array [.string "load", .string report.path, .int report.number])
  | .told handle round value =>
      match watchName with
      | .monitor => some (.array [.string "monitor", .int handle, .bool value])
      | .context => some (.array [.string "context", .int handle, .int round, .bool value])
  | .heard key value others =>
      some (.array [.string "sub", .int key, .bool value, values others])

/-- The history of a page, oldest event first. -/
def history (elementName : ElementId → String) (watchName : WatchName) (page : Page) : Json :=
  .array (page.history.reverse.filterMap (event? elementName watchName page))

end Report

end Hydration
