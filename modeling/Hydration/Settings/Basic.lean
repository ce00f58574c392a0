import Hydration.Text.Blank

/-!
# Settings

What a page may choose: the names of the attributes that carry module names,
contexts and options, the kind of monitor asked by default, and the base of
relative paths.
-/

namespace Hydration

/-- One setting, in the order of declaration. -/
inductive Setting where
  | moduleAttribute
  | contextAttribute
  | optionsAttribute
  | defaultMonitor
  | basePath
  deriving DecidableEq, Repr

namespace Setting

/-- All settings in the order of declaration. -/
def all : List Setting :=
  [moduleAttribute, contextAttribute, optionsAttribute, defaultMonitor, basePath]

/-- The key of a setting in documents. -/
def key : Setting → String
  | moduleAttribute => "module_attribute"
  | contextAttribute => "context_attribute"
  | optionsAttribute => "options_attribute"
  | defaultMonitor => "default_monitor"
  | basePath => "base_path"

def ofKey? (key : String) : Option Setting :=
  all.find? fun setting => setting.key == key

/-- A setting is found by its key. -/
theorem ofKey?_key (setting : Setting) : ofKey? setting.key = some setting := by
  cases setting <;> decide

end Setting

/-- The values of all settings. -/
structure Settings where
  moduleAttribute : String
  contextAttribute : String
  optionsAttribute : String
  defaultMonitor : String
  basePath : String
  deriving DecidableEq, Repr

/-- What is wrong with the value of a setting. -/
inductive SettingDefect where
  /-- Nothing but white space. -/
  | blank
  /-- White space in a name that must be one word. -/
  | spaced (value : String)
  deriving DecidableEq, Repr

/-- The wording of a defect. -/
def SettingDefect.message : SettingDefect → String
  | blank => "must not be empty"
  | spaced value => "'" ++ value ++ "' contains whitespace"

/-- Why a document gives no settings. -/
inductive SettingsFault where
  /-- The text is no TOML document of settings. -/
  | unreadableToml
  /-- The text is no JSON document of settings. -/
  | unreadableJson
  /-- A setting has an unusable value. -/
  | invalid (setting : Setting) (defect : SettingDefect)
  deriving DecidableEq, Repr

/-- The wording of a fault. -/
def SettingsFault.message : SettingsFault → String
  | unreadableToml => "TOML parse error"
  | unreadableJson => "JSON parse error"
  | invalid setting defect => "invalid setting '" ++ setting.key ++ "': " ++ defect.message

namespace Settings

/-- The settings of a page that chooses nothing. -/
def standard : Settings where
  moduleAttribute := "data-module"
  contextAttribute := "data-context"
  optionsAttribute := "data-options"
  defaultMonitor := "media"
  basePath := "/"

/-- The value of a setting. -/
def get (settings : Settings) : Setting → String
  | .moduleAttribute => settings.moduleAttribute
  | .contextAttribute => settings.contextAttribute
  | .optionsAttribute => settings.optionsAttribute
  | .defaultMonitor => settings.defaultMonitor
  | .basePath => settings.basePath

/-- Gives a setting a value. -/
def set (settings : Settings) (setting : Setting) (value : String) : Settings :=
  match setting with
  | .moduleAttribute => { settings with moduleAttribute := value }
  | .contextAttribute => { settings with contextAttribute := value }
  | .optionsAttribute => { settings with optionsAttribute := value }
  | .defaultMonitor => { settings with defaultMonitor := value }
  | .basePath => { settings with basePath := value }

theorem get_set
    (settings : Settings)
    (setting other : Setting)
    (value : String) :
    (settings.set setting value).get other =
      if other = setting then value else settings.get other := by
  cases setting <;> cases other <;> simp [set, get]

/-- The standard settings with some of them chosen. -/
def ofChoices (choices : List (Setting × String)) : Settings :=
  choices.foldl (fun settings choice => settings.set choice.1 choice.2) standard

/-- The settings that must not be blank, in the order they are looked at. -/
def named : List Setting :=
  [.moduleAttribute, .contextAttribute, .optionsAttribute, .defaultMonitor]

/-- The settings if they are usable, else the first thing wrong with them. -/
def checked (settings : Settings) : Except SettingsFault Settings :=
  match named.find? fun setting => Text.trim (settings.get setting).toList = [] with
  | some setting => .error (.invalid setting .blank)
  | none =>
      if settings.defaultMonitor.toList.any Text.isBlank then
        .error (.invalid .defaultMonitor (.spaced settings.defaultMonitor))
      else
        .ok settings

end Settings

end Hydration
