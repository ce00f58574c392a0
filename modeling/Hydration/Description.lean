import Hydration.Decimal.Layout
import Hydration.Page.Basic
import Hydration.Slot.Board
import Hydration.Text.Quoted

/-!
# Descriptions

One-line descriptions of the parts of a page, for logs: the name of the part,
then its fields between braces.  A part that does not show all of its fields
ends in two dots.
-/

namespace Hydration

namespace Description

/-- A name, and fields between braces. -/
def record (name : String) (fields : List (String × String)) : String :=
  name ++ " \x7b " ++
    ", ".intercalate (fields.map fun field => field.1 ++ ": " ++ field.2) ++ " \x7d"

/-- A name, and some of the fields between braces. -/
def partialRecord (name : String) (fields : List (String × String)) : String :=
  name ++ " \x7b " ++
    ", ".intercalate ((fields.map fun field => field.1 ++ ": " ++ field.2) ++ [".."]) ++
    " \x7d"

/-- A truth value. -/
def bool (value : Bool) : String :=
  if value then "true" else "false"

/-- A double. -/
def float (value : Float) : String :=
  Decimal.writeFloat Decimal.Layout.description value

/-- The dimensions of a viewport. -/
def viewportState (viewport : Viewport) : String :=
  record "ViewportState"
    [("width", float viewport.width), ("height", float viewport.height),
      ("font_size", float viewport.fontSize)]

def viewport (scene : Scene) : String :=
  record "Viewport" [("state", viewportState scene.viewport)]

/-- The visible elements of a scene. -/
def visibility (scene : Scene) : String :=
  record "VisibilityMap" [("elements", toString scene.visibility.tracked)]

/-- What a scene offers to monitors. -/
def environment (scene : Scene) : String :=
  record "HeadlessEnvironment"
    [("viewport", viewport scene), ("visibility", visibility scene)]

/-- The kinds of monitors that are known. -/
def factories (factories : Factories) : String :=
  record "MonitorRegistry" [("names", Text.quotedList factories.names)]

def slot {α : Type} (slot : Slot α) : String :=
  record "ListenerSlot" [("is_set", bool slot.isSet)]

def subscription {κ : Type} (subscription : Subscription κ) : String :=
  record "Subscription" [("active", bool subscription.isActive)]

def toggle (monitor : Monitor) : String :=
  record "Toggle"
    [("value", record "Cell" [("value", bool monitor.value)]), ("slot", slot monitor.slot)]

def watch (scene : Scene) (watch : Watch) : String :=
  record "ContextMonitor"
    [("expression", Text.quoted watch.context.render),
      ("matches", bool (scene.allHold watch.monitors)),
      ("disposed", bool watch.disposed)]

/-- Redirects between braces. -/
def redirects (entries : List (String × String)) : String :=
  "\x7b" ++
    ", ".intercalate
      (entries.map fun entry => Text.quoted entry.1 ++ ": " ++ Text.quoted entry.2) ++
    "\x7d"

def registry (registry : Registry) : String :=
  record "ModuleRegistry"
    [("base_path", Text.quoted registry.base), ("specs", toString registry.size),
      ("redirects", redirects registry.redirects),
      ("has_loader", bool registry.forwarded.isSome)]

def module (module : Module) : String :=
  record "Module"
    [("has_default", bool module.standard.isSome),
      ("exports", Text.quotedList (module.exports.map Prod.fst))]

def catalog {μ : Type} (catalog : Catalog μ) : String :=
  record "ModuleCatalog"
    [("base_path", Text.quoted catalog.base),
      ("paths", Text.quotedList (Text.inOrder (catalog.definitions.map Prod.fst)))]

/-- The queue of a page. -/
def pendingImports : String :=
  partialRecord "PendingImports" []

def plugin (plugin : Plugin) : String :=
  partialRecord "Plugin" [("monitors", factories plugin.factories)]

/-- Strategies. -/
def hooks (hooks : Hooks) : String :=
  partialRecord "Hooks"
    [("monitors", factories hooks.factories),
      ("default_monitor", Text.quoted hooks.defaultMonitor)]

def settings (settings : Settings) : String :=
  record "MountSettings"
    (Setting.all.map fun setting => (setting.key, Text.quoted (settings.get setting)))

/-- A page with its settings and its registry. -/
def page (page : Page) : String :=
  partialRecord "Conditioner"
    [("settings", settings page.settings), ("registry", registry page.registry),
      ("modules", toString page.modules.length)]

/-- An element: its tag and its attributes, as in markup but without any escapes. -/
def element (tree : Tree) (element : ElementId) : String :=
  match tree.node? element with
  | none => "<>"
  | some node =>
      "<" ++ node.tag ++
        String.join
          (node.attributes.map fun entry => " " ++ entry.1 ++ "=\"" ++ entry.2 ++ "\"") ++
        ">"

/-- The name of a phase. -/
def phase : Phase → String
  | .unmounted => "Unmounted"
  | .mounting => "Mounting"
  | .mounted => "Mounted"
  | .destroyed => "Destroyed"

def binding (tree : Tree) (binding : Binding) : String :=
  record "BoundModule"
    [("alias", Text.quoted binding.label), ("name", Text.quoted binding.name),
      ("element", element tree binding.element), ("state", phase binding.phase)]

def occupant (built : Instance) : String :=
  record "Instance"
    [("has_destructor", bool built.destructible), ("has_handle", bool built.handle.isSome)]

/-- The description of the instance of a binding, if it has one. -/
def occupied (binding : Binding) : String :=
  match binding.occupant with
  | none => "None"
  | some found => "Some(" ++ Text.quoted (occupant found.built) ++ ")"

end Description

end Hydration
