import Hydration.Json.Basic
import Hydration.Module
import Hydration.Monitor
import Hydration.Settings.Basic
import Hydration.Tree

/-!
# Hooks and plugins

Every decision of hydration and mounting is a strategy that a plugin may
replace; every stage of a binding's life is noticed by at most one script.
Plugins are applied in order, and the later one wins.
-/

namespace Hydration

/-- A stage of a binding's life that somebody may notice. -/
inductive Notice where
  | willMount
  | didMount
  | willUnmount
  | didUnmount
  | mountError
  | willDestroy
  | didDestroy
  /-- The callbacks of a single binding. -/
  | onMount
  | onUnmount
  | onMountError
  | onDestroy
  deriving DecidableEq, Repr

/-- Whether a notice goes to the callback of one binding and not to a hook of the page. -/
def Notice.isCallback : Notice → Bool
  | onMount | onUnmount | onMountError | onDestroy => true
  | _ => false

/-- The notices that go to hooks of the page. -/
def Notice.hooks : List Notice :=
  [willMount, didMount, willUnmount, didUnmount, mountError, willDestroy, didDestroy]

/-- The name of a notice in logs. -/
def Notice.name : Notice → String
  | willMount => "will_mount"
  | didMount => "did_mount"
  | willUnmount => "will_unmount"
  | didUnmount => "did_unmount"
  | mountError => "mount_error"
  | willDestroy => "will_destroy"
  | didDestroy => "did_destroy"
  | onMount => "on_mount"
  | onUnmount => "on_unmount"
  | onMountError => "on_mount_error"
  | onDestroy => "on_destroy"

/-- Scripts by what they notice. -/
abbrev Notices := List (Notice × ScriptId)

/-- The script that notices a stage. -/
def Notices.script? (notices : Notices) (notice : Notice) : Option ScriptId :=
  (notices.find? fun entry => entry.1 = notice).map Prod.snd

/-- Sets the script that notices a stage. -/
def Notices.set (notices : Notices) (notice : Notice) (script : ScriptId) : Notices :=
  (notice, script) :: notices.filter fun entry => entry.1 ≠ notice

/-- Which elements a root stands for. -/
inductive Selection where
  /-- The root and what is below it, as far as they carry an attribute. -/
  | annotated (name : String)
  /-- Always these. -/
  | fixed (elements : List ElementId)

/-- How a text is read from an element. -/
inductive Reader where
  | carried (name : String)
  | constant (value : Option String)

/-- How the label of an element becomes the name of a module. -/
inductive Naming where
  /-- By the redirects of the registry. -/
  | redirect
  /-- By a text in front. -/
  | fronted (front : String)

/-- Where modules come from. -/
inductive Importer where
  | catalog
  /-- Chunks by name, loaded anew every time. -/
  | chunks (keys : List (String × Nat))

/-- The export that is constructed. -/
inductive Export where
  | standard
  | named (name : String)

/-- What constructors are given. -/
inductive Arguments where
  /-- The registered options under those in an attribute of the element. -/
  | options (name : String)
  | constant (value : Json)
  | refused (fault : MountFault)

/-- When an import that was started is looked at first. -/
inductive Spawning where
  /-- At once; it is queued only if it waits. -/
  | immediate
  /-- When the queue of the host is driven. -/
  | queued
  deriving DecidableEq, Repr

/-- A strategy that is asked while the import of a module is turned into an instance. -/
inductive Question where
  /-- Which export is constructed. -/
  | entry
  /-- What its constructor is given. -/
  | arguments
  /-- How the instance is taken down. -/
  | destructor
  deriving DecidableEq, Repr

/-- Scripts by the question they are run at, before it is answered. -/
abbrev Consultations := List (Question × ScriptId)

/-- The script that is run when a question is asked. -/
def Consultations.script? (consultations : Consultations) (question : Question) :
    Option ScriptId :=
  (consultations.find? fun entry => entry.1 = question).map Prod.snd

/-- The strategies of a page. -/
structure Hooks where
  selection : Selection
  readName : Reader
  naming : Naming
  readContext : Reader
  importer : Importer
  entry : Export
  /-- Whether the way to take an instance down is taken out of it. -/
  extractsDestructor : Bool
  arguments : Arguments
  consultations : Consultations
  notices : Notices
  spawning : Spawning
  factories : Factories
  /-- The kind of monitor asked by a text that does not name one. -/
  defaultMonitor : String

/-- The strategies of a page without plugins. -/
def Hooks.standard (settings : Settings) : Hooks where
  selection := .annotated settings.moduleAttribute
  readName := .carried settings.moduleAttribute
  naming := .redirect
  readContext := .carried settings.contextAttribute
  importer := .catalog
  entry := .standard
  extractsDestructor := true
  arguments := .options settings.optionsAttribute
  consultations := []
  notices := []
  spawning := .immediate
  factories := Factories.empty
  defaultMonitor := settings.defaultMonitor

/-- Strategies that replace others. -/
structure Plugin where
  selection : Option Selection := none
  readName : Option Reader := none
  naming : Option Naming := none
  readContext : Option Reader := none
  importer : Option Importer := none
  entry : Option Export := none
  extractsDestructor : Option Bool := none
  arguments : Option Arguments := none
  /-- What stands first for a question counts. -/
  consultations : Consultations := []
  notices : Notices := []
  spawning : Option Spawning := none
  factories : Factories := Factories.empty

/-- The plugin that brings the kinds of monitors of the scene. -/
def Plugin.scene : Plugin :=
  { factories := Factories.empty.install }

/-- The strategies after a plugin. -/
def Hooks.apply (hooks : Hooks) (plugin : Plugin) : Hooks where
  selection := plugin.selection.getD hooks.selection
  readName := plugin.readName.getD hooks.readName
  naming := plugin.naming.getD hooks.naming
  readContext := plugin.readContext.getD hooks.readContext
  importer := plugin.importer.getD hooks.importer
  entry := plugin.entry.getD hooks.entry
  extractsDestructor := plugin.extractsDestructor.getD hooks.extractsDestructor
  arguments := plugin.arguments.getD hooks.arguments
  consultations := plugin.consultations ++ hooks.consultations
  notices := plugin.notices.foldl
    (fun notices entry => notices.set entry.1 entry.2) hooks.notices
  spawning := plugin.spawning.getD hooks.spawning
  factories := hooks.factories.extend plugin.factories
  defaultMonitor := hooks.defaultMonitor

/-- The text a reader finds on an element. -/
def Reader.read (reader : Reader) (tree : Tree) (element : ElementId) : Option String :=
  match reader with
  | .carried name => tree.attribute? element name
  | .constant value => value

/-- The elements a root stands for, in document order. -/
def Selection.elements (selection : Selection) (tree : Tree) (root : ElementId) :
    List ElementId :=
  match selection with
  | .annotated name =>
      (if tree.hasAttribute root name then [root] else []) ++
        tree.withAttribute root name
  | .fixed elements => elements

end Hydration
