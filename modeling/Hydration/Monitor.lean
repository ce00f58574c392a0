import Hydration.Context.Basic
import Hydration.Fault
import Hydration.Media.Query
import Hydration.Slot.Basic
import Hydration.Text.Blank
import Hydration.Text.Order

/-!
# Monitors

A monitor is a live truth value with one listener.  It follows the viewport, the
visibility of an element, or nothing but the host.  Monitors are made by
factories, which are known by name.  A watch asks one monitor for each condition
of a context and tells its audience the conjunction whenever one of them flips.
-/

namespace Hydration

/-- The key of a monitor. -/
abbrev MonitorId := Nat

/-- The key of a watch. -/
abbrev WatchId := Nat

/-- The key of a binding. -/
abbrev BindingId := Nat

/-- What a monitor follows. -/
inductive Source where
  /-- A media query about the viewport. -/
  | media (query : MediaQuery)
  /-- Whether an element can be seen, or whether it cannot. -/
  | visible (element : Nat) (wanted : Bool)
  /-- The host alone. -/
  | host

/-- Whether a source is a media query. -/
def Source.isMedia : Source → Bool
  | media _ => true
  | _ => false

/-- Who listens to a monitor. -/
inductive Listener where
  /-- A subscription of the host, with the script it runs. -/
  | host (subscription : Nat) (script : Nat)
  /-- A watch that asks the monitor. -/
  | watch (watch : WatchId)
  deriving DecidableEq, Repr

/-- A live truth value. -/
structure Monitor where
  source : Source
  value : Bool
  slot : Slot Listener

/-- The attachment of a listener to a monitor. -/
structure Attachment where
  monitor : MonitorId
  generation : Nat
  deriving DecidableEq, Repr

/-- Who is told the value of a watch. -/
inductive Audience where
  /-- A binding, which mounts and unmounts by it. -/
  | binding (binding : BindingId)
  /-- The host; `handle` is its name for the watch, `round` counts its audiences. -/
  | host (handle round : Nat)
  deriving DecidableEq, Repr

/-- A context that is being watched. -/
structure Watch where
  context : Context
  /-- One monitor for each condition. -/
  monitors : List MonitorId
  /-- One subscription for each monitor, once there is an audience. -/
  subscriptions : List (Subscription Attachment)
  audience : Option Audience
  /-- Whether it has stopped listening for good. -/
  disposed : Bool
  /-- Whether nobody holds it any more. -/
  dropped : Bool

/-- How monitors of a kind are made. -/
inductive Factory where
  /-- Media queries about the viewport. -/
  | media
  /-- The visibility of the element. -/
  | visible
  /-- The toggle of the page that the query names. -/
  | toggle
  /-- One and the same toggle of the page, whatever the query. -/
  | shared (name : String)
  /-- A new monitor that nobody changes. -/
  | fixed (value : Bool)
  /-- Whether the element carries the attribute that the query names, once and for all. -/
  | carried
  /-- Refuses every query; `name` is the kind it was registered as. -/
  | reject (name reason : String)
  deriving Repr

/-- Factories by the name of the kind, ascending in the names. -/
structure Factories where
  entries : List (String × Factory)

namespace Factories

/-- No kind of monitor is known. -/
def empty : Factories := ⟨[]⟩

/-- Registers a factory in the place of any other of its name. -/
def register (factories : Factories) (name : String) (factory : Factory) : Factories :=
  ⟨Text.assign name factory factories.entries⟩

/-- The factory of a kind. -/
def find? (factories : Factories) (name : String) : Option Factory :=
  Text.valueOf? name factories.entries

/-- Whether a kind is known. -/
def contains (factories : Factories) (name : String) : Bool :=
  (factories.find? name).isSome

/-- The kinds in ascending order. -/
def names (factories : Factories) : List String :=
  factories.entries.map Prod.fst

/-- Adds the factories of another collection, which win. -/
def extend (factories other : Factories) : Factories :=
  other.entries.foldl (fun factories entry => factories.register entry.1 entry.2) factories

/-- The name of the kind that judges media queries. -/
def mediaName : String := "media"

/-- The name of the kind that judges visibility. -/
def visibleName : String := "visible"

/-- Adds the kinds that follow the viewport and the visible elements. -/
def install (factories : Factories) : Factories :=
  (factories.register mediaName .media).register visibleName .visible

end Factories

/--
Reads the query of a visibility monitor: whether it asks for a visible element
(`true` or nothing) or for a hidden one (`false`).
-/
def Source.readVisibility (query : String) : Except ContextFault Bool :=
  let word := Text.trimmed query
  if word = "" ∨ word = "true" then .ok true
  else if word = "false" then .ok false
  else
    .error (.invalidQuery Factories.visibleName word "expected 'true' or 'false'")

end Hydration
