import Hydration.Fault
import Hydration.Text.Order

/-!
# Modules

A module offers constructors: one by default, others by name.  A constructor
either gives up or leaves an instance behind, which may carry a way to take it
down again and a handle for the host.
-/

namespace Hydration

/-- The key of a constructor. -/
abbrev ConstructorId := Nat

/-- The key of a script. -/
abbrev ScriptId := Nat

/-- How often a constructor gives up. -/
structure Failure where
  fault : MountFault
  /-- The first calls that fail; all of them if none is given. -/
  calls : Option Nat

/-- A way to build instances. -/
structure Constructor where
  name : String
  failure : Option Failure
  /-- Whether its instances can be taken down. -/
  destructible : Bool
  handle : Option Int
  /-- Run while an instance is built. -/
  building : ScriptId
  /-- Run while an instance is taken down. -/
  takingDown : ScriptId
  /-- How often it was called. -/
  calls : Nat

/-- The way to take an instance down. -/
structure Destructor where
  /-- The name of the constructor that left the instance. -/
  name : String
  /-- Run while the instance is taken down. -/
  script : ScriptId

/-- The fault of the next call, if it fails. -/
def Constructor.nextFault? (constructor : Constructor) : Option MountFault :=
  match constructor.failure with
  | none => none
  | some failure =>
      match failure.calls with
      | none => some failure.fault
      | some limit => if constructor.calls < limit then some failure.fault else none

/-- An imported module. -/
structure Module where
  standard : Option ConstructorId
  /-- Ascending in the names. -/
  exports : List (String × ConstructorId)
  deriving DecidableEq

/-- The constructor exported under a name. -/
def Module.named? (module : Module) (name : String) : Option ConstructorId :=
  Text.valueOf? name module.exports

/-- What a constructor has left behind. -/
structure Instance where
  /-- Distinguishes the instances of a page. -/
  number : Nat
  constructor : ConstructorId
  /-- Whether the way to take it down is still inside. -/
  destructible : Bool
  handle : Option Int

end Hydration
