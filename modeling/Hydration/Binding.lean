import Hydration.Hooks

/-!
# Bindings

A binding ties one element to one module and to a context.  It remembers what is
wanted of it and which attempt to mount is the current one, so that what arrives
late can be told from what is still wanted.
-/

namespace Hydration

/-- Where a binding is in its life. -/
inductive Phase where
  /-- There is no instance. -/
  | unmounted
  /-- The module is being imported. -/
  | mounting
  /-- There is an instance. -/
  | mounted
  /-- The end. -/
  | destroyed
  deriving DecidableEq, Repr

/-- The instance of a mounted binding. -/
structure Occupant where
  built : Instance
  /-- The way to take it down, if it was taken out of it to be used when it leaves. -/
  destructor : Option Destructor

/-- Whether an instance is taken down when it leaves. -/
def Occupant.isRemovable (occupant : Occupant) : Bool :=
  occupant.destructor.isSome

/-- What a constructor leaves behind; `extracts` tells whether the destructor is taken out. -/
def Occupant.of (constructor : Constructor) (chosen : ConstructorId) (number : Nat)
    (extracts : Bool) : Occupant where
  built :=
    { number := number
      constructor := chosen
      destructible := constructor.destructible && !extracts
      handle := constructor.handle }
  destructor :=
    if constructor.destructible && extracts then
      some ⟨constructor.name, constructor.takingDown⟩
    else
      none

/-- An element bound to a module. -/
structure Binding where
  /-- The name found on the element. -/
  label : String
  /-- The name that is imported. -/
  name : String
  element : ElementId
  context : Except ContextFault Context
  /-- The strategies in force when it was made. -/
  hooks : Hooks
  phase : Phase
  /-- Whether it is wanted mounted. -/
  wanted : Bool
  /--
  The number of the latest attempt to mount.  A word of 64 bits holds it as long
  as fewer than 2 ^ 64 attempts are begun.
  -/
  attempt : Nat
  occupant : Option Occupant
  watch : Option WatchId
  callbacks : Notices

/-- A binding at the start of its life. -/
def Binding.fresh
    (label name : String)
    (element : ElementId)
    (context : Except ContextFault Context)
    (hooks : Hooks) :
    Binding where
  label := label
  name := name
  element := element
  context := context
  hooks := hooks
  phase := .unmounted
  wanted := false
  attempt := 0
  occupant := none
  watch := none
  callbacks := []

/-- The script that notices a stage of a binding. -/
def Binding.script? (binding : Binding) (notice : Notice) : Option ScriptId :=
  if notice.isCallback then binding.callbacks.script? notice
  else binding.hooks.notices.script? notice

end Hydration
