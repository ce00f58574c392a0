/-!
# Faults

What can go wrong, by cause, with the wording of each cause in one function per
family.  A fault is scoped to what it spoils: a context fault to one element, a
mount fault to one attempt, a registry fault to one look-up.
-/

namespace Hydration

/-- Why a context cannot be watched. -/
inductive ContextFault where
  /-- No kind of monitor has this name. -/
  | unknownMonitor (name : String)
  /-- A term does not start with a monitor name of its own. -/
  | malformedTerm (term reason : String)
  /-- The monitor does not understand the query. -/
  | invalidQuery (monitor query reason : String)
  deriving DecidableEq, Repr

/-- The wording of a context fault. -/
def ContextFault.message : ContextFault → String
  | unknownMonitor name => "unknown monitor type: " ++ name
  | malformedTerm term reason =>
      "malformed context term '" ++ term ++ "': " ++ reason
  | invalidQuery monitor query reason =>
      "monitor '" ++ monitor ++ "' cannot evaluate query '" ++ query ++ "': " ++ reason

/-- Why an attempt to mount ended without an instance. -/
inductive MountFault where
  /-- The context of the element cannot be watched. -/
  | configuration (cause : ContextFault)
  /-- The module did not arrive. -/
  | importFailed (module reason : String)
  /-- The constructor gave up. -/
  | constructionFailed (module reason : String)
  /-- The module has nothing to construct. -/
  | missingConstructor (module : String)
  /-- The options written on the element are no JSON text. -/
  | invalidOptions (module reason : String)
  deriving DecidableEq, Repr

/-- The wording of a mount fault. -/
def MountFault.message : MountFault → String
  | configuration cause => "configuration error: " ++ cause.message
  | importFailed module reason =>
      "failed to import module '" ++ module ++ "': " ++ reason
  | constructionFailed module reason =>
      "failed to construct module '" ++ module ++ "': " ++ reason
  | missingConstructor module => "module '" ++ module ++ "' has no constructor"
  | invalidOptions module reason =>
      "invalid options for module '" ++ module ++ "': " ++ reason

/-- Why the registry refuses a look-up. -/
inductive RegistryFault where
  /-- The path to look up is empty. -/
  | emptyPath
  deriving DecidableEq, Repr

/-- The wording of a registry fault. -/
def RegistryFault.message : RegistryFault → String
  | emptyPath => "invalid argument: path must not be empty"

end Hydration
