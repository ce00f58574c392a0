/-!
# Contexts

A context says when a part of a page is to be live: a list of conditions that
must all hold.  A condition names the kind of monitor that judges it and the
query put to that monitor.  `Context.render` is the canonical text of a context.
-/

namespace Hydration

/-- One term of a context. -/
structure Condition where
  /-- The kind of monitor asked. -/
  monitor : String
  /-- What it is asked; may be empty. -/
  query : String
  deriving DecidableEq, Repr

/-- The canonical text of a condition; an empty query leaves no trailing space. -/
def Condition.render (condition : Condition) : String :=
  if condition.query.isEmpty then
    "@" ++ condition.monitor
  else
    "@" ++ condition.monitor ++ " " ++ condition.query

/-- Conditions that must all hold, in the order of the text. -/
structure Context where
  conditions : List Condition
  deriving DecidableEq, Repr

namespace Context

/-- The context without conditions, which always holds. -/
def always : Context := ⟨[]⟩

/-- The number of conditions. -/
def size (context : Context) : Nat :=
  context.conditions.length

/-- A context without conditions. -/
def isEmpty (context : Context) : Bool :=
  context.conditions.isEmpty

/-- The canonical text: the conditions joined by ` and `. -/
def render (context : Context) : String :=
  " and ".intercalate (context.conditions.map Condition.render)

end Context

end Hydration
