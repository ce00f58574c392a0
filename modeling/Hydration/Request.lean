import Hydration.Media.Viewport
import Hydration.Module
import Hydration.Monitor
import Hydration.Tree

/-!
# Requests and scripts

What the host may ask of a page, and the scripts that ask the same from inside
the page's own hooks, callbacks, constructors and destructors.  An action of a
script is done a limited number of times, over all runs of the script.
-/

namespace Hydration

/-- What may be asked of a binding. -/
inductive Verb where
  | start
  | mount
  | unmount
  | destroy
  deriving DecidableEq, Repr

/-- A queue of imports that wait. -/
inductive QueueName where
  /-- The queue of the page itself. -/
  | page
  /-- The queue the host keeps beside it. -/
  | host
  deriving DecidableEq, Repr

/-- What may be asked of a page. -/
inductive Request where
  | bind (verb : Verb) (binding : BindingId)
  /-- Carries the imports of a queue on as far as they go. -/
  | drive (queue : QueueName)
  | toggle (name : String) (value : Bool)
  | resize (viewport : Viewport)
  /-- Tells whether an element can be seen. -/
  | reveal (element : ElementId) (visible : Bool)
  /-- Sets an attribute, or removes it if there is no value. -/
  | mark (element : ElementId) (name : String) (value : Option String)
  | append (parent child : ElementId)
  /-- Opens a gate for good. -/
  | release (gate : String)
  /-- Cancels a subscription of the host. -/
  | cancel (subscription : Nat)
  | dropSubscription (subscription : Nat)
  /-- Drops a monitor the host keeps. -/
  | dropMonitor (handle : Nat)
  /-- Binds the elements below a root. -/
  | hydrate (root : ElementId)
  /-- Destroys all bindings. -/
  | destroyAll

/-- What an action asks. -/
inductive Act where
  /-- Something of the binding the script is run for. -/
  | own (verb : Verb)
  /-- Something of the page. -/
  | page (request : Request)

/-- A step of a script. -/
structure Action where
  act : Act
  /-- How often it may still be done. -/
  remaining : Nat
  /-- The label of the bindings it is for; all if none is given. -/
  label : Option String

/-- Actions in order. -/
structure Script where
  actions : List Action

end Hydration
