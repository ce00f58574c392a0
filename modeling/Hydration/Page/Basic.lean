import Hydration.Binding
import Hydration.Catalog
import Hydration.Executor
import Hydration.Registry
import Hydration.Request
import Hydration.Scene

/-!
# Pages

A page is everything that changes: the scene, the registry and the catalog, the
bindings, the queued imports, the scripts with their remaining actions, the
history of what happened, and the stack of calls under way.

Scripts may ask for anything while another call is under way.  So a call that
runs a script does not wait for it: what is left to do after the script stands
on the stack below it as a call of its own.  The top call is always the one that
goes on.  The page is at rest when the stack is empty.
-/

namespace Hydration

/-- Something that happened. -/
inductive Event where
  /--
  A stage of a binding was reached; `heard` tells whether a script noticed it.
  The phase and the wish are those of the moment.
  -/
  | noticed (binding : BindingId) (notice : Notice) (phase : Phase) (wanted : Bool)
      (fault : Option MountFault) (heard : Bool)
  /-- A plugin was asked for the arguments of a constructor. -/
  | arguments (binding : BindingId)
  /-- A constructor was called. -/
  | constructing (binding : BindingId) (name : String) (arguments : Json)
  /-- A constructor has left an instance; `removable` tells whether it will be taken down. -/
  | constructed (binding : BindingId) (number : Nat) (removable : Bool)
  /-- An attempt to mount has ended in a fault. -/
  | failed (binding : BindingId) (attempt : Nat) (fault : MountFault)
  /-- The destructor of an instance was called. -/
  | destructing (binding : BindingId) (number : Nat) (name : String)
  /-- A chunk was loaded. -/
  | loading (report : Catalog.LoadReport)
  /-- A watch told the host its value. -/
  | told (handle round : Nat) (value : Bool)
  /-- A subscription of the host got a value; `values` are those of its monitors. -/
  | heard (subscription : Nat) (value : Bool) (values : List (Option Bool))

/-- How far the building of an instance has come. -/
inductive Stage where
  /-- The export to construct was asked for. -/
  | choosing (module : Module)
  /-- The arguments of its constructor were asked for. -/
  | equipping (constructor : ConstructorId)
  /-- The constructor was called. -/
  | building (constructor : ConstructorId)
  /-- The way to take the instance down was asked for. -/
  | fitting (occupant : Occupant)

/-- A call under way, or what is left of one. -/
inductive Call where
  /-- A request that was not looked at yet. -/
  | request (request : Request)
  /-- A script from one of its actions on, for a binding or for none. -/
  | script (script : ScriptId) (position : Nat) (subject : Option BindingId)
  /-- A stage of a binding is reached. -/
  | notice (binding : BindingId) (notice : Notice) (fault : Option MountFault)
  /-- Monitors that flipped are still to tell their listeners. -/
  | deliver (monitors : List MonitorId)
  /-- Monitors that live until this call is over. -/
  | pin (monitors : List MonitorId)
  /-- An attempt to mount starts its import. -/
  | launch (binding : BindingId) (attempt : Nat)
  /-- The import of an attempt has an outcome. -/
  | arrive (binding : BindingId) (attempt : Nat) (outcome : Except MountFault Module)
  /-- The building of an instance goes on from a stage. -/
  | construct (binding : BindingId) (attempt : Nat) (stage : Stage)
  /-- A mount is over; the wish may have changed. -/
  | settle (binding : BindingId)
  /-- A mounted binding is to be unmounted. -/
  | teardown (binding : BindingId)
  /-- The instance of a binding is to leave. -/
  | dismantle (binding : BindingId)
  /-- The instance of a binding has left. -/
  | vacated (binding : BindingId)
  /-- An unmount is over; the wish may have changed. -/
  | remount (binding : BindingId)
  /-- A binding is to be unmounted for good. -/
  | retire (binding : BindingId)
  /-- A binding ends. -/
  | bury (binding : BindingId)
  /-- Elements are still to be bound. -/
  | hydrate (hooks : Hooks) (elements : List ElementId)
  /-- Bindings are still to be destroyed. -/
  | destroyEach (bindings : List BindingId)
  /-- A queue is being driven. -/
  | drive (queue : QueueName)

/-- The monitors that a call keeps alive. -/
def Call.pinned : Call → List MonitorId
  | deliver monitors => monitors
  | pin monitors => monitors
  | _ => []

def Call.drives (queue : QueueName) : Call → Bool
  | drive driven => driven = queue
  | _ => false

/-- An import that somebody waits for. -/
structure Task where
  binding : BindingId
  attempt : Nat
  pending : Import Module

/-- A page with everything on it. -/
structure Page where
  scene : Scene
  settings : Settings
  registry : Registry
  catalog : Catalog Module
  constructors : Table Constructor
  scripts : Table Script
  hooks : Hooks
  bindings : Table Binding
  /-- The bindings that hydration has made and not forgotten, oldest first. -/
  modules : List BindingId
  executor : Executor Task
  /-- How many instances were built so far. -/
  instances : Nat
  /-- What happened, newest first. -/
  history : List Event
  /-- The calls under way, innermost first. -/
  stack : List Call

namespace Page

/-- A page with settings and a viewport, without elements, plugins and modules. -/
def empty (settings : Settings) (viewport : Viewport) : Page where
  scene := Scene.empty viewport
  settings := settings
  registry := Registry.empty settings.basePath
  catalog := Catalog.empty settings.basePath
  constructors := Table.empty
  scripts := Table.empty
  hooks := Hooks.standard settings
  bindings := Table.empty
  modules := []
  executor := Executor.empty
  instances := 0
  history := []
  stack := []

/-- Calls that come before all others under way. -/
def push (page : Page) (calls : List Call) : Page :=
  { page with stack := calls ++ page.stack }

/-- Adds to the history. -/
def record (page : Page) (event : Event) : Page :=
  { page with history := event :: page.history }

/-- Forgets the history. -/
def forget (page : Page) : Page :=
  { page with history := [] }

/-- The bindings of a page that an earlier state of it did not have, oldest first. -/
def newBindings (page earlier : Page) : List BindingId :=
  (List.range page.bindings.size).drop earlier.bindings.size

/-- The monitors kept alive by calls under way. -/
def pinned (page : Page) : List MonitorId :=
  page.stack.flatMap Call.pinned

def binding? (page : Page) (key : BindingId) : Option Binding :=
  page.bindings.get? key

def changeBinding (page : Page) (key : BindingId) (change : Binding → Binding) : Page :=
  { page with bindings := page.bindings.modify key change }

def phase (page : Page) (key : BindingId) : Phase :=
  ((page.binding? key).map Binding.phase).getD .destroyed

/-- Whether a binding is wanted mounted. -/
def wants (page : Page) (key : BindingId) : Bool :=
  ((page.binding? key).map Binding.wanted).getD false

/-- Moves a binding to a phase. -/
def setPhase (page : Page) (key : BindingId) (phase : Phase) : Page :=
  page.changeBinding key fun binding => { binding with phase }

/-- Says whether a binding is wanted mounted. -/
def setWanted (page : Page) (key : BindingId) (wanted : Bool) : Page :=
  page.changeBinding key fun binding => { binding with wanted }

theorem phase_of_found
    {page : Page}
    {key : BindingId}
    {binding : Binding}
    (found : page.binding? key = some binding) :
    page.phase key = binding.phase := by
  simp [phase, found]

theorem wants_of_found
    {page : Page}
    {key : BindingId}
    {binding : Binding}
    (found : page.binding? key = some binding) :
    page.wants key = binding.wanted := by
  simp [wants, found]

theorem binding?_changeBinding
    (page : Page)
    (key other : BindingId)
    (change : Binding → Binding) :
    (page.changeBinding key change).binding? other =
      if other = key then (page.binding? other).map change else page.binding? other := by
  simp only [binding?, changeBinding, Table.get?_modify]

/-- Whether the context of a binding holds; not while nobody watches it. -/
def matchesContext (page : Page) (key : BindingId) : Bool :=
  match (page.binding? key).bind Binding.watch with
  | none => false
  | some watch => page.scene.watchValue watch

/-- Adds a script under the key `page.scripts.size`. -/
def addScript (page : Page) (actions : List Action) : Page :=
  { page with scripts := page.scripts.push ⟨actions⟩ }

/-- Adds a constructor under the key `page.constructors.size`. -/
def addConstructor (page : Page) (constructor : Constructor) : Page :=
  { page with constructors := page.constructors.push constructor }

/-- Applies a plugin; bindings made earlier keep their strategies. -/
def addPlugin (page : Page) (plugin : Plugin) : Page :=
  { page with hooks := page.hooks.apply plugin }

/-- Adds a binding under the key `page.bindings.size`. -/
def addBinding (page : Page) (binding : Binding) : Page :=
  { page with bindings := page.bindings.push binding }

theorem binding?_addBinding (page : Page) (binding : Binding) (key : BindingId) :
    (page.addBinding binding).binding? key =
      if key = page.bindings.size then some binding else page.binding? key := by
  simp only [binding?, addBinding, Table.get?_push]

def setCallback (page : Page) (key : BindingId) (notice : Notice) (script : ScriptId) : Page :=
  page.changeBinding key fun binding =>
    { binding with callbacks := binding.callbacks.set notice script }

/-- Replaces the catalog. -/
def setCatalog (page : Page) (catalog : Catalog Module) : Page :=
  { page with catalog }

end Page

end Hydration
