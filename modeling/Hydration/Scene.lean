import Hydration.Media.Parser
import Hydration.Monitor
import Hydration.Tree
import Hydration.Visibility

/-!
# The scene of a page

The elements, the viewport, the visible elements, and every monitor and watch
that looks at them.  A monitor lives as long as somebody keeps it: the host, a
watch that was not dropped, or a call under way.  Monitors that have ended are
neither refreshed nor counted.

Refreshing is in two parts.  All values are brought up to date first; only then
are the monitors that flipped reported, so that every listener sees a scene in
which all values are current.
-/

namespace Hydration

/-- The elements of a page and what watches them. -/
structure Scene where
  tree : Tree
  viewport : Viewport
  visibility : Visibility
  monitors : Table Monitor
  /-- The toggles of the page by name. -/
  toggles : List (String × MonitorId)
  watches : Table Watch
  /-- The monitors the host made for itself, until it drops them. -/
  held : Table (Option MonitorId)
  /-- The subscriptions of the host, until it drops them. -/
  subscriptions : Table (Option (Subscription Attachment))

namespace Scene

/-- A scene without elements and monitors. -/
def empty (viewport : Viewport) : Scene where
  tree := Tree.empty
  viewport := viewport
  visibility := Visibility.empty
  monitors := Table.empty
  toggles := []
  watches := Table.empty
  held := Table.empty
  subscriptions := Table.empty

def value (scene : Scene) (monitor : MonitorId) : Bool :=
  ((scene.monitors.get? monitor).map Monitor.value).getD false

def allHold (scene : Scene) (monitors : List MonitorId) : Bool :=
  monitors.all scene.value

/-- Whether the host or a watch keeps a monitor. -/
def keeps (scene : Scene) (monitor : MonitorId) : Bool :=
  scene.held.entries.contains (some monitor) ||
    scene.watches.entries.any fun watch =>
      !watch.dropped && watch.monitors.contains monitor

/-- Whether a monitor lives, given the monitors kept by calls under way. -/
def isAlive (scene : Scene) (pinned : List MonitorId) (monitor : MonitorId) : Bool :=
  scene.keeps monitor || pinned.contains monitor

/-- The living monitors of media queries, oldest first. -/
def mediaMonitors (scene : Scene) (pinned : List MonitorId) : List MonitorId :=
  scene.monitors.keysWhere fun key monitor =>
    monitor.source.isMedia && scene.isAlive pinned key

/-- Adds a monitor under the key `scene.monitors.size`. -/
def addMonitor (scene : Scene) (source : Source) (value : Bool) : Scene :=
  { scene with monitors := scene.monitors.push ⟨source, value, Slot.empty⟩ }

/-- The toggle with a name, made on first use, and the scene that has it. -/
def toggle (scene : Scene) (name : String) : MonitorId × Scene :=
  match Text.valueOf? name scene.toggles with
  | some monitor => (monitor, scene)
  | none =>
      let made := scene.addMonitor .host false
      (scene.monitors.size,
        { made with toggles := Text.assign name scene.monitors.size scene.toggles })

def make
    (scene : Scene)
    (pinned : List MonitorId)
    (factory : Factory)
    (element : ElementId)
    (query : String) :
    Scene × Except ContextFault MonitorId :=
  let key := scene.monitors.size
  match factory with
  | .media =>
      match MediaQuery.parse query with
      | .error fault =>
          (scene, .error (.invalidQuery Factories.mediaName query fault.message))
      | .ok parsed =>
          (scene.addMonitor (.media parsed) (parsed.holds scene.viewport), .ok key)
  | .visible =>
      match Source.readVisibility query with
      | .error fault => (scene, .error fault)
      | .ok wanted =>
          let pruned := scene.visibility.prune (scene.isAlive pinned)
          let made :=
            scene.addMonitor (.visible element wanted) (pruned.isVisible element == wanted)
          ({ made with visibility := pruned.watch element key }, .ok key)
  | .toggle =>
      let found := scene.toggle query
      (found.2, .ok found.1)
  | .shared name =>
      let found := scene.toggle name
      (found.2, .ok found.1)
  | .fixed value => (scene.addMonitor .host value, .ok key)
  | .carried =>
      (scene.addMonitor .host (scene.tree.hasAttribute element query), .ok key)
  | .reject name reason => (scene, .error (.invalidQuery name query reason))

def makeOf
    (scene : Scene)
    (pinned : List MonitorId)
    (factories : Factories)
    (kind : String)
    (element : ElementId)
    (query : String) :
    Scene × Except ContextFault MonitorId :=
  match factories.find? kind with
  | none => (scene, .error (.unknownMonitor kind))
  | some factory => scene.make pinned factory element query

/--
Makes one monitor for each condition in turn.  The first fault ends it; the
monitors `made` before are kept until then and by nobody afterwards.
-/
def makeAll
    (pinned : List MonitorId)
    (factories : Factories)
    (element : ElementId)
    (made : List MonitorId)
    (scene : Scene) :
    List Condition → Scene × Except ContextFault (List MonitorId)
  | [] => (scene, .ok made)
  | condition :: rest =>
      match scene.makeOf (made ++ pinned) factories condition.monitor element condition.query with
      | (after, .error fault) => (after, .error fault)
      | (after, .ok monitor) =>
          makeAll pinned factories element (made ++ [monitor]) after rest

/-- Keeps a monitor for the host under the key `scene.held.size`. -/
def hold (scene : Scene) (monitor : MonitorId) : Scene :=
  { scene with held := scene.held.push (some monitor) }

/-- The host drops a monitor it kept. -/
def unhold (scene : Scene) (handle : Nat) : Scene :=
  { scene with held := scene.held.modify handle fun _ => none }

/-- The values of the monitors the host keeps, and nothing for those it dropped. -/
def heldValues (scene : Scene) : List (Option Bool) :=
  scene.held.entries.map (·.map scene.value)

/-- Attaches a listener to a monitor in the place of any other. -/
def attach (scene : Scene) (monitor : MonitorId) (listener : Listener) :
    Scene × Subscription Attachment :=
  let generation :=
    ((scene.monitors.get? monitor).map fun entry => entry.slot.generation + 1).getD 0
  ({ scene with
      monitors := scene.monitors.modify monitor fun entry =>
        { entry with slot := entry.slot.attach listener } },
    .undoing ⟨monitor, generation⟩)

/-- Undoes an attachment, unless another one has replaced it. -/
def detach (scene : Scene) (attachment : Attachment) : Scene :=
  { scene with
    monitors := scene.monitors.modify attachment.monitor fun entry =>
      { entry with slot := entry.slot.detach attachment.generation } }

def cancel (scene : Scene) (subscription : Subscription Attachment) : Scene :=
  match subscription.pending with
  | none => scene
  | some attachment => scene.detach attachment

def listener? (scene : Scene) (monitor : MonitorId) : Option Listener :=
  (scene.monitors.get? monitor).bind fun entry => entry.slot.listener

/-- The host listens to a monitor; its subscription has the key `scene.subscriptions.size`. -/
def subscribe (scene : Scene) (monitor : MonitorId) (script : Nat) : Scene :=
  let attached := scene.attach monitor (.host scene.subscriptions.size script)
  { attached.1 with subscriptions := scene.subscriptions.push (some attached.2) }

/-- The subscription of the host with a key, unless it was dropped. -/
def subscription? (scene : Scene) (key : Nat) : Option (Subscription Attachment) :=
  (scene.subscriptions.get? key).bind id

/-- The host cancels a subscription. -/
def unsubscribe (scene : Scene) (key : Nat) : Scene :=
  match scene.subscription? key with
  | none => scene
  | some subscription =>
      { scene.cancel subscription with
        subscriptions := scene.subscriptions.modify key fun _ => some .nothing }

/-- The host drops a subscription, which cancels it. -/
def dropSubscription (scene : Scene) (key : Nat) : Scene :=
  { scene.unsubscribe key with
    subscriptions := scene.subscriptions.modify key fun _ => none }

/-- Watches a context with monitors made for it, under the key `scene.watches.size`. -/
def addWatch (scene : Scene) (context : Context) (monitors : List MonitorId) : Scene :=
  { scene with
    watches := scene.watches.push ⟨context, monitors, [], none, false, false⟩ }

/-- Makes the monitors of a context and watches it. -/
def watch
    (scene : Scene)
    (pinned : List MonitorId)
    (factories : Factories)
    (element : ElementId)
    (context : Context) :
    Scene × Except ContextFault WatchId :=
  match makeAll pinned factories element [] scene context.conditions with
  | (after, .error fault) => (after, .error fault)
  | (after, .ok monitors) => (after.addWatch context monitors, .ok after.watches.size)

/-- Whether all monitors of a watch hold. -/
def watchValue (scene : Scene) (watch : WatchId) : Bool :=
  match scene.watches.get? watch with
  | none => false
  | some entry => scene.allHold entry.monitors

/-- Cancels all subscriptions of a watch. -/
def silence (scene : Scene) (watch : WatchId) : Scene :=
  let subscriptions :=
    ((scene.watches.get? watch).map Watch.subscriptions).getD []
  { subscriptions.foldl cancel scene with
    watches := scene.watches.modify watch fun entry => { entry with subscriptions := [] } }

/-- Attaches a watch to its monitors in turn. -/
def attachAll (watch : WatchId) :
    List MonitorId → Scene → Scene × List (Subscription Attachment)
  | [], scene => (scene, [])
  | monitor :: rest, scene =>
      let first := scene.attach monitor (.watch watch)
      let others := attachAll watch rest first.1
      (others.1, first.2 :: others.2)

/-- Gives a watch an audience in the place of any other; nothing once it is disposed. -/
def listen (scene : Scene) (watch : WatchId) (audience : Audience) : Scene :=
  let silenced := scene.silence watch
  match silenced.watches.get? watch with
  | none => silenced
  | some entry =>
      if entry.disposed then
        silenced
      else
        let attached := attachAll watch entry.monitors silenced
        { attached.1 with
          watches := attached.1.watches.modify watch fun entry =>
            { entry with subscriptions := attached.2, audience := some audience } }

/-- A watch stops listening for good. -/
def disposeWatch (scene : Scene) (watch : WatchId) : Scene :=
  let silenced := scene.silence watch
  { silenced with
    watches := silenced.watches.modify watch fun entry => { entry with disposed := true } }

/-- A watch is no longer held by anybody. -/
def dropWatch (scene : Scene) (watch : WatchId) : Scene :=
  let disposed := scene.disposeWatch watch
  { disposed with
    watches := disposed.watches.modify watch fun entry => { entry with dropped := true } }

/-- The monitors among `keys` whose value differs from what `judge` says of their source. -/
def flipped (scene : Scene) (judge : Source → Bool) (keys : List MonitorId) :
    List MonitorId :=
  keys.filter fun key =>
    (scene.monitors.get? key).any fun entry => entry.value != judge entry.source

/-- Gives the monitors in `keys` the value that `judge` says of their source. -/
def store (scene : Scene) (judge : Source → Bool) (keys : List MonitorId) : Scene :=
  { scene with
    monitors := keys.foldl
      (fun monitors key =>
        monitors.modify key fun entry => { entry with value := judge entry.source })
      scene.monitors }

/-- Whether a source that follows the viewport holds in it. -/
def judgeMedia (viewport : Viewport) : Source → Bool
  | .media query => query.holds viewport
  | _ => false

/-- Whether a source that follows the visibility of an element holds if it is `visible`. -/
def judgeVisible (visible : Bool) : Source → Bool
  | .visible _ wanted => wanted == visible
  | _ => false

/-- Changes the viewport; gives the monitors that flipped, oldest first. -/
def resize (scene : Scene) (pinned : List MonitorId) (viewport : Viewport) :
    Scene × List MonitorId :=
  let judge := judgeMedia viewport
  let keys := scene.mediaMonitors pinned
  ({ scene.store judge keys with viewport := viewport }, scene.flipped judge keys)

/-- After a resize the viewport is the one that was given. -/
@[simp] theorem viewport_resize
    (scene : Scene)
    (pinned : List MonitorId)
    (viewport : Viewport) :
    (scene.resize pinned viewport).1.viewport = viewport := rfl

/-- Shows or hides an element; gives the monitors that flipped, oldest first. -/
def reveal (scene : Scene) (pinned : List MonitorId) (element : ElementId) (visible : Bool) :
    Scene × List MonitorId :=
  let judge := judgeVisible visible
  let recorded := scene.visibility.set element visible
  let keys := (recorded.watchers element).filter (scene.isAlive pinned)
  ({ scene.store judge keys with visibility := recorded.prune (scene.isAlive pinned) },
    scene.flipped judge keys)

/-- Sets a toggle; gives its monitor if it flipped. -/
def setToggle (scene : Scene) (name : String) (value : Bool) : Scene × List MonitorId :=
  let found := scene.toggle name
  let judge : Source → Bool := fun _ => value
  (found.2.store judge [found.1], found.2.flipped judge [found.1])

/-- Whether an element can be seen. -/
def isVisible (scene : Scene) (element : ElementId) : Bool :=
  scene.visibility.isVisible element

/-- Changes the element tree. -/
def changeTree (scene : Scene) (change : Tree → Tree) : Scene :=
  { scene with tree := change scene.tree }

end Scene

end Hydration
