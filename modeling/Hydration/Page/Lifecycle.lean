import Hydration.Json.Parser
import Hydration.Page.Basic

/-!
# The life of a binding

A binding converges to the latest wish.  A wish that comes while a module is
being imported, or while an instance is built or taken down, is only noted; what
is left of the call looks at it afterwards.  Each attempt to mount has a number,
and an import that arrives for an attempt that is no longer the current one is
discarded.
-/

namespace Hydration

namespace Page

/-- Notices a stage, and the fault with it if there is one. -/
def notice (page : Page) (key : BindingId) (notice : Notice) (fault : Option MountFault) :
    Page :=
  match page.binding? key with
  | none => page
  | some binding =>
      let script := binding.script? notice
      let noticed :=
        page.record (.noticed key notice binding.phase binding.wanted fault script.isSome)
      match script with
      | none => noticed
      | some script => noticed.push [.script script 0 (some key)]

/-- Reports a fault to the hook and the callback for faults. -/
def report (page : Page) (key : BindingId) (fault : MountFault) : Page :=
  page.push [.notice key .mountError (some fault), .notice key .onMountError (some fault)]

/-- Wants a binding mounted; starts an attempt if there is no instance and none on its way. -/
def mount (page : Page) (key : BindingId) : Page :=
  match page.binding? key with
  | none => page
  | some binding =>
      match binding.phase with
      | .destroyed => page
      | .mounting | .mounted => page.setWanted key true
      | .unmounted =>
          let attempt := binding.attempt + 1
          (page.changeBinding key fun binding =>
            { binding with wanted := true, phase := .mounting, attempt }).push
            [.notice key .willMount none, .launch key attempt]

/-- Whether a binding still mounts by this attempt. -/
def isCurrent (binding : Binding) (attempt : Nat) : Bool :=
  binding.phase = .mounting ∧ binding.attempt = attempt

def startImport (page : Page) (importer : Importer) (name : String) :
    Catalog.Started Module :=
  match importer with
  | .catalog => page.catalog.start name
  | .chunks keys =>
      match Text.valueOf? name keys with
      | none =>
          ⟨.settled (.error (.importFailed name "not in plugin")), none, page.catalog⟩
      | some key =>
          match page.catalog.chunks.get? key with
          | none =>
              ⟨.settled (.error (.importFailed name "not in plugin")), none, page.catalog⟩
          | some chunk => page.catalog.load key chunk none

/-- Looks at a new task at once and queues it if it waits, or queues it unseen. -/
def spawn (page : Page) (spawning : Spawning) (task : Task) : Page :=
  match spawning with
  | .queued => { page with executor := page.executor.spawn .host task }
  | .immediate =>
      match page.catalog.poll page.executor.opened task.pending with
      | none => { page with executor := page.executor.spawn .page task }
      | some (outcome, catalog) =>
          { page with catalog }.push [.arrive task.binding task.attempt outcome]

/-- Starts the import of an attempt, if it is still current. -/
def launch (page : Page) (key : BindingId) (attempt : Nat) : Page :=
  match page.binding? key with
  | none => page
  | some binding =>
      if isCurrent binding attempt then
        let started := page.startImport binding.hooks.importer binding.name
        let reported :=
          match started.report with
          | none => page
          | some report => page.record (.loading report)
        { reported with catalog := started.catalog }.spawn binding.hooks.spawning
          ⟨key, attempt, started.pending⟩
      else
        page

/-- The registered options of a binding under those written on its element. -/
def optionsOf (page : Page) (binding : Binding) (attributeName : String) :
    Except MountFault Json :=
  let registered :=
    match page.registry.lookup binding.name with
    | .ok (some registration) => registration.options
    | _ => .null
  match page.scene.tree.attribute? binding.element attributeName with
  | none => .ok registered
  | some text =>
      match Json.parse? text with
      | none => .error (.invalidOptions binding.name "not a JSON text")
      | some overrides => .ok (registered.merge overrides)

/-- The arguments of the constructor of a binding. -/
def argumentsOf (page : Page) (binding : Binding) : Except MountFault Json :=
  match binding.hooks.arguments with
  | .options name => page.optionsOf binding name
  | .constant value => .ok value
  | .refused fault => .error fault

/-- The constructor that a module offers to a binding. -/
def Export.of (chosen : Export) (module : Module) : Option ConstructorId :=
  match chosen with
  | .standard => module.standard
  | .named name => module.named? name

/-- An attempt has failed: the binding is unmounted, and the fault is reported. -/
def fail (page : Page) (key : BindingId) (attempt : Nat) (fault : MountFault) : Page :=
  ((page.setPhase key .unmounted).record (.failed key attempt fault)).report key fault

/-- Goes on to a stage after the script that is run at a question. -/
def consult (page : Page) (key : BindingId) (binding : Binding) (attempt : Nat)
    (question : Question) (stage : Stage) : Page :=
  let waiting := page.push [.construct key attempt stage]
  match binding.hooks.consultations.script? question with
  | none => waiting
  | some script => waiting.push [.script script 0 (some key)]

/-- The export of a module is chosen; its arguments are asked for next. -/
def choose (page : Page) (key : BindingId) (binding : Binding) (attempt : Nat)
    (module : Module) : Page :=
  match Export.of binding.hooks.entry module with
  | none => page.fail key attempt (.missingConstructor binding.name)
  | some chosen =>
      let asked :=
        match binding.hooks.arguments with
        | .options _ => page
        | _ => page.record (.arguments key)
      asked.consult key binding attempt .arguments (.equipping chosen)

/-- A constructor is given its arguments and called. -/
def equip (page : Page) (key : BindingId) (binding : Binding) (attempt : Nat)
    (chosen : ConstructorId) : Page :=
  match page.argumentsOf binding, page.constructors.get? chosen with
  | .error fault, _ => page.fail key attempt fault
  | .ok _, none => page.fail key attempt (.missingConstructor binding.name)
  | .ok arguments, some constructor =>
      (page.record (.constructing key constructor.name arguments)).push
        [.script constructor.building 0 (some key), .construct key attempt (.building chosen)]

/-- A constructor has run its script: it gives up or leaves an instance. -/
def build (page : Page) (key : BindingId) (binding : Binding) (attempt : Nat)
    (chosen : ConstructorId) : Page :=
  match page.constructors.get? chosen with
  | none => page.fail key attempt (.missingConstructor binding.name)
  | some constructor =>
      let counted :=
        { page with
          constructors := page.constructors.modify chosen fun constructor =>
            { constructor with calls := constructor.calls + 1 } }
      match constructor.nextFault? with
      | some fault => counted.fail key attempt fault
      | none =>
          let number := page.instances
          let occupant := Occupant.of constructor chosen number binding.hooks.extractsDestructor
          ({ counted with instances := number + 1 }.record
            (.constructed key number occupant.isRemovable)).consult
            key binding attempt .destructor (.fitting occupant)

/-- An instance moves in, whatever was done to the binding while it was built. -/
def moveIn (page : Page) (key : BindingId) (occupant : Occupant) : Page :=
  (page.changeBinding key fun binding =>
    { binding with occupant := some occupant, phase := .mounted }).push
    [.notice key .didMount none, .notice key .onMount none, .settle key]

/-- The building of an instance goes on. -/
def construct (page : Page) (key : BindingId) (attempt : Nat) (stage : Stage) : Page :=
  match page.binding? key with
  | none => page
  | some binding =>
      match stage with
      | .choosing module => page.choose key binding attempt module
      | .equipping chosen => page.equip key binding attempt chosen
      | .building chosen => page.build key binding attempt chosen
      | .fitting occupant => page.moveIn key occupant

/-- The import of an attempt has arrived; it is discarded if the attempt is over. -/
def arrive (page : Page) (key : BindingId) (attempt : Nat)
    (outcome : Except MountFault Module) : Page :=
  match page.binding? key with
  | none => page
  | some binding =>
      if isCurrent binding attempt then
        match outcome with
        | .error fault => page.fail key attempt fault
        | .ok module => page.consult key binding attempt .entry (.choosing module)
      else
        page

/-- A mount is over: an unwanted instance leaves again. -/
def settle (page : Page) (key : BindingId) : Page :=
  if page.wants key then page else page.push [.teardown key]

/-- Begins to unmount a mounted binding. -/
def teardown (page : Page) (key : BindingId) : Page :=
  if page.phase key = .mounted then
    page.push [.notice key .willUnmount none, .dismantle key]
  else
    page

/-- Takes the instance of a mounted binding out and runs its destructor. -/
def dismantle (page : Page) (key : BindingId) : Page :=
  match page.binding? key with
  | none => page
  | some binding =>
      if binding.phase = .mounted then
        let emptied := page.changeBinding key fun binding => { binding with occupant := none }
        let vacated := emptied.push [.vacated key]
        match binding.occupant with
        | none => vacated
        | some occupant =>
            match occupant.destructor with
            | none => vacated
            | some destructor =>
                (vacated.record
                  (.destructing key occupant.built.number destructor.name)).push
                  [.script destructor.script 0 (some key)]
      else
        page

/-- The instance of a binding has left, whatever its destructor has done to the binding. -/
def vacated (page : Page) (key : BindingId) : Page :=
  (page.setPhase key .unmounted).push
    [.notice key .didUnmount none, .notice key .onUnmount none, .remount key]

/-- An unmount is over: a binding that is wanted again is mounted again. -/
def remount (page : Page) (key : BindingId) : Page :=
  if page.wants key ∧ page.phase key = .unmounted then page.mount key else page

/-- No longer wants a binding mounted; unmounts it if there is an instance. -/
def unmount (page : Page) (key : BindingId) : Page :=
  match page.phase key with
  | .destroyed => page
  | .mounted => (page.setWanted key false).push [.teardown key]
  | _ => page.setWanted key false

/-- Ends a binding, unless it has ended. -/
def destroy (page : Page) (key : BindingId) : Page :=
  if page.phase key = .destroyed then page
  else page.push [.notice key .willDestroy none, .retire key]

/-- A binding that is about to end is unmounted. -/
def retire (page : Page) (key : BindingId) : Page :=
  let unwanted := page.setWanted key false
  if page.phase key = .mounted then unwanted.push [.teardown key, .bury key]
  else unwanted.push [.bury key]

/-- A binding ends: nobody watches its context any more. -/
def bury (page : Page) (key : BindingId) : Page :=
  let unwatched :=
    match (page.binding? key).bind Binding.watch with
    | none => page
    | some watch => { page with scene := page.scene.dropWatch watch }
  (unwatched.changeBinding key fun binding =>
    { binding with watch := none, phase := .destroyed }).push
    [.notice key .didDestroy none, .notice key .onDestroy none]

/--
Begins to watch the context of a binding and mounts it if the context holds.
A context that cannot be watched is reported.
-/
def start (page : Page) (key : BindingId) : Page :=
  match page.binding? key with
  | none => page
  | some binding =>
      if binding.phase = .destroyed ∨ binding.watch.isSome then
        page
      else
        match binding.context with
        | .error fault => page.report key (.configuration fault)
        | .ok context =>
            match page.scene.watch page.pinned binding.hooks.factories binding.element context with
            | (scene, .error fault) => { page with scene }.report key (.configuration fault)
            | (scene, .ok watch) =>
                let watched :=
                  { page with scene := scene.listen watch (.binding key) }.changeBinding key
                    fun binding => { binding with watch := some watch }
                if watched.matchesContext key then watched.push [.request (.bind .mount key)]
                else watched

/-- Does what is asked of a binding. -/
def obey (page : Page) (verb : Verb) (key : BindingId) : Page :=
  match verb with
  | .start => page.start key
  | .mount => page.mount key
  | .unmount => page.unmount key
  | .destroy => page.destroy key

end Page

end Hydration
