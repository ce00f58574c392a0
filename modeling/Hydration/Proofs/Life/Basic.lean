import Hydration.Proofs.Run
import Mathlib.Data.Multiset.Basic

/-!
# The life of one binding

A page holds many bindings, and calls of all of them lie on one stack.  The life
of a binding is what concerns it alone: its phase and its wish, its calls under
way, the attempts whose imports are unfinished, and its part of the history.

A step of the page either carries on with a call of the binding, or it disturbs
the binding from outside: a script, a monitor or the host asks for something,
or an import comes in.  `Carried` and `Disturbed` list all that can happen, so
that laws about one binding need not look at the page again.
-/

namespace Hydration

/-- Whether a call belongs to the life of a binding. -/
def Call.isOf (key : BindingId) : Call → Bool
  | notice binding _ _ | launch binding _ | arrive binding _ _ | construct binding _ _
  | settle binding | teardown binding | dismantle binding | vacated binding
  | remount binding | retire binding | bury binding => binding = key
  | _ => false

/-- Whether a call moves its binding to a phase whatever the phase is by then. -/
def Call.overrides : Call → Bool
  | construct _ _ _ | vacated _ => true
  | _ => false

/-- Whether a call builds an instance. -/
def Call.builds : Call → Bool
  | construct _ _ _ => true
  | _ => false

/-- The attempt to mount that a call carries on. -/
def Call.attempt? : Call → Option Nat
  | launch _ attempt | arrive _ attempt _ | construct _ attempt _ => some attempt
  | _ => none

/-- Whether an event belongs to the life of a binding. -/
def Event.isOf (key : BindingId) : Event → Bool
  | noticed binding _ _ _ _ _ | arguments binding | constructing binding _ _
  | constructed binding _ _ | failed binding _ _ | destructing binding _ _ =>
      binding = key
  | _ => false

/-- What concerns one binding of a page. -/
structure Life where
  /-- Whether the binding has been made. -/
  present : Bool
  phase : Phase
  wanted : Bool
  attempt : Nat
  occupant : Option Occupant
  /-- Its calls under way, innermost first. -/
  calls : List Call
  /-- The attempts whose imports are unfinished. -/
  imports : Multiset Nat
  /-- How many instances were built on the page so far. -/
  instances : Nat
  /-- What happened to it, newest first. -/
  events : List Event

/-- The attempts of a binding whose imports are unfinished. -/
def Page.importsOf (page : Page) (key : BindingId) : Multiset Nat :=
  ((page.executor.unfinished.filter fun task => task.binding = key).map Task.attempt :
    List Nat)

/-- The life of a binding on a page; a binding that was not made yet lives as a fresh one. -/
def Page.life (key : BindingId) (page : Page) : Life where
  present := (page.binding? key).isSome
  phase := ((page.binding? key).map Binding.phase).getD .unmounted
  wanted := ((page.binding? key).map Binding.wanted).getD false
  attempt := ((page.binding? key).map Binding.attempt).getD 0
  occupant := (page.binding? key).bind Binding.occupant
  calls := page.stack.filter (Call.isOf key)
  imports := page.importsOf key
  instances := page.instances
  events := page.history.filter (Event.isOf key)

namespace Life

/-- Nothing has happened yet. -/
structure Begins (life : Life) : Prop where
  phase : life.phase = .unmounted
  wanted : life.wanted = false
  attempt : life.attempt = 0
  occupant : life.occupant = none
  calls : life.calls = []
  imports : life.imports = 0
  events : life.events = []

/-- A new attempt to mount. -/
def begin (key : BindingId) (life : Life) : Life :=
  { life with
    wanted := true
    phase := .mounting
    attempt := life.attempt + 1
    calls :=
      .notice key .willMount none :: .launch key (life.attempt + 1) :: life.calls }

/-- The end of an attempt in a fault. -/
def fail (key : BindingId) (attempt : Nat) (fault : MountFault) (life : Life) : Life :=
  { life with
    phase := .unmounted
    calls :=
      .notice key .mountError (some fault) :: .notice key .onMountError (some fault) ::
        life.calls
    events := .failed key attempt fault :: life.events }

/-- Calls that come before all others of the binding. -/
def push (life : Life) (calls : List Call) : Life :=
  { life with calls := calls ++ life.calls }

/-- Whether the binding still mounts by this attempt. -/
def Mounts (life : Life) (attempt : Nat) : Prop :=
  life.phase = .mounting ∧ life.attempt = attempt

/-- The event of taking the instance down that is in place, if it is to be taken down. -/
def removal (key : BindingId) (life : Life) : List Event :=
  match life.occupant with
  | none => []
  | some occupant =>
      match occupant.destructor with
      | none => []
      | some destructor => [.destructing key occupant.built.number destructor.name]

/-- What may happen to the life of a binding when none of its calls is carried on. -/
inductive Disturbed (key : BindingId) : Life → Life → Prop where
  /-- Nothing, as far as the binding goes; other bindings may get instances. -/
  | aside
      (life : Life)
      (instances : Nat)
      (grown : life.instances ≤ instances) :
      Disturbed key life { life with instances }
  /-- The binding is made. -/
  | born
      (life : Life) :
      Disturbed key life { life with present := true }
  /-- A mount is asked for while there is an instance or one is on its way. -/
  | wish
      (life : Life)
      (present : life.present)
      (under : life.phase = .mounting ∨ life.phase = .mounted) :
      Disturbed key life { life with wanted := true }
  /-- A mount is asked for while there is no instance. -/
  | attempt
      (life : Life)
      (present : life.present)
      (unmounted : life.phase = .unmounted) :
      Disturbed key life (life.begin key)
  /-- An unmount is asked for while there is no instance. -/
  | forgo
      (life : Life)
      (present : life.present)
      (vacant : life.phase = .unmounted ∨ life.phase = .mounting) :
      Disturbed key life { life with wanted := false }
  /-- An unmount is asked for while there is an instance. -/
  | revoke
      (life : Life)
      (present : life.present)
      (mounted : life.phase = .mounted) :
      Disturbed key life ({ life with wanted := false }.push [.teardown key])
  /-- An end is asked for. -/
  | doom
      (life : Life)
      (present : life.present)
      (living : life.phase ≠ .destroyed) :
      Disturbed key life (life.push [.notice key .willDestroy none, .retire key])
  /-- The context cannot be watched. -/
  | complain
      (life : Life)
      (present : life.present)
      (living : life.phase ≠ .destroyed)
      (fault : ContextFault) :
      Disturbed key life
        (life.push
          [.notice key .mountError (some (.configuration fault)),
            .notice key .onMountError (some (.configuration fault))])
  /-- An import that waited comes in. -/
  | land
      (life : Life)
      (attempt : Nat)
      (outcome : Except MountFault Module) :
      Disturbed key { life with imports := attempt ::ₘ life.imports }
        (life.push [.arrive key attempt outcome])

/--
What carrying on a call of a binding makes of its life; the life before is the
one that the call was already taken from.
-/
inductive Carried (key : BindingId) : Call → Life → Life → Prop where
  | notice
      (life : Life)
      (notice : Notice)
      (fault : Option MountFault)
      (heard : Bool) :
      Carried key (.notice key notice fault) life
        { life with
          events := .noticed key notice life.phase life.wanted fault heard :: life.events }
  | launchLate
      (life : Life)
      (attempt : Nat)
      (late : ¬ life.Mounts attempt) :
      Carried key (.launch key attempt) life life
  /-- The import is not there at once. -/
  | launchWaits
      (life : Life)
      (attempt : Nat)
      (current : life.Mounts attempt) :
      Carried key (.launch key attempt) life
        { life with imports := attempt ::ₘ life.imports }
  /-- The import is there at once. -/
  | launchLands
      (life : Life)
      (attempt : Nat)
      (current : life.Mounts attempt)
      (outcome : Except MountFault Module) :
      Carried key (.launch key attempt) life (life.push [.arrive key attempt outcome])
  | arriveLate
      (life : Life)
      (attempt : Nat)
      (outcome : Except MountFault Module)
      (late : ¬ life.Mounts attempt) :
      Carried key (.arrive key attempt outcome) life life
  | arriveFault
      (life : Life)
      (attempt : Nat)
      (fault : MountFault)
      (current : life.Mounts attempt) :
      Carried key (.arrive key attempt (.error fault)) life (life.fail key attempt fault)
  | arriveModule
      (life : Life)
      (attempt : Nat)
      (module : Module)
      (current : life.Mounts attempt) :
      Carried key (.arrive key attempt (.ok module)) life
        (life.push [.construct key attempt (.choosing module)])
  /-- Building an instance fails, which it cannot once the instance is there. -/
  | constructFault
      (life : Life)
      (attempt : Nat)
      (stage : Stage)
      (fault : MountFault)
      (early : ∀ occupant, stage ≠ .fitting occupant) :
      Carried key (.construct key attempt stage) life (life.fail key attempt fault)
  | choose
      (life : Life)
      (attempt : Nat)
      (module : Module)
      (chosen : ConstructorId)
      (asked : List Event)
      (onlyArguments : ∀ event ∈ asked, event = .arguments key) :
      Carried key (.construct key attempt (.choosing module)) life
        ({ life with events := asked ++ life.events }.push
          [.construct key attempt (.equipping chosen)])
  | equip
      (life : Life)
      (attempt : Nat)
      (chosen : ConstructorId)
      (name : String)
      (arguments : Json) :
      Carried key (.construct key attempt (.equipping chosen)) life
        ({ life with events := .constructing key name arguments :: life.events }.push
          [.construct key attempt (.building chosen)])
  | build
      (life : Life)
      (attempt : Nat)
      (chosen : ConstructorId)
      (occupant : Occupant)
      (numbered : occupant.built.number = life.instances) :
      Carried key (.construct key attempt (.building chosen)) life
        ({ life with
            instances := life.instances + 1
            events :=
              .constructed key life.instances occupant.isRemovable :: life.events }.push
          [.construct key attempt (.fitting occupant)])
  | moveIn
      (life : Life)
      (attempt : Nat)
      (occupant : Occupant) :
      Carried key (.construct key attempt (.fitting occupant)) life
        ({ life with occupant := some occupant, phase := .mounted }.push
          [.notice key .didMount none, .notice key .onMount none, .settle key])
  | settleWanted
      (life : Life)
      (wanted : life.wanted = true) :
      Carried key (.settle key) life life
  | settleUnwanted
      (life : Life)
      (unwanted : life.wanted = false) :
      Carried key (.settle key) life (life.push [.teardown key])
  | teardownLate
      (life : Life)
      (vacant : life.phase ≠ .mounted) :
      Carried key (.teardown key) life life
  | teardown
      (life : Life)
      (mounted : life.phase = .mounted) :
      Carried key (.teardown key) life
        (life.push [.notice key .willUnmount none, .dismantle key])
  | dismantleLate
      (life : Life)
      (vacant : life.phase ≠ .mounted) :
      Carried key (.dismantle key) life life
  | dismantle
      (life : Life)
      (mounted : life.phase = .mounted) :
      Carried key (.dismantle key) life
        ({ life with occupant := none, events := life.removal key ++ life.events }.push
          [.vacated key])
  | vacated
      (life : Life) :
      Carried key (.vacated key) life
        ({ life with phase := .unmounted }.push
          [.notice key .didUnmount none, .notice key .onUnmount none, .remount key])
  | remountLate
      (life : Life)
      (late : ¬ (life.wanted = true ∧ life.phase = .unmounted)) :
      Carried key (.remount key) life life
  | remount
      (life : Life)
      (wanted : life.wanted = true)
      (unmounted : life.phase = .unmounted) :
      Carried key (.remount key) life (life.begin key)
  | retireMounted
      (life : Life)
      (mounted : life.phase = .mounted) :
      Carried key (.retire key) life
        ({ life with wanted := false }.push [.teardown key, .bury key])
  | retire
      (life : Life)
      (vacant : life.phase ≠ .mounted) :
      Carried key (.retire key) life ({ life with wanted := false }.push [.bury key])
  | bury
      (life : Life) :
      Carried key (.bury key) life
        ({ life with phase := .destroyed }.push
          [.notice key .didDestroy none, .notice key .onDestroy none])

/--
The lives of a binding that a run reaches, if a call is carried on only as
`allowed` in the life at that moment.
-/
inductive Reached (key : BindingId) (allowed : Life → Call → Prop) : Life → Prop where
  | begin
      {life : Life}
      (begins : life.Begins) :
      Reached key allowed life
  | disturbed
      {before after : Life}
      (earlier : Reached key allowed before)
      (happened : Disturbed key before after) :
      Reached key allowed after
  | carried
      {before after : Life}
      {call : Call}
      {rest : List Call}
      (earlier : Reached key allowed before)
      (present : before.present)
      (calls : before.calls = call :: rest)
      (permitted : allowed before call)
      (happened : Carried key call { before with calls := rest } after) :
      Reached key allowed after

end Life

end Hydration
