import Hydration.Proofs.Life.Basic

/-!
# The course of a life

What the outside can tell of a binding is a sequence of signs: what was noticed,
and the calls of its constructors and destructors.  In the orderly course of a
life every attempt to mount fails or leads to a mount, every mount is followed
by at most one unmount, and nothing follows the end.
-/

namespace Hydration

/-- What can be told of a binding from outside. -/
inductive Sign where
  | noticed (notice : Notice) (fault : Option MountFault)
  | constructing
  /-- An instance is there; `removable` tells whether it will be taken down. -/
  | constructed (removable : Bool)
  | destructing
  /-- An attempt has ended in a fault. -/
  | failed (fault : MountFault)

/-- What an event tells of a binding. -/
def Event.sign? (key : BindingId) : Event → Option Sign
  | noticed binding notice _ _ fault _ =>
      if binding = key then some (.noticed notice fault) else none
  | constructing binding _ _ => if binding = key then some .constructing else none
  | constructed binding _ removable =>
      if binding = key then some (.constructed removable) else none
  | destructing binding _ _ => if binding = key then some .destructing else none
  | failed binding _ fault => if binding = key then some (.failed fault) else none
  | _ => none

/-- All that could be told of a binding, oldest first. -/
def Page.trace (page : Page) (key : BindingId) : List Sign :=
  (page.history.filterMap (Event.sign? key)).reverse

/-- Where a life stands between two calls. -/
inductive Standing where
  | idle
  /-- A module is being imported. -/
  | awaiting
  /-- There is an instance. -/
  | mounted (removable : Bool)
  | ended

/-- Whether a binding in this phase and with this instance stands so. -/
def Standing.Describes (phase : Phase) (occupant : Option Occupant) : Standing → Prop
  | idle => phase = .unmounted ∧ occupant = none
  | awaiting => phase = .mounting ∧ occupant = none
  | mounted removable =>
      phase = .mounted ∧ ∃ inPlace, occupant = some inPlace ∧ inPlace.isRemovable = removable
  | ended => phase = .destroyed ∧ occupant = none

/-- The report of a fault to the hook and to the callback for faults. -/
def Sign.reporting (fault : MountFault) : List Sign :=
  [.noticed .mountError (some fault), .noticed .onMountError (some fault)]

/-- The destructor is called if there is one. -/
def Sign.removing (removable : Bool) : List Sign :=
  if removable then [.destructing] else []

/-- What follows once an instance has left. -/
def Sign.vacating : List Sign :=
  [.noticed .didUnmount none, .noticed .onUnmount none]

/-- An instance leaves. -/
def Sign.unmounting (removable : Bool) : List Sign :=
  .noticed .willUnmount none :: (Sign.removing removable ++ Sign.vacating)

/-- What follows once a binding has ended. -/
def Sign.closing : List Sign :=
  [.noticed .didDestroy none, .noticed .onDestroy none]

/-- The signs of an orderly life between two calls, and where it stands then. -/
inductive Course : List Sign → Standing → Prop where
  | fresh : Course [] .idle
  /-- A mount is asked for. -/
  | attempt
      {word : List Sign}
      (earlier : Course word .idle) :
      Course (word ++ [.noticed .willMount none]) .awaiting
  /-- An attempt fails; at most one constructor was called in it. -/
  | failure
      {word called : List Sign}
      (fault : MountFault)
      (once : called = [] ∨ called = [.constructing])
      (earlier : Course word .awaiting) :
      Course (word ++ called ++ .failed fault :: Sign.reporting fault) .idle
  /-- An attempt leads to a mount. -/
  | mount
      {word : List Sign}
      (removable : Bool)
      (earlier : Course word .awaiting) :
      Course
        (word ++
          [.constructing, .constructed removable, .noticed .didMount none, .noticed .onMount none])
        (.mounted removable)
  | unmount
      {word : List Sign}
      {removable : Bool}
      (earlier : Course word (.mounted removable)) :
      Course (word ++ Sign.unmounting removable) .idle
  /-- A context that cannot be watched is reported while the binding lives. -/
  | report
      {word : List Sign}
      {standing : Standing}
      (fault : ContextFault)
      (living : standing ≠ .ended)
      (earlier : Course word standing) :
      Course (word ++ Sign.reporting (.configuration fault)) standing
  /-- A binding without an instance ends. -/
  | destroy
      {word : List Sign}
      {standing : Standing}
      (vacant : standing = .idle ∨ standing = .awaiting)
      (earlier : Course word standing) :
      Course (word ++ .noticed .willDestroy none :: Sign.closing) .ended
  /-- A binding ends that has an instance. -/
  | destroyMounted
      {word : List Sign}
      {removable : Bool}
      (earlier : Course word (.mounted removable)) :
      Course
        (word ++ .noticed .willDestroy none :: (Sign.unmounting removable ++ Sign.closing))
        .ended

namespace Life

/-- All that could be told of a binding in its life, oldest first. -/
def signs (key : BindingId) (life : Life) : List Sign :=
  (life.events.filterMap (Event.sign? key)).reverse

end Life

/-- What can be told of a binding belongs to its life. -/
theorem Event.isOf_of_sign?
    {key : BindingId}
    {event : Event}
    (told : (Event.sign? key event).isSome) :
    event.isOf key := by
  cases event with
  | noticed binding | constructing binding | constructed binding | destructing binding
  | failed binding =>
      by_cases same : binding = key
      · simp [Event.isOf, same]
      · simp [Event.sign?, same] at told
  | _ => cases told

theorem Page.trace_life (page : Page) (key : BindingId) :
    (page.life key).signs key = page.trace key := by
  rw [Life.signs, Page.trace, Page.life, List.filterMap_filter]
  congr 1
  refine List.filterMap_congr fun event _ => ?_
  split
  · rfl
  · next foreign =>
      cases told : Event.sign? key event with
      | none => rfl
      | some sign => exact (foreign (Event.isOf_of_sign? (by simp [told]))).elim

end Hydration
