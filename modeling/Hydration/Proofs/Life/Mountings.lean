import Hydration.Proofs.Life.Sheltered
import Hydration.Proofs.Life.Instances
import Hydration.Proofs.Terminal
import Mathlib.Data.List.Basic

/-!
# Mounts and unmounts as they are noticed

Moving in and leaving are each followed by a notice, which is given before
anything else happens.  Until a binding is over, it is mounted exactly while the
latest of these notices tells of a mount.
-/

namespace Hydration

/-- Whether a notice tells that a binding was mounted or unmounted. -/
def Notice.isMounting : Notice → Bool
  | didMount | didUnmount => true
  | _ => false

/-- The mount or unmount that a call is to notice. -/
def Call.mounting? : Call → Option Notice
  | notice _ noticed _ => if noticed.isMounting then some noticed else none
  | _ => none

/-- The mount or unmount of a binding that was noticed. -/
def Event.mounting? (key : BindingId) : Event → Option Notice
  | noticed binding notice _ _ _ _ =>
      if binding = key && notice.isMounting then some notice else none
  | _ => none

/-- What is to be noticed of mounts and unmounts once a call was carried on. -/
def Call.brings : Call → List Notice
  | construct _ _ (.fitting _) => [.didMount]
  | vacated _ => [.didUnmount]
  | _ => []

namespace Life

/-- The mounts and unmounts that were noticed or are to be, newest first. -/
def mountings (key : BindingId) (life : Life) : List Notice :=
  life.calls.filterMap Call.mounting? ++ life.events.filterMap (Event.mounting? key)

/-- Whether no mount or unmount is to be noticed. -/
def Silent (life : Life) : Prop :=
  ∀ call ∈ life.calls, call.mounting? = none

variable {key : BindingId} {before after : Life} {call : Call} {rest : List Call}

theorem Disturbed.silent
    (happened : Disturbed key before after)
    (silent : before.Silent) :
    after.Silent := by
  cases happened with
  | aside | born | wish | forgo => exact silent
  | attempt | revoke | doom | complain | land =>
      simpa [Silent, begin, push, Call.mounting?, Notice.isMounting] using silent

theorem filterMap_mounting_of_silent
    {calls : List Call}
    (silent : ∀ call ∈ calls, call.mounting? = none) :
    calls.filterMap Call.mounting? = [] :=
  List.filterMap_eq_nil_iff.mpr silent

theorem isMounting_of_mem_mountings
    {life : Life}
    {noticed : Notice}
    (member : noticed ∈ life.mountings key) :
    noticed.isMounting := by
  rcases List.mem_append.mp member with pending | past
  · obtain ⟨call, _, told⟩ := List.mem_filterMap.mp pending
    cases call with
    | notice => grind [Call.mounting?]
    | _ => cases told
  · obtain ⟨event, _, told⟩ := List.mem_filterMap.mp past
    cases event with
    | noticed => grind [Event.mounting?]
    | _ => cases told

theorem Disturbed.mountings
    (happened : Disturbed key before after)
    (silent : before.Silent) :
    after.mountings key = before.mountings key := by
  have events : after.events = before.events := by
    cases happened <;> rfl
  rw [Life.mountings, Life.mountings, filterMap_mounting_of_silent silent,
    filterMap_mounting_of_silent (happened.silent silent), events]

/-- What is to be noticed after a call, from what it has put on the stack and recorded. -/
theorem mountings_of_added
    (calls : before.calls = call :: rest)
    (silent : ∀ outer ∈ rest, outer.mounting? = none)
    (added : List Call)
    (events : List Event)
    (callsAfter : after.calls = added ++ rest)
    (eventsAfter : after.events = events ++ before.events)
    (due :
      added.filterMap Call.mounting? ++ events.filterMap (Event.mounting? key) =
        call.brings ++ call.mounting?.toList)
    (foremost : ∀ behind ∈ added.tail, behind.mounting? = none)
    (quiet : call.brings = [] → ∀ call ∈ added, call.mounting? = none) :
    after.mountings key = call.brings ++ before.mountings key ∧
      (∀ outer ∈ after.calls.tail, outer.mounting? = none) ∧
      (call.brings = [] → after.Silent) := by
  have pending : before.calls.filterMap Call.mounting? = call.mounting?.toList := by
    rw [calls, List.filterMap_cons, filterMap_mounting_of_silent silent]
    cases call.mounting? <;> rfl
  refine ⟨?_, ?_, ?_⟩
  · rw [mountings, mountings, pending, callsAfter, eventsAfter, List.filterMap_append,
      List.filterMap_append, filterMap_mounting_of_silent silent, List.append_nil,
      ← List.append_assoc, due, List.append_assoc]
  · rw [callsAfter]
    intro outer member
    cases added with
    | nil => exact silent outer (List.mem_of_mem_tail member)
    | cons first others => exact (List.mem_append.mp member).elim (foremost outer) (silent outer)
  · intro none
    rw [Silent, callsAfter]
    exact fun outer member => (List.mem_append.mp member).elim (quiet none outer) (silent outer)

/-- Only moving in and leaving bring something to be noticed, and it is noticed next. -/
theorem Carried.mountings
    (calls : before.calls = call :: rest)
    (happened : Carried key call { before with calls := rest } after)
    (silent : ∀ outer ∈ rest, outer.mounting? = none) :
    after.mountings key = call.brings ++ before.mountings key ∧
      (∀ outer ∈ after.calls.tail, outer.mounting? = none) ∧
      (call.brings = [] → after.Silent) := by
  cases happened with
  | notice _ noticed =>
      refine mountings_of_added calls silent [] [_] rfl rfl ?_ (by simp) (by simp)
      cases known : noticed.isMounting <;>
        simp [Call.brings, Call.mounting?, Event.mounting?, known]
  | constructFault _ _ stage _ early =>
      cases stage with
      | fitting occupant => exact (early occupant rfl).elim
      | choosing | equipping | building =>
          exact mountings_of_added calls silent [_, _] [_] rfl rfl rfl
            (by simp [Call.mounting?, Notice.isMounting])
            (by simp [Call.mounting?, Notice.isMounting])
  | choose _ _ _ _ asked onlyArguments =>
      refine mountings_of_added calls silent [_] asked rfl rfl ?_ (by simp)
        (by simp [Call.mounting?])
      have none : asked.filterMap (Event.mounting? key) = [] := by
        rw [List.filterMap_eq_nil_iff]
        intro event member
        rw [onlyArguments event member]
        rfl
      rw [none]
      rfl
  | dismantle =>
      refine mountings_of_added calls silent [_] _ rfl rfl ?_ (by simp) (by simp [Call.mounting?])
      have none : (removal key { before with calls := rest }).filterMap (Event.mounting? key) =
          [] := by
        rw [List.filterMap_eq_nil_iff]
        intro event member
        obtain ⟨_, _, _, _, rfl⟩ := mem_removal.mp member
        rfl
      rw [none]
      rfl
  | launchLate | launchWaits | arriveLate | settleWanted | teardownLate | dismantleLate
  | remountLate =>
      exact mountings_of_added calls silent [] [] rfl rfl rfl (by simp) (by simp)
  | launchLands | arriveModule | settleUnwanted | retire =>
      exact mountings_of_added calls silent [_] [] rfl rfl rfl (by simp) (by simp [Call.mounting?])
  | equip | build =>
      exact mountings_of_added calls silent [_] [_] rfl rfl rfl (by simp) (by simp [Call.mounting?])
  | arriveFault =>
      exact mountings_of_added calls silent [_, _] [_] rfl rfl rfl
        (by simp [Call.mounting?, Notice.isMounting]) (by simp [Call.mounting?, Notice.isMounting])
  | teardown | remount | retireMounted | bury =>
      exact mountings_of_added calls silent [_, _] [] rfl rfl rfl
        (by simp [Call.mounting?, Notice.isMounting]) (by simp [Call.mounting?, Notice.isMounting])
  | moveIn | vacated =>
      exact mountings_of_added calls silent [_, _, _] [] rfl rfl rfl
        (by simp [Call.mounting?, Notice.isMounting]) (by simp [Call.brings])

/--
A binding that is not over is mounted exactly if a mount was noticed last, and
nothing that is to be noticed waits behind another call.
-/
structure Noticed (key : BindingId) (life : Life) : Prop where
  foremost : ∀ call ∈ life.calls.tail, call.mounting? = none
  told :
    life.IsOver ∨
      life.phase ≠ .destroyed ∧
        (life.phase = .mounted ↔ (life.mountings key).head? = some .didMount)

theorem Disturbed.noticed
    (happened : Disturbed key before after)
    (silent : before.Silent)
    (noticed : before.Noticed key) :
    after.Noticed key := by
  refine ⟨fun call member => happened.silent silent call (List.mem_of_mem_tail member), ?_⟩
  rcases noticed.told with ended | ⟨living, told⟩
  · exact .inl (happened.isOver ended)
  · right
    rw [happened.mountings silent, ← told]
    cases happened with
    | attempt _ _ unmounted => simp [begin, unmounted]
    | _ => exact ⟨living, Iff.rfl⟩

theorem Carried.noticed
    (calls : before.calls = call :: rest)
    (happened : Carried key call { before with calls := rest } after)
    (careful : call = .bury key → ∀ outer ∈ rest, outer.overrides = false)
    (building : before.Building)
    (noticed : before.Noticed key) :
    after.Noticed key := by
  have silent : ∀ outer ∈ rest, outer.mounting? = none := by
    simpa [calls] using noticed.foremost
  obtain ⟨mountings, foremost, _⟩ := happened.mountings calls silent
  refine ⟨foremost, ?_⟩
  rcases noticed.told with ended | ⟨living, told⟩
  · exact .inl (happened.isOver calls ended)
  · rw [mountings]
    cases happened with
    | bury =>
        exact .inl ⟨rfl, by simpa [push, Call.overrides] using careful rfl⟩
    | moveIn | vacated =>
        right
        simp [push, Call.brings]
    | constructFault _ _ stage _ early =>
        right
        obtain ⟨_, mounting | destroyed⟩ :=
          building.current _ (by rw [calls]; exact List.mem_cons_self) rfl
        · cases stage with
          | fitting occupant => exact (early occupant rfl).elim
          | choosing | equipping | building => simp [fail, Call.brings, ← told, mounting]
        · exact (living destroyed).elim
    | arriveFault _ _ _ current =>
        right
        have mounting : before.phase = .mounting := current.1
        simp [fail, Call.brings, ← told, mounting]
    | remount _ _ unmounted =>
        right
        have unmounted : before.phase = .unmounted := unmounted
        simp [begin, Call.brings, ← told, unmounted]
    | _ => exact .inr ⟨living, told⟩

end Life

end Hydration
