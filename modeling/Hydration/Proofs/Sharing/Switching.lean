import Hydration.Proofs.Sharing.Hydrating

/-!
# Setting a shared toggle

After hydration a toggle that is set tells the binding that was made last, and it
tells no other.  So that binding is wanted by the value of the toggle, once it has
been told, and all others stay wanted as they were.
-/

namespace Hydration

/-- Whether a request sets a toggle or lets imports go on. -/
def Request.Switches (name : String) : Request → Prop
  | toggle other _ => other = name
  | drive _ | release _ => True
  | _ => False

/-- Whether a call belongs to a binding, sets a toggle, tells its listener or lets imports go on. -/
def Call.Switches (toggles : List (String × MonitorId)) (name : String) : Call → Prop
  | request asked => asked.Switches name
  | deliver monitors => ∀ monitor ∈ monitors, Text.valueOf? name toggles = some monitor
  | call => call.isInward

theorem Call.switches_of_isInward
    {call : Call}
    (inward : call.isInward)
    (toggles : List (String × MonitorId))
    (name : String) :
    call.Switches toggles name := by
  cases call with
  | request | deliver => cases inward
  | _ => exact inward

namespace Page

variable {page after : Page} {name : String} {value : Bool} {last : BindingId}

/-- The toggle tells the last binding, and all others are wanted as they were. -/
structure Switching (name : String) (value : Bool) (last : BindingId) (page : Page) : Prop
    extends page.Wanting value (fun other => other = last) where
  size : page.bindings.size = last + 1
  tells : page.scene.Tells name last
  calls : ∀ call ∈ page.stack, call.Switches page.scene.toggles name

/-- A binding is wanted as a toggle says. -/
def Heeds (name : String) (key : BindingId) (page : Page) : Prop :=
  ∀ binding, page.binding? key = some binding → binding.wanted = page.scene.toggleValue name

/-- Something has flipped and is still to tell its listener. -/
def IsDelivering (page : Page) : Prop :=
  ∃ monitor monitors, .deliver (monitor :: monitors) ∈ page.stack

/-- Whether the last binding heeds the toggle or is still to hear of it, or is told right now. -/
inductive IsSwitching (name : String) (value : Bool) (last : BindingId) : Page → Prop where
  | settled
      {page : Page}
      (switching : page.Switching name value last)
      (heeds : page.Heeds name last ∨ page.IsDelivering) :
      IsSwitching name value last page
  | telling
      {page : Page}
      (switching : page.Switching name value last) :
      IsSwitching name value last
        (page.push
          [.request (.bind (if page.scene.toggleValue name then .mount else .unmount) last)])

theorem Switching.keep
    (switching : page.Switching name value last)
    (inner : page.Inner after) :
    after.Switching name value last := by
  refine ⟨switching.toWanting.keep inner, inner.size.trans switching.size, ?_, ?_⟩
  · rw [inner.scene]
    exact switching.tells
  · rw [inner.scene]
    exact inner.forall_calls (Call.switches_of_isInward · _ _) switching.calls

/-- What is inward changes neither the wish nor what is still to be delivered. -/
theorem heeds_or_isDelivering_keep
    (heeds : page.Heeds name last ∨ page.IsDelivering)
    (inner : page.Inner after) :
    after.Heeds name last ∨ after.IsDelivering := by
  refine heeds.imp ?_ ?_
  · intro heeds binding found
    obtain ⟨before, was, alike⟩ := inner.earlier found
    rw [inner.scene, alike.wanted]
    exact heeds before was
  · rintro ⟨monitor, monitors, member⟩
    obtain ⟨added, stack, _⟩ := inner.within
    exact ⟨monitor, monitors, by rw [stack]; exact List.mem_append_right added member⟩

/-- The binding that is told the value of the toggle heeds it. -/
theorem Switching.obey (switching : page.Switching name value last) :
    (page.obey (if page.scene.toggleValue name then .mount else .unmount) last).IsSwitching
      name value last := by
  have inner := Inner.obey (switching.living last) (page.scene.toggleValue name)
  have wished : (page.setWanted last (page.scene.toggleValue name)).Switching name value last :=
    { switching with
      toWanting := switching.setWanted rfl _
      size := (size_setWanted page last _).trans switching.size }
  refine .settled (wished.keep inner) (.inl fun binding found => ?_)
  rw [inner.scene]
  exact inner.wanted found

/-- A toggle that is set is to tell its listener, unless it had this value before. -/
theorem Switching.toggle
    (switching : page.Switching name value last)
    (heeds : page.Heeds name last ∨ page.IsDelivering)
    (set : Bool) :
    (page.refresh (page.scene.setToggle name set)).IsSwitching name value last := by
  obtain ⟨tells, holds, toggles, flipped, still⟩ := switching.tells.setToggle set
  refine .settled ⟨⟨switching.idle, switching.living, switching.wishes⟩, switching.size, tells,
    ?_⟩ ?_
  · change ∀ call ∈ Call.deliver _ :: page.stack,
      call.Switches (page.scene.setToggle name set).1.toggles name
    rw [toggles]
    exact List.forall_mem_cons.mpr ⟨flipped, switching.calls⟩
  · cases changed : (page.scene.setToggle name set).2 with
    | nil =>
        refine heeds.imp ?_ ?_
        · intro heeds binding found
          exact (heeds binding found).trans ((still changed).trans holds.symm)
        · rintro ⟨monitor, monitors, member⟩
          exact ⟨monitor, monitors, List.mem_cons_of_mem _ member⟩
    | cons monitor monitors =>
        refine .inr ⟨monitor, monitors, ?_⟩
        rw [← changed]
        exact List.mem_cons_self

/-- A toggle that flipped has the last binding told its value. -/
theorem Switching.deliver
    {monitor : MonitorId}
    {monitors : List MonitorId}
    (switching : page.Switching name value last)
    (named :
      ∀ flipped ∈ monitor :: monitors, Text.valueOf? name page.scene.toggles = some flipped) :
    (page.deliver (monitor :: monitors)).IsSwitching name value last := by
  obtain ⟨first, others⟩ := List.forall_mem_cons.mp named
  obtain ⟨known, watch, entry, isKnown, listens, there, asks, audience⟩ := switching.tells
  cases first.symm.trans isKnown
  have waiting :
      (page.push [.pin [monitor], .pin [monitor], .deliver monitors]).Switching
        name value last :=
    { switching with
      calls := List.forall_mem_cons.mpr ⟨rfl, List.forall_mem_cons.mpr ⟨rfl,
        List.forall_mem_cons.mpr ⟨others, switching.calls⟩⟩⟩ }
  have telling := IsSwitching.telling waiting
  have value : page.scene.allHold [monitor] = page.scene.toggleValue name := by
    rw [Scene.toggleValue_of_named first]
    simp [Scene.allHold]
  change IsSwitching _ _ _ ((page.push [.pin [monitor], .pin [monitor], .deliver monitors]).push
    [.request (.bind (if page.scene.toggleValue name then .mount else .unmount) last)]) at telling
  simpa [Page.deliver, listens, hear, push, there, audience, tell, asks, value] using telling

/-- What is asked of a page while a toggle is switched leaves the last binding to be told. -/
theorem Switching.answer
    {request : Request}
    (switching : page.Switching name value last)
    (heeds : page.Heeds name last ∨ page.IsDelivering)
    (switches : request.Switches name) :
    (page.answer request).IsSwitching name value last := by
  cases request with
  | toggle other set =>
      cases switches
      exact switching.toggle heeds set
  | drive queue =>
      have inner : page.Inner (page.drive queue) := by
        unfold Page.drive
        split
        · exact .refl page
        · exact .push page (by simp [Call.isInward])
      exact .settled (switching.keep inner) (heeds_or_isDelivering_keep heeds inner)
  | release gate =>
      exact .settled ⟨⟨switching.idle, switching.living, switching.wishes⟩, switching.size,
        switching.tells, switching.calls⟩ heeds
  | _ => cases switches

/-- Whatever is under way, the last binding heeds the toggle, or it is to be told. -/
theorem IsSwitching.step (isSwitching : page.IsSwitching name value last) :
    page.step.IsSwitching name value last := by
  cases isSwitching with
  | telling switching =>
      rw [step_of_stack rfl]
      exact switching.obey
  | settled switching heeds =>
      cases stack : page.stack with
      | nil =>
          rw [step_of_nil stack]
          exact .settled switching heeds
      | cons call rest =>
          have calls := switching.calls
          rw [stack] at calls
          obtain ⟨first, others⟩ := List.forall_mem_cons.mp calls
          have popped : ({ page with stack := rest } : Page).Switching name value last :=
            { switching with calls := others }
          have still (silent : ∀ monitor monitors, call ≠ .deliver (monitor :: monitors)) :
              ({ page with stack := rest } : Page).Heeds name last ∨
                ({ page with stack := rest } : Page).IsDelivering := by
            refine heeds.imp_right ?_
            rintro ⟨monitor, monitors, member⟩
            rw [stack] at member
            exact ⟨monitor, monitors,
              (List.mem_cons.mp member).resolve_left (silent monitor monitors).symm⟩
          rw [step_of_stack stack]
          cases call with
          | request request => exact popped.answer (still (by simp)) first
          | deliver monitors =>
              cases monitors with
              | nil => exact .settled popped (still (by simp))
              | cons monitor monitors => exact popped.deliver first
          | _ =>
              have inner := Inner.carryOn popped.idle first
              exact .settled (popped.keep inner)
                (heeds_or_isDelivering_keep (still (by simp)) inner)

/-- At rest the last binding heeds the toggle. -/
theorem IsSwitching.of_rest
    (isSwitching : page.IsSwitching name value last)
    (rest : page.isAtRest) :
    page.Switching name value last ∧ page.Heeds name last := by
  cases isSwitching with
  | telling => simp [isAtRest, push] at rest
  | settled switching heeds =>
      refine ⟨switching, heeds.resolve_right ?_⟩
      rintro ⟨monitor, monitors, member⟩
      simp [stack_of_rest rest] at member

/-- After hydration the toggle is about to be switched. -/
theorem Hydrating.switching
    (hydrating : page.Hydrating name value fun _ => False)
    (tells : page.TellsLast name)
    (size : page.bindings.size = last + 1)
    (rest : page.isAtRest) :
    page.IsSwitching name value last := by
  refine .settled ⟨⟨hydrating.idle, hydrating.living, ?_⟩, size, tells last size.symm, ?_⟩
    (.inl ?_)
  · intro key binding found _
    exact hydrating.wishes key binding found id
  · simp [stack_of_rest rest]
  · intro binding found
    exact (hydrating.wishes last binding found id).trans hydrating.holds.symm

end Page

end Hydration
