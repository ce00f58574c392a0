import Hydration.Proofs.Life.Strays

/-!
# One instance while mounted, none otherwise

A mounted binding at rest has one living instance and any other binding none,
unless one was stranded on the way: its teardown or its end came to a close
while an instance was in place that had moved in meanwhile.  Once that has
happened the count is wrong for good.
-/

namespace Hydration

/-- Whether an event leaves an instance that nothing will take down. -/
def Event.isLasting : Event → Bool
  | .constructed _ _ removable => !removable
  | _ => false

namespace Page

variable {page : Page} {key : BindingId}

/-- The instances of a binding that carry a destructor which was not run. -/
def liveInstances (page : Page) (key : BindingId) : List Nat :=
  Hydration.liveInstances key page.history

/-- Whether the next step unmounts or ends a binding for good while an instance is in place. -/
def Strands (page : Page) (key : BindingId) : Prop :=
  (page.stack.head? = some (.vacated key) ∨ page.stack.head? = some (.bury key)) ∧
    (page.binding? key).bind Binding.occupant ≠ none

/-- Only the binding's own part of the history tells of its instances. -/
theorem liveInstances_life (page : Page) (key : BindingId) :
    Hydration.liveInstances key (page.life key).events = page.liveInstances key := by
  have built (event : Event) :
      (if event.isOf key then Event.built? key event else none) = Event.built? key event := by
    cases event with
    | constructed binding number removable =>
        by_cases own : binding = key <;> cases removable <;> simp [Event.isOf, Event.built?, own]
    | _ => simp [Event.built?]
  have removes (number : Nat) (event : Event) :
      (event.isOf key && Event.removes key number event) = Event.removes key number event := by
    cases event with
    | destructing binding removed name =>
        by_cases own : binding = key <;> simp [Event.isOf, Event.removes, own]
    | _ => simp [Event.removes]
  simp only [liveInstances, Hydration.liveInstances, life, List.filterMap_filter, built,
    List.any_filter, removes]

theorem mem_liveInstances {number : Nat} :
    number ∈ page.liveInstances key ↔
      .constructed key number true ∈ (page.life key).events ∧
        ∀ name, .destructing key number name ∉ (page.life key).events := by
  rw [← liveInstances_life]
  exact Hydration.mem_liveInstances

theorem phase_eq_mounted_iff (page : Page) (key : BindingId) :
    page.phase key = .mounted ↔ (page.life key).phase = .mounted := by
  cases found : page.binding? key <;> simp [phase, life, found]

/-- The call that strands an instance belongs to the binding. -/
theorem Strands.closing (strands : page.Strands key) :
    ∃ call outer, page.stack = call :: outer ∧ call.isOf key := by
  obtain ⟨closing | closing, _⟩ := strands
  · obtain ⟨outer, stack⟩ := List.head?_eq_some_iff.mp closing
    exact ⟨_, outer, stack, by simp [Call.isOf]⟩
  · obtain ⟨outer, stack⟩ := List.head?_eq_some_iff.mp closing
    exact ⟨_, outer, stack, by simp [Call.isOf]⟩

theorem strands_iff {call : Call} {outer : List Call} (stack : page.stack = call :: outer) :
    page.Strands key ↔ (page.life key).Strands key call := by
  simp [Strands, Life.Strands, stack, life]

end Page

namespace Run

variable
  {free : Move → Prop} {start page : Page} {passed : List Page} {key : BindingId}

/-- As long as a binding has stranded no instance it keeps them all. -/
theorem kept
    (begins : start.Begins)
    (run : Run free start passed page)
    (careful : ∀ earlier ∈ passed, ¬ earlier.Strands key) :
    (page.life key).Kept key := by
  refine (run.reached begins ?_).kept
  intro earlier member call outer stack _ strands
  exact careful earlier member ((Page.strands_iff stack).mpr strands)

/-- A binding that has stranded an instance has a stray from then on. -/
theorem stray
    (begins : start.Begins)
    (run : Run free start passed page)
    (stranded : ∃ earlier ∈ passed, earlier.Strands key) :
    ∃ number, (page.life key).Stray key number := by
  induction run with
  | begin =>
      obtain ⟨_, member, _⟩ := stranded
      cases member
  | @move passed page move _ rest _ inductionHypothesis =>
      obtain ⟨earlier, member, strands⟩ := stranded
      rcases List.mem_cons.mp member with rfl | old
      · simp [Page.Strands, Page.stack_of_rest rest] at strands
      · obtain ⟨number, stray⟩ := inductionHypothesis ⟨earlier, old, strands⟩
        exact ⟨number, (page.disturbed_move move key).stray stray⟩
  | @step passed page before inductionHypothesis =>
      have lives := before.lives begins key
      have present (busy : (page.life key).calls ≠ []) := lives.present_of_busy (.inl busy)
      by_cases already : ∃ earlier ∈ passed, earlier.Strands key
      · obtain ⟨number, stray⟩ := inductionHypothesis already
        refine ⟨number, ?_⟩
        rcases page.step_life present with disturbed | ⟨call, outer, _, _, calls, carried⟩
        · exact disturbed.stray stray
        · exact carried.stray calls lives.housing stray
      · have kept := before.kept begins fun earlier member strands =>
          already ⟨earlier, member, strands⟩
        obtain ⟨earlier, member, strands⟩ := stranded
        rcases List.mem_cons.mp member with rfl | old
        · obtain ⟨call, outer, stack, own⟩ := strands.closing
          have inLife := (Page.strands_iff stack).mp strands
          obtain ⟨calls, carried⟩ :=
            Page.step_carried stack own
              (present (by simp [Page.life, stack, List.filter_cons_of_pos own]))
          exact carried.stray_of_strands calls inLife lives.laws.2.1 lives.housing kept
        · exact (already ⟨earlier, old, strands⟩).elim

section Rest

variable
  (begins : start.Begins)
  (run : Run free start passed page)
  (rest : page.isAtRest)
  (removable : ∀ number, .constructed key number false ∉ page.history)

include removable in
theorem carries_of_told
    {number : Nat}
    {carries : Bool}
    (told : .constructed key number carries ∈ (page.life key).events) :
    .constructed key number true ∈ (page.life key).events := by
  cases carries with
  | false => exact (removable number (List.mem_of_mem_filter told)).elim
  | true => exact told

include begins run rest removable in
/-- A mounted binding at rest has an instance in place, and that one lives. -/
theorem occupied
    (mounted : (page.life key).phase = .mounted) :
    ∃ occupant,
      (page.life key).occupant = some occupant ∧
        occupant.built.number ∈ page.liveInstances key := by
  have housing := (run.lives begins key).housing
  have occupied : (page.life key).occupant ≠ none := by
    intro vacant
    have leaving := housing.vacant mounted vacant
    simp [Page.calls_of_rest rest key] at leaving
  obtain ⟨occupant, inPlace⟩ := Option.ne_none_iff_exists'.mp occupied
  have told := carries_of_told removable (housing.told occupant (.inl inPlace))
  refine ⟨occupant, inPlace, Page.mem_liveInstances.mpr ⟨told, ?_⟩⟩
  exact housing.untouched occupant (.inl inPlace)

include begins run rest in
/-- An instance that lives is in place if none was stranded. -/
theorem in_place
    (careful : ∀ earlier ∈ passed, ¬ earlier.Strands key)
    {number : Nat}
    (member : number ∈ page.liveInstances key) :
    ∃ occupant,
      (page.life key).occupant = some occupant ∧ occupant.built.number = number := by
  rw [← Page.liveInstances_life] at member
  obtain ⟨occupant, here | moving, same⟩ := (run.kept begins careful).held number member
  · exact ⟨occupant, here, same⟩
  · simp [Life.fitted, Page.calls_of_rest rest key] at moving

include begins run rest removable in
/--
If every instance of a binding carries a destructor, then at rest exactly one of
them is left while the binding is mounted and none otherwise, if and only if the
binding has stranded none.
-/
theorem one_instance_iff :
    (page.liveInstances key).length = (if page.phase key = .mounted then 1 else 0) ↔
      ∀ earlier ∈ passed, ¬ earlier.Strands key := by
  rw [if_congr (Page.phase_eq_mounted_iff page key) rfl rfl]
  constructor
  · intro count earlier member strands
    obtain ⟨number, stray⟩ := run.stray begins ⟨earlier, member, strands⟩
    obtain ⟨_, told⟩ := stray.told
    have strayLives : number ∈ page.liveInstances key :=
      Page.mem_liveInstances.mpr ⟨carries_of_told removable told, stray.untouched⟩
    split at count
    · next mounted =>
        -- The instance in place is another one, so that two are left.
        obtain ⟨occupant, here, lives⟩ := run.occupied begins rest removable mounted
        obtain ⟨only, single⟩ := List.length_eq_one_iff.mp count
        rw [single, List.mem_singleton] at strayLives lives
        exact stray.hidden occupant here (lives.trans strayLives.symm) mounted
    · rw [List.length_eq_zero_iff.mp count] at strayLives
      cases strayLives
  · intro careful
    split
    · next mounted =>
        obtain ⟨occupant, here, lives⟩ := run.occupied begins rest removable mounted
        have once : (page.liveInstances key).Nodup := by
          rw [← Page.liveInstances_life]
          exact (run.lives begins key).housing.once.filter _
        have same : (page.liveInstances key).Perm [occupant.built.number] := by
          refine (List.perm_ext_iff_of_nodup once (List.nodup_singleton _)).mpr fun number => ?_
          rw [List.mem_singleton]
          constructor
          · intro member
            obtain ⟨other, there, number⟩ := run.in_place begins rest careful member
            cases here.symm.trans there
            exact number.symm
          · rintro rfl
            exact lives
        exact same.length_eq
    · next away =>
        rw [List.length_eq_zero_iff, List.eq_nil_iff_forall_not_mem]
        intro number member
        obtain ⟨occupant, here, _⟩ := run.in_place begins rest careful member
        exact away ((run.kept begins careful).mounted occupant here)

end Rest

/-- A binding that was mounted once has its one instance, and has stranded none. -/
theorem one_instance_mounted :
    let start := Page.lone (Hooks.standard .standard) ⟨"Lone", none, true, none, 1, 1, 0⟩ []
    let page := Page.run 20 (start.move (.ask (.bind .mount 0)))
    page.liveInstances 0 = [0] ∧ page.phase 0 = .mounted ∧
      ∃ passed, Run (fun _ => True) start passed page ∧
        ∀ earlier ∈ passed, ¬ earlier.Strands 0 := by
  intro start page
  have run : Run (fun _ => True) start _ page :=
    (Run.begin.move (.ask (.bind .mount 0)) rfl trivial).onward 20
  have removable (number : Nat) : .constructed 0 number false ∉ page.history := by
    have carry : page.history.all fun event => !event.isLasting := by decide
    intro member
    cases List.all_eq_true.mp carry _ member
  refine ⟨by decide, by decide, _, run, ?_⟩
  exact (run.one_instance_iff (Page.begins_lone _ _ _) (by decide) removable).mp (by decide)

/--
A hook that mounts a binding again while it is being destroyed: the binding ends
with an instance in place that is never taken down.
-/
theorem instance_left_when_destroyed :
    let start := Page.lone
      { Hooks.standard .standard with notices := [(.didUnmount, 0)] }
      ⟨"Lone", none, true, none, 1, 1, 0⟩ [⟨.own .mount, 1, none⟩]
    let mounted := Page.run 20 (start.move (.ask (.bind .mount 0)))
    let destroyed := Page.run 40 (mounted.move (.ask (.bind .destroy 0)))
    start.Begins ∧ (∃ passed, Run (fun _ => True) start passed destroyed) ∧
      destroyed.isAtRest ∧ destroyed.phase 0 = .destroyed ∧
      destroyed.liveInstances 0 = [1] := by
  intro start mounted destroyed
  have toMounted : Run (fun _ => True) start _ mounted :=
    (Run.begin.move (.ask (.bind .mount 0)) rfl trivial).onward 20
  have rest : mounted.isAtRest := by decide
  have run : Run (fun _ => True) start _ destroyed :=
    (toMounted.move (.ask (.bind .destroy 0)) rest trivial).onward 40
  exact ⟨Page.begins_lone _ _ _, ⟨_, run⟩, by decide, by decide, by decide⟩

end Run

end Hydration
