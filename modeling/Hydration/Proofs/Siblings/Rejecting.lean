import Hydration.Proofs.Siblings.Following

/-!
# Elements whose context is amiss

A binding whose context cannot be watched is rejected: the fault is reported to
the hook and to the callback for faults, and that is all.  Monitors may have been
made for conditions that stand before the one that is amiss, but nobody keeps them.
A page on which an extra element is rejected runs in parallel to the page without
it before and after.
-/

namespace Hydration

namespace Page

variable {page : Page} {key : BindingId} {binding : Binding} {outer : List Call}

/-- An idle script comes to its end. -/
theorem leads_of_script
    {script : ScriptId}
    {position : Nat}
    {subject : Option BindingId}
    (idle : page.IsIdle script)
    (stack : page.stack = .script script position subject :: outer) :
    page.Leads { page with stack := outer } := by
  have still : ({ page with stack := outer } : Page).IsIdle script := idle
  have next : page.step = { page with stack := outer } := by
    rw [step_of_stack stack]
    exact runScript_of_isIdle still position subject
  exact .step (next ▸ .here _)

/-- Whether nothing is done when a stage of a binding is noticed. -/
def Ignores (page : Page) (binding : Binding) (noticed : Notice) : Prop :=
  ∀ script, binding.script? noticed = some script → page.IsIdle script

/-- A stage of a binding is noticed, and nothing else happens. -/
theorem leads_of_notice
    {noticed : Notice}
    {fault : Option MountFault}
    (ignores : page.Ignores binding noticed)
    (stack : page.stack = .notice key noticed fault :: outer)
    (found : page.binding? key = some binding) :
    ∃ heard, page.Leads (({ page with stack := outer } : Page).record
      (.noticed key noticed binding.phase binding.wanted fault heard)) := by
  have there : ({ page with stack := outer } : Page).binding? key = some binding := found
  have taken : page.step = ({ page with stack := outer } : Page).notice key noticed fault :=
    step_of_stack stack
  refine ⟨(binding.script? noticed).isSome, .step ?_⟩
  rw [taken]
  simp only [notice, there]
  cases scripted : binding.script? noticed with
  | none => exact .here _
  | some script => exact leads_of_script (ignores script scripted) rfl

/-- A fresh binding whose context is refused reports the fault, and that is all. -/
theorem start_of_fault
    {context : Context}
    {scene : Scene}
    {fault : ContextFault}
    (found : page.binding? key = some binding)
    (fresh : binding.IsFresh)
    (read : binding.context = .ok context)
    (refused :
      page.scene.watch page.pinned binding.hooks.factories binding.element context =
        (scene, .error fault)) :
    page.start key = ({ page with scene } : Page).report key (.configuration fault) := by
  have startable : ¬ (binding.phase = .destroyed ∨ binding.watch.isSome) := by
    simp [fresh.phase, fresh.watch]
  simp only [start, found, if_neg startable, read, refused]

/-- A binding is not started whose context cannot be watched, but the fault is reported. -/
theorem start_of_refused
    (found : page.binding? key = some binding)
    (fresh : binding.IsFresh)
    (headless : binding.hooks.factories.IsHeadless)
    (tidy : page.scene.Tidy)
    (refused : binding.hooks.factories.Refuses binding.element binding.context) :
    ∃ scene added fault, page.scene.Extends page.pinned added scene ∧
      page.start key = ({ page with scene } : Page).report key (.configuration fault) := by
  cases read : binding.context with
  | error fault =>
      have startable : ¬ (binding.phase = .destroyed ∨ binding.watch.isSome) := by
        simp [fresh.phase, fresh.watch]
      refine ⟨page.scene, [], fault, .refl _ _, ?_⟩
      simp only [start, found, if_neg startable, read]
  | ok context =>
      rw [read] at refused
      obtain ⟨condition, member, asksNothing⟩ := refused
      obtain ⟨fault, amiss⟩ := Scene.exists_fault page.scene member asksNothing
      obtain ⟨after, extension, result⟩ :=
        Scene.watch_eq headless tidy page.pinned binding.element context
      rw [amiss] at result
      exact ⟨after, _, fault, extension, start_of_fault found fresh read result⟩

/-- The two notices of a fault, and nothing else. -/
theorem leads_of_report
    (ignores : page.Ignores binding .mountError)
    (ignoresToo : page.Ignores binding .onMountError)
    (found : page.binding? key = some binding)
    (fault : MountFault) :
    ∃ heard heardToo,
      (page.report key fault).Leads
        ((page.record
          (.noticed key .mountError binding.phase binding.wanted (some fault) heard)).record
          (.noticed key .onMountError binding.phase binding.wanted (some fault) heardToo)) := by
  have reported : (page.report key fault).Ignores binding .mountError := ignores
  obtain ⟨heard, first⟩ := leads_of_notice reported rfl found
  let middle : Page :=
    ({ page with stack := .notice key .onMountError (some fault) :: page.stack } : Page).record
      (.noticed key .mountError binding.phase binding.wanted (some fault) heard)
  have waiting : middle.Ignores binding .onMountError := ignoresToo
  obtain ⟨heardToo, second⟩ := leads_of_notice waiting rfl found
  exact ⟨heard, heardToo, first.trans second⟩

/-- A page on which a new binding was rejected. -/
def reject (page : Page) (binding : Binding) (scene : Scene) (fault : ContextFault)
    (heard heardToo : Bool) : Page :=
  (({ page.enlist binding with scene } : Page).record
    (.noticed page.bindings.size .mountError .unmounted false (some (.configuration fault))
      heard)).record
    (.noticed page.bindings.size .onMountError .unmounted false (some (.configuration fault))
      heardToo)

/-- An element whose context is amiss is bound and rejected when its turn comes. -/
theorem leads_of_refused
    {hooks : Hooks}
    {element : ElementId}
    {rest : List ElementId}
    {label : String}
    (idle : page.HasIdleScripts)
    (headless : hooks.factories.IsHeadless)
    (tidy : page.scene.Tidy)
    (stack : page.stack = .hydrate hooks (element :: rest) :: outer)
    (named : page.labelOf? hooks element = some label)
    (refused : hooks.Refuses page.scene.tree element) :
    ∃ pinned added scene fault heard heardToo, page.scene.Extends pinned added scene ∧
      page.Leads (({ page with stack := .hydrate hooks rest :: outer } : Page).reject
        (page.bindingOf hooks element label) scene fault heard heardToo) := by
  let waiting : Page := { page with stack := .hydrate hooks rest :: outer }
  let bound := waiting.enlist (page.bindingOf hooks element label)
  have next : page.step = bound.push [.request (.bind .start page.bindings.size)] :=
    step_of_bound stack named
  have found : bound.binding? page.bindings.size = some (page.bindingOf hooks element label) :=
    (binding?_addBinding _ _ _).trans (if_pos rfl)
  obtain ⟨scene, added, fault, extension, started⟩ :=
    start_of_refused found (Binding.isFresh_fresh _ _ _ _ _) headless tidy refused
  have reported : page.step.step =
      ({ bound with scene } : Page).report page.bindings.size (.configuration fault) := by
    rw [next]
    exact started
  have still : ({ bound with scene } : Page).HasIdleScripts := idle
  obtain ⟨heard, heardToo, leads⟩ :=
    leads_of_report (fun script _ => still.isIdle script) (fun script _ => still.isIdle script)
      found (.configuration fault)
  refine ⟨_, added, scene, fault, heard, heardToo, extension, .step (.step ?_)⟩
  rw [reported]
  exact leads

namespace Parallel

variable {contrast : Contrast} {links : Links} {plain mixed : Page} {element : ElementId}
  {rest elements : List ElementId}

/-- A rejection on one page disturbs nothing. -/
theorem reject
    {pinned : List MonitorId}
    {added : List Monitor}
    {scene : Scene}
    (parallel : plain.Parallel contrast links mixed)
    (fresh : binding.IsFresh)
    (extra : contrast.isExtra binding.element)
    (extension : mixed.scene.Extends pinned added scene)
    (fault : ContextFault)
    (heard heardToo : Bool) :
    plain.Parallel contrast links (mixed.reject binding scene fault heard heardToo) := by
  have size : (mixed.reject binding scene fault heard heardToo).bindings.size =
      mixed.bindings.size + 1 :=
    Table.size_push _ _
  have binding? (key : BindingId) :
      (mixed.reject binding scene fault heard heardToo).binding? key =
        if key = mixed.bindings.size then some binding else mixed.binding? key :=
    binding?_addBinding mixed binding key
  have stillBound {key : BindingId} (other : key ≠ mixed.bindings.size) :
      (mixed.reject binding scene fault heard heardToo).binding? key = mixed.binding? key :=
    (binding? key).trans (if_neg other)
  have stillTold {key : BindingId} (other : key ≠ mixed.bindings.size) :
      (mixed.reject binding scene fault heard heardToo).story key = mixed.story key := by
    rw [Page.reject, story_record, story_record, if_neg (by simpa [Event.isOf] using other.symm),
      if_neg (by simpa [Event.isOf] using other.symm)]
    rfl
  refine { parallel with
    scene := parallel.scene.extend (.refl [] plain.scene) extension
    twins := fun key twin pair => ?_
    stories := fun key twin pair => ?_
    mixedSilent := fun twin beyond => ?_
    others := fun twin known unlinked => ?_
    mixedModules := ?_ }
  · rw [stillBound (Nat.ne_of_lt (parallel.mixedKnown pair))]
    exact parallel.twins key twin pair
  · rw [stillTold (Nat.ne_of_lt (parallel.mixedKnown pair))]
    exact parallel.stories key twin pair
  · rw [size] at beyond
    rw [stillTold (Nat.ne_of_gt beyond)]
    exact parallel.mixedSilent twin (Nat.le_of_succ_le beyond)
  · by_cases new : twin = mixed.bindings.size
    · subst new
      have found := (binding? mixed.bindings.size).trans (if_pos rfl)
      refine ⟨by simp only [isExtra, found, Option.any_some, extra],
        binding, fault, heard, heardToo, found, fresh, ?_⟩
      have silent := parallel.mixedSilent _ (Nat.le_refl mixed.bindings.size)
      have own (noticed : Notice) (heard : Bool) :
          (Event.noticed mixed.bindings.size noticed .unmounted false
            (some (.configuration fault)) heard).isOf mixed.bindings.size :=
        decide_eq_true rfl
      rw [Page.reject, story_record, story_record, if_pos (own _ _), if_pos (own _ _)]
      exact congrArg (fun story => _ :: _ :: story) silent
    · rw [size] at known
      obtain ⟨isExtra, rejects⟩ := parallel.others twin
        ((Nat.lt_succ_iff_lt_or_eq.mp known).resolve_right new) unlinked
      refine ⟨?_, rejects.congr (stillBound new) (stillTold new)⟩
      rw [Page.isExtra, stillBound new]
      exact isExtra
  · rw [size, List.range_succ, ← parallel.mixedModules]
    rfl

/-- An extra element is passed over. -/
theorem passOver
    {outer outerTwin : List Call}
    (parallel : plain.Parallel contrast links mixed)
    (same : List.Forall₂ (Call.Matches contrast links) outer outerTwin)
    (stack : plain.stack = .hydrate contrast.hooks (contrast.originals rest) :: outer)
    (stackTwin : mixed.stack = .hydrate contrast.hooks (element :: rest) :: outerTwin)
    (extra : contrast.isExtra element) :
    ∃ after, mixed.Leads after ∧ plain.Parallel contrast links after ∧
      after.stack = .hydrate contrast.hooks rest :: outerTwin := by
  have waiting : plain.Parallel contrast links
      { mixed with stack := .hydrate contrast.hooks rest :: outerTwin } :=
    { parallel with stack := stack ▸ .cons (.hydrate rest) same }
  cases named : mixed.labelOf? contrast.hooks element with
  | none => exact ⟨_, .step (step_of_skipped stackTwin named ▸ .here _), waiting, rfl⟩
  | some label =>
      have idle : mixed.HasIdleScripts := by
        rw [HasIdleScripts, parallel.scripts]
        exact parallel.idle
      have refused : contrast.hooks.Refuses mixed.scene.tree element := by
        rw [parallel.scene.mixedTree]
        exact parallel.fair.refused element extra
      obtain ⟨_, _, scene, fault, heard, heardToo, extension, leads⟩ := leads_of_refused idle
        parallel.fair.headless parallel.scene.mixedTidy stackTwin named refused
      exact ⟨_, leads, waiting.reject (Binding.isFresh_fresh _ _ _ _ _) extra extension fault heard
        heardToo, rfl⟩

/-- Extra elements are passed over until the turn of another one comes. -/
theorem passOverExtras
    {outer outerTwin : List Call}
    (parallel : plain.Parallel contrast links mixed)
    (same : List.Forall₂ (Call.Matches contrast links) outer outerTwin)
    (stack : plain.stack = .hydrate contrast.hooks (contrast.originals elements) :: outer)
    (stackTwin : mixed.stack = .hydrate contrast.hooks elements :: outerTwin) :
    ∃ after remaining, mixed.Leads after ∧ plain.Parallel contrast links after ∧
      after.stack = .hydrate contrast.hooks remaining :: outerTwin ∧
      contrast.originals remaining = contrast.originals elements ∧
      ∀ element ∈ remaining.head?, contrast.isExtra element = false := by
  induction elements generalizing mixed with
  | nil => exact ⟨mixed, [], .here mixed, parallel, stackTwin, rfl, by simp⟩
  | cons element rest inductionHypothesis =>
      cases extra : contrast.isExtra element with
      | false => exact ⟨mixed, element :: rest, .here mixed, parallel, stackTwin, rfl, by simpa⟩
      | true =>
          have others : contrast.originals (element :: rest) = contrast.originals rest := by
            simp [Contrast.originals, extra]
          rw [others] at stack
          obtain ⟨middle, leads, followed, waits⟩ :=
            parallel.passOver same stack stackTwin extra
          obtain ⟨after, remaining, later, known⟩ := inductionHypothesis followed stack waits
          rw [others]
          exact ⟨after, remaining, leads.trans later, known⟩

/-- The page with extra elements follows when the turn of the next element comes. -/
theorem follow_hydrate
    {outer outerTwin : List Call}
    (parallel : plain.Parallel contrast links mixed)
    (same : List.Forall₂ (Call.Matches contrast links) outer outerTwin)
    (stack : plain.stack = .hydrate contrast.hooks (contrast.originals elements) :: outer)
    (stackTwin : mixed.stack = .hydrate contrast.hooks elements :: outerTwin) :
    ∃ more after, mixed.Leads after ∧ plain.step.Parallel contrast more after := by
  obtain ⟨middle, remaining, leads, followed, waits, originals, next⟩ :=
    parallel.passOverExtras same stack stackTwin
  rw [← originals] at stack
  have popped := followed.popped same
  have hydrated : ∃ more,
      (({ plain with stack := outer } : Page).hydrateNext contrast.hooks
          (contrast.originals remaining)).Parallel contrast more
        (({ middle with stack := outerTwin } : Page).hydrateNext contrast.hooks remaining) := by
    cases remaining with
    | nil => exact ⟨links, popped⟩
    | cons element rest =>
        have spared : contrast.isExtra element = false := next element rfl
        have first : contrast.originals (element :: rest) = element :: contrast.originals rest := by
          simp [Contrast.originals, spared]
        rw [first]
        exact popped.hydrateNext spared rest
  obtain ⟨more, parallel⟩ := hydrated
  refine ⟨more, middle.step, leads.trans (.step (.here _)), ?_⟩
  rw [step_of_stack stack, step_of_stack waits]
  exact parallel

/-- Whatever step the page without extra elements takes, the other one follows. -/
theorem follow (parallel : plain.Parallel contrast links mixed) :
    ∃ more after, mixed.Leads after ∧ plain.step.Parallel contrast more after := by
  have matching := parallel.stack
  cases stack : plain.stack with
  | nil =>
      rw [step_of_nil stack]
      exact ⟨links, mixed, .here mixed, parallel⟩
  | cons call outer =>
      rw [stack] at matching
      obtain ⟨callTwin, outerTwin, same, others, stackTwin⟩ :=
        List.forall₂_cons_left_iff.mp matching
      have popped := parallel.popped others
      have idle : ({ plain with stack := outer } : Page).HasIdleScripts := parallel.idle
      have idleTwin : ({ mixed with stack := outerTwin } : Page).HasIdleScripts :=
        popped.scripts ▸ idle
      have carried {more : Links}
          (parallel :
            (({ plain with stack := outer } : Page).carryOn call).Parallel contrast more
              (({ mixed with stack := outerTwin } : Page).carryOn callTwin)) :
          ∃ more after, mixed.Leads after ∧ plain.step.Parallel contrast more after := by
        refine ⟨more, mixed.step, .step (.here _), ?_⟩
        rw [step_of_stack stack, step_of_stack stackTwin]
        exact parallel
      -- All calls but a pass take one step on both pages.
      cases same with
      | own owned gentle pair => exact carried (popped.carryOn_own owned gentle pair)
      | asked mild => exact carried (popped.answer mild)
      | @wish verb key twin gentle pair =>
          cases verb with
          | destroy => exact (gentle rfl).elim
          | mount => exact carried (popped.mount pair)
          | unmount => exact carried (popped.unmount pair)
          | start =>
              obtain ⟨more, started⟩ := popped.start pair
              exact carried started
      | script script position subject subjectTwin =>
          refine @carried links ?_
          rw [carryOn, carryOn, runScript_of_idle idle, runScript_of_idle idleTwin]
          exact popped
      | deliver related => exact carried (popped.deliver related)
      | pin => exact @carried links popped
      | hydrate elements => exact parallel.follow_hydrate others stack stackTwin
      | drive queue => exact carried (popped.driveNext queue)

/-- Wherever the page without extra elements comes to, the other one follows. -/
theorem follows
    {after : Page}
    (parallel : plain.Parallel contrast links mixed)
    (leads : plain.Leads after) :
    ∃ more afterTwin, mixed.Leads afterTwin ∧ after.Parallel contrast more afterTwin := by
  induction leads generalizing links mixed with
  | here => exact ⟨links, mixed, .here mixed, parallel⟩
  | step _ inductionHypothesis =>
      obtain ⟨more, middle, first, followed⟩ := parallel.follow
      obtain ⟨most, afterTwin, later, reached⟩ := inductionHypothesis followed
      exact ⟨most, afterTwin, first.trans later, reached⟩

end Parallel

end Page

end Hydration
