import Hydration.Proofs.Siblings.Parallel

/-!
# Calls that are carried on in parallel

Carrying on with calls that match keeps two pages parallel, as long as neither
makes a binding nor begins to watch a context.  What is done to a binding depends
on the binding itself and on what is the same on both pages, so each operation
takes the same way on both.
-/

namespace Hydration

namespace Page.Parallel

variable {contrast : Contrast} {links : Links} {plain mixed : Page} {key twin : BindingId}

/-- Calls of a binding come under way, and with them those of its twin. -/
theorem pushOwn
    (parallel : plain.Parallel contrast links mixed)
    (pair : links.bindings key twin)
    (calls : List Call)
    (own : ∀ call ∈ calls, call.isOf key ∧ call.ends = false) :
    (plain.push calls).Parallel contrast links (mixed.push (calls.map (Call.handOver twin))) := by
  refine parallel.push ?_
  induction calls with
  | nil => exact .nil
  | cons call rest inductionHypothesis =>
      obtain ⟨first, others⟩ := List.forall_mem_cons.mp own
      exact .cons (.own first.1 first.2 pair) (inductionHypothesis others)

/-- A script comes under way on both pages. -/
theorem pushScript
    (parallel : plain.Parallel contrast links mixed)
    (script : ScriptId)
    (subject subjectTwin : Option BindingId) :
    (plain.push [.script script 0 subject]).Parallel contrast links
      (mixed.push [.script script 0 subjectTwin]) :=
  parallel.push (.cons (.script _ _ _ _) .nil)

theorem setPhase
    (parallel : plain.Parallel contrast links mixed)
    (pair : links.bindings key twin)
    (phase : Phase) :
    (plain.setPhase key phase).Parallel contrast links (mixed.setPhase twin phase) :=
  parallel.changeBinding pair _ fun _ => rfl

theorem setWanted
    (parallel : plain.Parallel contrast links mixed)
    (pair : links.bindings key twin)
    (wanted : Bool) :
    (plain.setWanted key wanted).Parallel contrast links (mixed.setWanted twin wanted) :=
  parallel.changeBinding pair _ fun _ => rfl

theorem phase_eq
    (parallel : plain.Parallel contrast links mixed)
    (pair : links.bindings key twin) :
    mixed.phase twin = plain.phase key := by
  obtain ⟨binding, found, foundTwin, _⟩ := parallel.twins key twin pair
  rw [phase_of_found found, phase_of_found foundTwin]

theorem wants_eq
    (parallel : plain.Parallel contrast links mixed)
    (pair : links.bindings key twin) :
    mixed.wants twin = plain.wants key := by
  obtain ⟨binding, found, foundTwin, _⟩ := parallel.twins key twin pair
  rw [wants_of_found found, wants_of_found foundTwin]

theorem notice
    (parallel : plain.Parallel contrast links mixed)
    (pair : links.bindings key twin)
    (noticed : Notice)
    (fault : Option MountFault) :
    (plain.notice key noticed fault).Parallel contrast links (mixed.notice twin noticed fault) := by
  obtain ⟨binding, found, foundTwin, _⟩ := parallel.twins key twin pair
  have told (isHeard : Bool) :=
    parallel.record pair (.noticed key noticed binding.phase binding.wanted fault isHeard)
      (decide_eq_true rfl)
  simp only [Page.notice, found, foundTwin]
  cases binding.script? noticed with
  | none => exact told _
  | some script => exact (told _).pushScript script _ _

theorem report
    (parallel : plain.Parallel contrast links mixed)
    (pair : links.bindings key twin)
    (fault : MountFault) :
    (plain.report key fault).Parallel contrast links (mixed.report twin fault) :=
  parallel.pushOwn pair
    [.notice key .mountError (some fault), .notice key .onMountError (some fault)]
    (by simp [Call.isOf])

theorem fail
    (parallel : plain.Parallel contrast links mixed)
    (pair : links.bindings key twin)
    (attempt : Nat)
    (fault : MountFault) :
    (plain.fail key attempt fault).Parallel contrast links (mixed.fail twin attempt fault) := by
  have failed := (parallel.setPhase pair .unmounted).record pair (.failed key attempt fault)
    (decide_eq_true rfl)
  exact failed.report pair fault

theorem mount
    (parallel : plain.Parallel contrast links mixed)
    (pair : links.bindings key twin) :
    (plain.mount key).Parallel contrast links (mixed.mount twin) := by
  obtain ⟨binding, found, foundTwin, _⟩ := parallel.twins key twin pair
  simp only [Page.mount, found, foundTwin]
  cases binding.phase with
  | destroyed => exact parallel
  | mounting | mounted => exact parallel.setWanted pair true
  | unmounted =>
      have begun := parallel.changeBinding pair
        (fun known =>
          { known with wanted := true, phase := .mounting, attempt := binding.attempt + 1 })
        fun _ => rfl
      exact begun.pushOwn pair
        [.notice key .willMount none, .launch key (binding.attempt + 1)] (by simp [Call.isOf])

theorem unmount
    (parallel : plain.Parallel contrast links mixed)
    (pair : links.bindings key twin) :
    (plain.unmount key).Parallel contrast links (mixed.unmount twin) := by
  simp only [Page.unmount, parallel.phase_eq pair]
  cases plain.phase key with
  | destroyed => exact parallel
  | mounting | unmounted => exact parallel.setWanted pair false
  | mounted =>
      exact (parallel.setWanted pair false).pushOwn pair [.teardown key] (by simp [Call.isOf])

theorem spawn
    {task taskTwin : Task}
    (parallel : plain.Parallel contrast links mixed)
    (pair : task.Twins links taskTwin)
    (spawning : Spawning) :
    (plain.spawn spawning task).Parallel contrast links (mixed.spawn spawning taskTwin) := by
  have queued (queue : QueueName) :
      ({ plain with executor := plain.executor.spawn queue task } : Page).Parallel contrast links
        { mixed with executor := mixed.executor.spawn queue taskTwin } :=
    { parallel with executor := parallel.executor.spawn queue pair }
  cases spawning with
  | queued => exact queued .host
  | immediate =>
      have same : mixed.catalog.poll mixed.executor.opened taskTwin.pending =
          plain.catalog.poll plain.executor.opened task.pending := by
        rw [parallel.catalog, parallel.executor.opened, pair.pending]
      simp only [Page.spawn, same, pair.attempt]
      cases plain.catalog.poll plain.executor.opened task.pending with
      | none => exact queued .page
      | some polled =>
          have kept : ({ plain with catalog := polled.2 } : Page).Parallel contrast links
              { mixed with catalog := polled.2 } :=
            { parallel with catalog := rfl }
          exact kept.pushOwn pair.bindings [.arrive task.binding task.attempt polled.1]
            (by simp [Call.isOf])

theorem launch
    (parallel : plain.Parallel contrast links mixed)
    (pair : links.bindings key twin)
    (attempt : Nat) :
    (plain.launch key attempt).Parallel contrast links (mixed.launch twin attempt) := by
  obtain ⟨binding, found, foundTwin, _⟩ := parallel.twins key twin pair
  have same (importer : Importer) :
      mixed.startImport importer binding.name = plain.startImport importer binding.name := by
    simp only [startImport, parallel.catalog]
  simp only [Page.launch, found, foundTwin, same]
  generalize plain.startImport binding.hooks.importer binding.name = started
  split
  · have loading (page pageTwin : Page) (parallel : page.Parallel contrast links pageTwin) :
        ({ page with catalog := started.catalog } : Page).Parallel contrast links
          { pageTwin with catalog := started.catalog } :=
      { parallel with catalog := rfl }
    have task : Task.Twins links ⟨key, attempt, started.pending⟩ ⟨twin, attempt, started.pending⟩ :=
      ⟨pair, rfl, rfl⟩
    refine spawn (loading _ _ ?_) task _
    cases started.report with
    | none => exact parallel
    | some report => exact parallel.recordAside (.loading report) fun _ => rfl
  · exact parallel

theorem consult
    (parallel : plain.Parallel contrast links mixed)
    (pair : links.bindings key twin)
    (binding : Binding)
    (attempt : Nat)
    (question : Question)
    (stage : Stage) :
    (plain.consult key binding attempt question stage).Parallel contrast links
      (mixed.consult twin binding attempt question stage) := by
  have waiting := parallel.pushOwn pair [.construct key attempt stage] (by simp [Call.isOf])
  unfold Page.consult
  cases binding.hooks.consultations.script? question with
  | none => exact waiting
  | some script => exact waiting.pushScript script _ _

theorem choose
    (parallel : plain.Parallel contrast links mixed)
    (pair : links.bindings key twin)
    (binding : Binding)
    (attempt : Nat)
    (module : Module) :
    (plain.choose key binding attempt module).Parallel contrast links
      (mixed.choose twin binding attempt module) := by
  have asked := parallel.record pair (.arguments key) (decide_eq_true rfl)
  unfold Page.choose
  cases Export.of binding.hooks.entry module with
  | none => exact parallel.fail pair attempt _
  | some chosen =>
      dsimp only
      cases binding.hooks.arguments with
      | options => exact parallel.consult pair binding attempt _ _
      | constant | refused => exact asked.consult pair binding attempt _ _

/-- A binding of an element that is not extra is given the same arguments on both pages. -/
theorem argumentsOf_eq
    {binding : Binding}
    (parallel : plain.Parallel contrast links mixed)
    (spared : contrast.isExtra binding.element = false) :
    mixed.argumentsOf binding = plain.argumentsOf binding := by
  have written (name : String) :
      mixed.scene.tree.attribute? binding.element name =
        plain.scene.tree.attribute? binding.element name := by
    rw [parallel.scene.mixedTree, parallel.scene.plainTree]
    exact parallel.fair.attributes binding.element spared name
  simp only [argumentsOf, optionsOf, parallel.registry, written]

theorem equip
    {binding : Binding}
    (parallel : plain.Parallel contrast links mixed)
    (pair : links.bindings key twin)
    (spared : contrast.isExtra binding.element = false)
    (attempt : Nat)
    (chosen : ConstructorId) :
    (plain.equip key binding attempt chosen).Parallel contrast links
      (mixed.equip twin binding attempt chosen) := by
  simp only [Page.equip, parallel.argumentsOf_eq spared, parallel.constructors]
  cases plain.argumentsOf binding with
  | error fault => exact parallel.fail pair attempt fault
  | ok arguments =>
      cases plain.constructors.get? chosen with
      | none => exact parallel.fail pair attempt _
      | some constructor =>
          have called := parallel.record pair (.constructing key constructor.name arguments)
            (decide_eq_true rfl)
          have building := called.pushOwn pair [.construct key attempt (.building chosen)]
            (by simp [Call.isOf])
          exact building.pushScript constructor.building (some key) (some twin)

theorem build
    (parallel : plain.Parallel contrast links mixed)
    (pair : links.bindings key twin)
    (binding : Binding)
    (attempt : Nat)
    (chosen : ConstructorId) :
    (plain.build key binding attempt chosen).Parallel contrast links
      (mixed.build twin binding attempt chosen) := by
  simp only [Page.build, parallel.constructors, parallel.instances]
  cases plain.constructors.get? chosen with
  | none => exact parallel.fail pair attempt _
  | some constructor =>
      have counted (constructors : Table Constructor) (instances : Nat) :
          ({ plain with constructors, instances } : Page).Parallel contrast links
            { mixed with constructors, instances } :=
        { parallel with constructors := rfl, instances := rfl }
      dsimp only
      cases constructor.nextFault? with
      | some fault => exact (counted _ plain.instances).fail pair attempt fault
      | none =>
          have built (constructors : Table Constructor) :=
            (counted constructors (plain.instances + 1)).record pair
            (.constructed key plain.instances
              (Occupant.of constructor chosen plain.instances
                binding.hooks.extractsDestructor).isRemovable)
            (decide_eq_true rfl)
          exact (built _).consult pair binding attempt _ _

theorem moveIn
    (parallel : plain.Parallel contrast links mixed)
    (pair : links.bindings key twin)
    (occupant : Occupant) :
    (plain.moveIn key occupant).Parallel contrast links (mixed.moveIn twin occupant) := by
  have inhabited := parallel.changeBinding pair
    (fun binding => { binding with occupant := some occupant, phase := .mounted }) fun _ => rfl
  exact inhabited.pushOwn pair
    [.notice key .didMount none, .notice key .onMount none, .settle key] (by simp [Call.isOf])

theorem construct
    (parallel : plain.Parallel contrast links mixed)
    (pair : links.bindings key twin)
    (attempt : Nat)
    (stage : Stage) :
    (plain.construct key attempt stage).Parallel contrast links
      (mixed.construct twin attempt stage) := by
  obtain ⟨binding, found, foundTwin, spared, _⟩ := parallel.twins key twin pair
  simp only [Page.construct, found, foundTwin]
  cases stage with
  | choosing module => exact parallel.choose pair binding attempt module
  | equipping chosen => exact parallel.equip pair spared attempt chosen
  | building chosen => exact parallel.build pair binding attempt chosen
  | fitting occupant => exact parallel.moveIn pair occupant

theorem arrive
    (parallel : plain.Parallel contrast links mixed)
    (pair : links.bindings key twin)
    (attempt : Nat)
    (outcome : Except MountFault Module) :
    (plain.arrive key attempt outcome).Parallel contrast links
      (mixed.arrive twin attempt outcome) := by
  obtain ⟨binding, found, foundTwin, _⟩ := parallel.twins key twin pair
  simp only [Page.arrive, found, foundTwin]
  split
  · cases outcome with
    | error fault => exact parallel.fail pair attempt fault
    | ok module => exact parallel.consult pair binding attempt _ _
  · exact parallel

theorem settle
    (parallel : plain.Parallel contrast links mixed)
    (pair : links.bindings key twin) :
    (plain.settle key).Parallel contrast links (mixed.settle twin) := by
  simp only [Page.settle, parallel.wants_eq pair]
  split
  · exact parallel
  · exact parallel.pushOwn pair [.teardown key] (by simp [Call.isOf])

theorem teardown
    (parallel : plain.Parallel contrast links mixed)
    (pair : links.bindings key twin) :
    (plain.teardown key).Parallel contrast links (mixed.teardown twin) := by
  simp only [Page.teardown, parallel.phase_eq pair]
  split
  · exact parallel.pushOwn pair [.notice key .willUnmount none, .dismantle key]
      (by simp [Call.isOf])
  · exact parallel

theorem dismantle
    (parallel : plain.Parallel contrast links mixed)
    (pair : links.bindings key twin) :
    (plain.dismantle key).Parallel contrast links (mixed.dismantle twin) := by
  obtain ⟨binding, found, foundTwin, _⟩ := parallel.twins key twin pair
  have emptied := parallel.changeBinding pair (fun binding => { binding with occupant := none })
    fun _ => rfl
  have vacated := emptied.pushOwn pair [.vacated key] (by simp [Call.isOf])
  simp only [Page.dismantle, found, foundTwin]
  split
  · cases binding.occupant with
    | none => exact vacated
    | some occupant =>
        dsimp only
        cases occupant.destructor with
        | none => exact vacated
        | some destructor =>
            have called := vacated.record pair
              (.destructing key occupant.built.number destructor.name) (decide_eq_true rfl)
            exact called.pushScript destructor.script (some key) (some twin)
  · exact parallel

theorem vacated
    (parallel : plain.Parallel contrast links mixed)
    (pair : links.bindings key twin) :
    (plain.vacated key).Parallel contrast links (mixed.vacated twin) :=
  (parallel.setPhase pair .unmounted).pushOwn pair
    [.notice key .didUnmount none, .notice key .onUnmount none, .remount key]
    (by simp [Call.isOf])

theorem remount
    (parallel : plain.Parallel contrast links mixed)
    (pair : links.bindings key twin) :
    (plain.remount key).Parallel contrast links (mixed.remount twin) := by
  simp only [Page.remount, parallel.wants_eq pair, parallel.phase_eq pair]
  split
  · exact parallel.mount pair
  · exact parallel

/-- A call of a binding is carried on as that of its twin is. -/
theorem carryOn_own
    {call : Call}
    (parallel : plain.Parallel contrast links mixed)
    (owned : call.isOf key)
    (gentle : call.ends = false)
    (pair : links.bindings key twin) :
    (plain.carryOn call).Parallel contrast links (mixed.carryOn (call.handOver twin)) := by
  cases call with
  | request | script | deliver | pin | hydrate | destroyEach | drive => cases owned
  | retire | bury => cases gentle
  | notice binding noticed fault =>
      cases of_decide_eq_true owned
      exact parallel.notice pair noticed fault
  | launch binding attempt =>
      cases of_decide_eq_true owned
      exact parallel.launch pair attempt
  | arrive binding attempt outcome =>
      cases of_decide_eq_true owned
      exact parallel.arrive pair attempt outcome
  | construct binding attempt stage =>
      cases of_decide_eq_true owned
      exact parallel.construct pair attempt stage
  | settle =>
      cases of_decide_eq_true owned
      exact parallel.settle pair
  | teardown =>
      cases of_decide_eq_true owned
      exact parallel.teardown pair
  | dismantle =>
      cases of_decide_eq_true owned
      exact parallel.dismantle pair
  | vacated =>
      cases of_decide_eq_true owned
      exact parallel.vacated pair
  | remount =>
      cases of_decide_eq_true owned
      exact parallel.remount pair

/-- The monitors that are pinned stand for each other. -/
theorem pinned (parallel : plain.Parallel contrast links mixed) :
    List.Forall₂ links.monitors plain.pinned mixed.pinned := by
  refine List.rel_flatMap parallel.stack fun call callTwin same => ?_
  cases same with
  | own owned _ _ =>
      cases call with
      | request | script | deliver | pin | hydrate | destroyEach | drive => cases owned
      | _ => exact .nil
  | deliver related | pin related => exact related
  | _ => exact .nil

theorem plainPins (parallel : plain.Parallel contrast links mixed) :
    ∀ monitor ∈ plain.pinned, plain.scene.keeps monitor :=
  ((List.forall₂_and_left _ _).mp (parallel.pinned.imp fun monitor other pair =>
    ⟨(parallel.scene.plainKept monitor).mpr ⟨other, pair⟩, pair⟩)).1

theorem mixedPins (parallel : plain.Parallel contrast links mixed) :
    ∀ monitor ∈ mixed.pinned, mixed.scene.keeps monitor :=
  ((List.forall₂_and_left _ _).mp (List.Forall₂.flip (parallel.pinned.imp fun other monitor pair =>
    ⟨(parallel.scene.mixedKept monitor).mpr ⟨other, pair⟩, pair⟩))).1

/-- A listener is told the same on both pages. -/
theorem hear
    (parallel : plain.Parallel contrast links mixed)
    (listener : Listener)
    (value : Bool) :
    (plain.hear listener value).Parallel contrast links (mixed.hear listener value) := by
  cases listener with
  | host subscription script =>
      have heard := parallel.recordAside (.heard subscription value plain.scene.heldValues)
        fun _ => rfl
      simp only [Page.hear, parallel.scene.heldValues_eq]
      exact heard.pushScript script none none
  | watch watch =>
      have related := parallel.scene.watches watch
      simp only [Page.hear]
      generalize plain.scene.watches.get? watch = entry at related
      generalize mixed.scene.watches.get? watch = entryTwin at related
      cases related with
      | none => exact parallel
      | @some entry entryTwin alike =>
          have pinned := parallel.push (.cons (.pin alike.monitors) .nil)
          rcases alike.audience with ⟨silent, silentTwin⟩ | ⟨binding, other, tells, tellsTwin, pair⟩
          · simp only [silent, silentTwin]
            exact parallel
          · simp only [tells, tellsTwin, Page.tell, parallel.scene.allHold_eq alike.monitors]
            refine pinned.push (.cons (.wish ?_ pair) .nil)
            split <;> simp

theorem deliver
    {monitors monitorsTwin : List MonitorId}
    (parallel : plain.Parallel contrast links mixed)
    (related : List.Forall₂ links.monitors monitors monitorsTwin) :
    (plain.deliver monitors).Parallel contrast links (mixed.deliver monitorsTwin) := by
  cases related with
  | nil => exact parallel
  | @cons monitor other rest restTwin pair others =>
      have waiting := parallel.push (.cons (.deliver others) .nil)
      simp only [Page.deliver, parallel.scene.listener?_eq pair, parallel.scene.value_eq pair]
      cases plain.scene.listener? monitor with
      | none => exact waiting
      | some listener =>
          exact (waiting.push (.cons (.pin (.cons pair .nil)) .nil)).hear listener _

/-- The scenes change together, and the monitors that flipped are delivered. -/
theorem refresh
    {change changeTwin : Scene × List MonitorId}
    (parallel : plain.Parallel contrast links mixed)
    (alike : change.1.Alike contrast links changeTwin.1)
    (flipped : List.Forall₂ links.monitors change.2 changeTwin.2) :
    (plain.refresh change).Parallel contrast links (mixed.refresh changeTwin) := by
  have changed : ({ plain with scene := change.1 } : Page).Parallel contrast links
      { mixed with scene := changeTwin.1 } :=
    { parallel with scene := alike }
  exact changed.push (.cons (.deliver flipped) .nil)

theorem isDriven_eq (parallel : plain.Parallel contrast links mixed) (queue : QueueName) :
    mixed.isDriven queue = plain.isDriven queue := by
  have stack := parallel.stack
  simp only [isDriven]
  generalize plain.stack = calls at stack
  generalize mixed.stack = callsTwin at stack
  induction stack with
  | nil => rfl
  | @cons call callTwin _ _ same _ inductionHypothesis =>
      have drives : callTwin.drives queue = call.drives queue := by
        cases same with
        | own owned _ _ =>
            cases call with
            | request | script | deliver | pin | hydrate | destroyEach | drive => cases owned
            | _ => rfl
        | _ => rfl
      rw [List.any_cons, List.any_cons, drives, inductionHypothesis]

theorem drive (parallel : plain.Parallel contrast links mixed) (queue : QueueName) :
    (plain.drive queue).Parallel contrast links (mixed.drive queue) := by
  simp only [Page.drive, parallel.isDriven_eq queue]
  split
  · exact parallel
  · exact parallel.push (.cons (.drive queue) .nil)

theorem driveNext (parallel : plain.Parallel contrast links mixed) (queue : QueueName) :
    (plain.driveNext queue).Parallel contrast links (mixed.driveNext queue) := by
  have drained := parallel.executor.drain queue
  simp only [Page.driveNext]
  rcases drained.next? queue with
    ⟨done, doneTwin⟩ | ⟨task, other, rest, restTwin, next, nextTwin, pair, related⟩
  · simp only [done, doneTwin]
    exact { parallel with executor := drained }
  · have going (executor executorTwin : Executor Task)
        (related : executor.Related (Task.Twins links) executorTwin) :
        (({ plain with executor } : Page).push [.drive queue]).Parallel contrast links
          (({ mixed with executor := executorTwin } : Page).push [.drive queue]) := by
      have taken : ({ plain with executor } : Page).Parallel contrast links
          { mixed with executor := executorTwin } :=
        { parallel with executor := related }
      exact taken.push (.cons (.drive queue) .nil)
    have kept (page pageTwin : Page) (catalog : Catalog Module)
        (parallel : page.Parallel contrast links pageTwin) :
        ({ page with catalog } : Page).Parallel contrast links { pageTwin with catalog } :=
      { parallel with catalog := rfl }
    have same : mixed.catalog.poll rest.opened task.pending =
        plain.catalog.poll rest.opened task.pending := by
      rw [parallel.catalog]
    simp only [next, nextTwin, same, related.opened, pair.pending, pair.attempt]
    cases plain.catalog.poll rest.opened task.pending with
    | some polled =>
        exact (kept _ _ polled.2 (going rest restTwin related)).pushOwn pair.bindings
          [.arrive task.binding task.attempt polled.1] (by simp [Call.isOf])
    | none =>
        dsimp only
        cases task.pending.awaited? rest.opened with
        | none => exact going rest restTwin related
        | some gate => exact going _ _ (related.wait gate queue pair)

theorem release (parallel : plain.Parallel contrast links mixed) (gate : String) :
    ({ plain with executor := plain.executor.release gate } : Page).Parallel contrast links
      { mixed with executor := mixed.executor.release gate } :=
  { parallel with executor := parallel.executor.release gate }

/-- A mild request is granted on both pages. -/
theorem answer
    {request : Request}
    (parallel : plain.Parallel contrast links mixed)
    (mild : request.isMild contrast.isExtra) :
    (plain.answer request).Parallel contrast links (mixed.answer request) := by
  cases request with
  | resize viewport =>
      obtain ⟨alike, flipped⟩ :=
        parallel.scene.resize parallel.plainPins parallel.mixedPins viewport
      exact parallel.refresh alike flipped
  | reveal element visible =>
      obtain ⟨alike, flipped⟩ :=
        parallel.scene.reveal parallel.plainPins parallel.mixedPins element visible
      exact parallel.refresh alike flipped
  | drive queue => exact parallel.drive queue
  | release gate => exact parallel.release gate
  | _ => cases mild

end Page.Parallel

end Hydration
