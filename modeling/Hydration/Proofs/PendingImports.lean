import Hydration.Proofs.Imports.Completing
import Hydration.Proofs.Imports.Queueing
import Hydration.Proofs.Life.Awaiting
import Hydration.Proofs.Resting

/-!
# No pending import is lost or stuck

The queue of the page is driven until no import in it can go on, whatever is asked
for meanwhile: imports that start or whose gates open while it is being driven
are taken in as well.  So when the drive is over a binding mounts exactly if the
gate that its import waits for is still closed.  To drive the queue while it is
being driven does nothing, and every import that has started is completed once.
-/

namespace Hydration

/-- A page with two bindings whose code waits for gates; a mount drives the queue and asks for one. -/
def Page.gated : Page :=
  let hooks := { Hooks.standard .standard with notices := [(.didMount, 0)] }
  let chunk (path gate : String) : Chunk Module :=
    ⟨path, [], ⟨some gate, .ok ⟨some 0, []⟩⟩, 0, none⟩
  { Page.lone hooks ⟨"Lone", none, true, none, 1, 1, 0⟩
      [⟨.page (.drive .page), 1, none⟩, ⟨.page (.bind .mount 1), 1, none⟩] with
    catalog :=
      ⟨"/", [("first", .lazy 0), ("second", .lazy 1)],
        ⟨[chunk "first" "one", chunk "second" "two"]⟩⟩
    bindings :=
      ⟨[.fresh "first" "first" 0 (.ok .always) hooks,
        .fresh "second" "second" 0 (.ok .always) hooks]⟩ }

theorem Page.begins_gated : Page.gated.Begins := by
  refine ⟨rfl, rfl, ?_, rfl⟩
  exact List.forall_mem_cons.mpr ⟨Binding.isFresh_fresh _ _ _ _ _,
    List.forall_mem_singleton.mpr (Binding.isFresh_fresh _ _ _ _ _)⟩

namespace Page

theorem gentle_of_all
    {pages : List Page}
    (gentle : pages.all fun page => !page.destructorActs) :
    ∀ page ∈ pages, page.destructorActs = false := by
  simpa using gentle

/-- The import of an attempt waits for a gate that is closed, to go back to the page's queue. -/
def AwaitsGate (page : Page) (key : BindingId) (attempt : Nat) : Prop :=
  ∃ task gate, ⟨gate, .page, task⟩ ∈ page.executor.waiters ∧
    task.binding = key ∧ task.attempt = attempt ∧
    task.pending.awaited? page.executor.opened = some gate

/--
Imports that are looked at when they start wait for closed gates.  A binding that
has not ended mounts exactly if the import of its attempt waits, unless a call
under way is about to start or to complete that import.
-/
structure IsStalled (page : Page) : Prop where
  waits :
    ∀ task ∈ page.executor.unfinished, ∀ binding, page.binding? task.binding = some binding →
      binding.hooks.spawning = .immediate → page.AwaitsGate task.binding task.attempt
  mounting :
    ∀ key binding, page.binding? key = some binding → binding.hooks.spawning = .immediate →
      binding.phase ≠ .destroyed →
      (∀ call ∈ page.stack, call.isOf key → call.attempt? ≠ some binding.attempt) →
      (binding.phase = .mounting ↔ page.AwaitsGate key binding.attempt)

variable {page after : Page} {queue : QueueName} {outer : List Call} {key : BindingId}
  {binding : Binding} {attempt : Nat}

theorem mem_importsOf :
    attempt ∈ page.importsOf key ↔
      ∃ task ∈ page.executor.unfinished, task.binding = key ∧ task.attempt = attempt := by
  simp [importsOf, and_assoc]

/-- A drive is over when its queue is empty; otherwise it goes on after what it has brought. -/
theorem driveNext_cases (page : Page) (queue : QueueName) :
    page.driveNext queue = { page with executor := page.executor.drain queue } ∧
        (page.executor.drain queue).queue queue = ⟨[], []⟩ ∨
      ∃ added, (page.driveNext queue).stack = added ++ .drive queue :: page.stack := by
  have drives := page.drives queue
  generalize page.driveNext queue = after at drives ⊢
  cases drives with
  | drained spent =>
      refine .inl ⟨rfl, ?_⟩
      unfold Executor.next? at spent
      split at spent
      · next ready =>
          rw [Executor.drain, Executor.queue_change, if_pos rfl] at ready ⊢
          exact congrArg (Queue.mk []) ready
      · cases spent
  | lands => exact .inr ⟨[_], rfl⟩
  | waits => exact .inr ⟨[], rfl⟩

/-- A drive comes to its end. -/
theorem exists_end_of_drive (stack : page.stack = .drive queue :: outer) :
    ∃ last, page.Leads last ∧ last.stack = .drive queue :: outer ∧ last.step.stack = outer := by
  have longer (inner : List Call) (call : Call) : outer ≠ inner ++ call :: outer := fun same => by
    have lengths := congrArg List.length same
    simp at lengths
    omega
  have unwound : ∃ after, page.Leads after ∧ after.stack = outer ∧
      ((∃ last, page.Leads last ∧ last.stack = .drive queue :: outer ∧ last.step.stack = outer) ∨
        page.Leads after ∧ ∃ inner, after.stack = inner ++ .drive queue :: outer) := by
    refine unwinds ?_ page [.drive queue] stack (.inr ⟨.here page, [], stack⟩)
    rintro moment call inner shape (ended | ⟨leads, between, under⟩)
    · exact .inl ended
    · have onward : page.Leads moment.step := leads.trans (.step (.here _))
      cases between with
      | nil =>
          rcases driveNext_cases { moment with stack := outer } queue with
            ⟨ended, _⟩ | ⟨added, pushed⟩
          · refine .inl ⟨moment, leads, under, ?_⟩
            rw [step_of_stack under, carryOn, ended]
          · refine .inr ⟨onward, added, ?_⟩
            rw [step_of_stack under]
            exact pushed
      | cons other rest =>
          obtain ⟨added, pushed⟩ := exists_pushed under
          exact .inr ⟨onward, added ++ rest, pushed.trans (List.append_assoc ..).symm⟩
  obtain ⟨after, _, under, ended | ⟨_, inner, above⟩⟩ := unwound
  · exact ended
  · exact (longer inner _ (under.symm.trans above)).elim

end Page

namespace Run

variable {free : Move → Prop} {start page after : Page} {passed : List Page} {outer : List Call}

/-- A run goes on to whatever its page leads to. -/
theorem leads (run : Run free start passed page) (leads : page.Leads after) :
    ∃ more, Run free start (more ++ passed) after ∧ ∀ earlier ∈ more, page.Leads earlier := by
  induction leads generalizing passed with
  | here => exact ⟨[], run, by simp⟩
  | @step page after _ inductionHypothesis =>
      obtain ⟨more, onward, among⟩ := inductionHypothesis run.step
      refine ⟨more ++ [page], by simpa using onward, ?_⟩
      refine List.forall_mem_append.mpr ⟨fun earlier member => .step (among earlier member), ?_⟩
      exact List.forall_mem_singleton.mpr (.here page)

/-- When a drive of the page's queue is over nothing in it can go on. -/
theorem isStalled
    (begins : start.Begins)
    (run : Run free start passed page)
    (gentle : ∀ earlier ∈ passed, earlier.destructorActs = false)
    (stack : page.stack = .drive .page :: outer)
    (ended : page.step.stack = outer) :
    page.step.IsStalled := by
  have houses := run.step.houses begins
  have empty : page.step.executor.queue .page = ⟨[], []⟩ := by
    rw [Page.step_of_stack stack] at ended ⊢
    rcases Page.driveNext_cases { page with stack := outer } .page with
      ⟨same, empty⟩ | ⟨added, pushed⟩
    · rw [Page.carryOn, same]
      exact empty
    · have lengths := congrArg List.length (ended.symm.trans pushed)
      simp at lengths
      omega
  have waits (task : Task) (member : task ∈ page.step.executor.unfinished) (binding : Binding)
      (found : page.step.binding? task.binding = some binding)
      (immediate : binding.hooks.spawning = .immediate) :
      page.step.AwaitsGate task.binding task.attempt := by
    obtain ⟨gate, waiter, awaited⟩ := Executor.Houses.waits_of_empty houses empty
      (fun other sends => by
        obtain ⟨bond, tied, rfl⟩ := sends
        cases tied.symm.trans (Page.bond?_of_found found)
        exact congrArg Spawning.queue immediate) member
    exact ⟨task, gate, waiter, rfl, rfl, awaited⟩
  refine ⟨waits, fun key binding found immediate living uncarried => ?_⟩
  obtain ⟨_, phase, _, number, _⟩ := Page.life_of_found found
  constructor
  · intro mounting
    have carried := (run.step.lives begins key).laws.1.carried (phase.trans mounting)
    rw [number, Life.carriers, Multiset.mem_add, Multiset.mem_coe] at carried
    rcases carried with imported | called
    · obtain ⟨task, member, rfl, same⟩ := Page.mem_importsOf.mp imported
      rw [← same]
      exact waits task member binding found immediate
    · obtain ⟨call, member, carries⟩ := List.mem_filterMap.mp called
      obtain ⟨under, own⟩ := List.mem_filter.mp member
      exact (uncarried call under own carries).elim
  · rintro ⟨task, gate, waiter, same, numbered, _⟩
    have unfinished : task ∈ page.step.executor.unfinished :=
      List.mem_append_right _ (List.mem_map.mpr ⟨_, waiter, rfl⟩)
    have imported : (page.step.life key).attempt ∈ (page.step.life key).imports := by
      rw [number]
      exact Page.mem_importsOf.mpr ⟨task, unfinished, same, numbered⟩
    have driving : page.destructorActs = false := by
      rw [Page.destructorActs, stack]
    have awaits : (page.step.life key).Awaits key :=
      run.step.awaits begins (List.forall_mem_cons.mpr ⟨driving, gentle⟩)
    exact phase.symm.trans ((awaits.awaited imported).resolve_right fun ended =>
      living (phase.symm.trans ended))

/--
To drive the page's queue while it is being driven does nothing.  Otherwise the
drive comes to its end, and then bindings mount exactly if their imports wait for
closed gates.  At every moment the imports that have started, each once, are
those that were completed and those still to be completed.  Whatever scripts ask
for, this needs nothing but that destructors ask for nothing.
-/
theorem imports_neither_lost_nor_stuck
    (begins : start.Begins)
    (run : Run (fun _ => True) start passed page)
    (gentle : ∀ earlier ∈ passed, earlier.destructorActs = false) :
    (∀ outer, page.stack = .request (.drive .page) :: outer → page.isDriven .page →
      page.step = { page with stack := outer }) ∧
    (∀ outer, page.stack = .request (.drive .page) :: outer → page.isDriven .page = false →
      (∀ moment, page.Leads moment → moment.destructorActs = false) →
      ∃ last, page.Leads last ∧ last.stack = .drive .page :: outer ∧ last.step.stack = outer ∧
        last.step.IsStalled) ∧
    (passed.filterMap Page.starting?).Nodup ∧
    (passed.filterMap Page.starting? : Multiset Trial) =
      (passed.filterMap Page.completing? : List Trial) + page.due := by
  have driven (outer : List Call) (stack : page.stack = .request (.drive .page) :: outer) :
      ({ page with stack := outer } : Page).isDriven .page = page.isDriven .page := by
    simp [Page.isDriven, stack, Call.drives]
  refine ⟨?_, ?_, run.nodup_started begins, run.started_eq begins⟩
  · intro outer stack nested
    rw [Page.step_of_stack stack, Page.carryOn, Page.answer, Page.drive,
      if_pos ((driven outer stack).trans nested)]
  · intro outer stack outermost onward
    have begun : page.step.stack = .drive .page :: outer := by
      rw [Page.step_of_stack stack, Page.carryOn, Page.answer, Page.drive,
        if_neg (by simp [driven outer stack, outermost])]
      rfl
    obtain ⟨last, leads, under, ended⟩ := Page.exists_end_of_drive begun
    have leads : page.Leads last := .step leads
    obtain ⟨more, reached, among⟩ := run.leads leads
    refine ⟨last, leads, under, ended, reached.isStalled begins ?_ under ended⟩
    exact List.forall_mem_append.mpr
      ⟨fun earlier member => onward earlier (among earlier member), gentle⟩

/--
A hook drives the queue while it is being driven, and mounts another binding; the
new import is taken in and waits for its gate when the drive is over.
-/
theorem imports_neither_lost_nor_stuck_gated :
    let waiting := Page.run 60 (Page.gated.move (.ask (.bind .mount 0)))
    let opened := Page.run 60 (waiting.move (.ask (.release "one")))
    let driven := Page.run 60 (opened.move (.ask (.drive .page)))
    driven.phase 0 = .mounted ∧ driven.phase 1 = .mounting ∧ driven.AwaitsGate 1 1 := by
  intro waiting opened driven
  have waitingRest : waiting.isAtRest := by decide +kernel
  have openedRest : opened.isAtRest := by decide +kernel
  have drivenRest : driven.isAtRest := by decide +kernel
  have run : Run (fun _ => True) Page.gated _ (opened.move (.ask (.drive .page))) :=
    (((Run.begin.move (.ask (.bind .mount 0)) rfl trivial).onward 60).move
      (.ask (.release "one")) waitingRest trivial).onward 60 |>.move
      (.ask (.drive .page)) openedRest trivial
  have onward : ∀ moment ∈ driven :: Page.trail 60 (opened.move (.ask (.drive .page))),
      moment.destructorActs = false :=
    Page.gentle_of_all (by decide +kernel)
  obtain ⟨_, outermost, _⟩ :=
    run.imports_neither_lost_nor_stuck Page.begins_gated (Page.gentle_of_all (by decide +kernel))
  obtain ⟨last, leads, _, ended, stalled⟩ :=
    outermost [] (congrArg (_ :: ·) (Page.stack_of_rest openedRest)) (by decide +kernel)
      fun moment leads => onward moment (leads.mem_trail drivenRest)
  obtain ⟨limit, reached⟩ := (leads.trans (.step (.here _))).exists_run
  have same : last.step = driven := by
    rw [← reached]
    exact Page.run_eq_run (by rw [reached]; simp [Page.isAtRest, ended]) drivenRest
  rw [same] at stalled
  have state : (driven.binding? 1).map (fun binding =>
      (binding.hooks.spawning, binding.phase, binding.attempt)) =
        some (.immediate, .mounting, 1) := by
    decide +kernel
  obtain ⟨binding, found, shape⟩ := Option.map_eq_some_iff.mp state
  obtain ⟨immediate, mounting, attempt⟩ : _ ∧ _ ∧ _ := by simpa using shape
  have awaits := (stalled.mounting 1 binding found immediate (by simp [mounting])
    (by simp [Page.stack_of_rest drivenRest])).mp mounting
  rw [attempt] at awaits
  exact ⟨by decide +kernel, (Page.phase_of_found found).trans mounting, awaits⟩

end Run

end Hydration
