import Hydration.Proofs.Convergence
import Hydration.Proofs.Surroundings
import Hydration.Proofs.Watching.Heeding

/-!
# Convergence of a page

On a page whose bindings are asked nothing by name, every binding at rest is what
its context says of the viewport and the visible elements of the moment.
-/

namespace Hydration

namespace Scene

/-- Whether all conditions of a context hold right now, each of them asked afresh. -/
def satisfies (scene : Scene) (factories : Factories) (element : ElementId) (context : Context) :
    Bool :=
  context.conditions.all fun condition =>
    (condition.source? factories element).bind scene.verdict? = some true

variable {scene : Scene} {factories : Factories} {element : ElementId}

/-- A condition on the viewport or on an element can be judged. -/
theorem exists_verdict
    {condition : Condition}
    {source : Source}
    (asks : condition.source? factories element = some source)
    (scene : Scene) :
    ∃ verdict, scene.verdict? source = some verdict := by
  unfold Condition.source? at asks
  split at asks
  · obtain ⟨query, _, rfl⟩ := Option.map_eq_some_iff.mp asks
    exact ⟨_, rfl⟩
  · obtain ⟨wanted, _, rfl⟩ := Option.map_eq_some_iff.mp asks
    exact ⟨_, rfl⟩
  · cases asks

/-- A monitor that a watch keeps for a condition has the value of the condition. -/
theorem Wired.value_eq
    {condition : Condition}
    {key : MonitorId}
    (wired : scene.Wired)
    (watched : scene.Watched key)
    (serves : scene.Serves factories element condition key)
    (known : (condition.source? factories element).isSome) :
    scene.value key =
      decide ((condition.source? factories element).bind scene.verdict? = some true) := by
  obtain ⟨source, asks⟩ := Option.isSome_iff_exists.mp known
  obtain ⟨monitor, found, follows⟩ := serves
  obtain ⟨verdict, told⟩ := exists_verdict asks scene
  have current : monitor.value = verdict := by
    refine wired.tracks.current key monitor watched found verdict ?_
    rw [follows source asks]
    exact told
  simp [value, found, asks, told, current]

/-- The value of a watch that was not dropped is what its context says right now. -/
theorem Wired.watchValue_eq
    {context : Context}
    {watch : WatchId}
    {entry : Watch}
    (wired : scene.Wired)
    (found : scene.watches.get? watch = some entry)
    (living : entry.dropped = false)
    (serves : List.Forall₂ (scene.Serves factories element) context.conditions entry.monitors)
    (known :
      ∀ condition ∈ context.conditions, (condition.source? factories element).isSome) :
    scene.watchValue watch = scene.satisfies factories element context := by
  have watched : ∀ key ∈ entry.monitors, scene.Watched key := by
    intro key member
    exact ⟨watch, entry, found, living, member⟩
  simp only [watchValue, found, satisfies, allHold]
  generalize context.conditions = conditions at serves known
  generalize entry.monitors = keys at serves watched
  induction serves with
  | nil => rfl
  | @cons condition key conditions keys first _ inductionHypothesis =>
      have value := wired.value_eq (watched key List.mem_cons_self) first
        (known condition List.mem_cons_self)
      have others := inductionHypothesis
        (fun condition member => known condition (List.mem_cons_of_mem _ member))
        (fun key member => watched key (List.mem_cons_of_mem _ member))
      rw [List.all_cons, List.all_cons, value, others]

theorem Sound.watchValue_eq
    {context : Context}
    {watch : WatchId}
    {entry : Watch}
    (sound : scene.Sound)
    (found : scene.watches.get? watch = some entry)
    (serves : List.Forall₂ (scene.Serves factories element) context.conditions entry.monitors)
    (known :
      ∀ condition ∈ context.conditions, (condition.source? factories element).isSome) :
    scene.watchValue watch = scene.satisfies factories element context :=
  sound.toWired.watchValue_eq found (sound.living watch entry found) serves known

end Scene

/-- A page without bindings on which nobody watches anything, with calm scripts. -/
structure Page.IsBare (page : Page) : Prop where
  scene : ∃ tree viewport, page.scene = { Scene.empty viewport with tree }
  bindings : page.bindings = Table.empty
  calm : page.HasCalmScripts

/-- A page with one element, which is to be mounted while it can be seen. -/
def Page.watchful : Page :=
  let hooks :=
    { Hooks.standard .standard with
      selection := .fixed [0]
      readName := .constant (some "lone")
      readContext := .constant (some "@visible")
      factories := Factories.empty.install }
  { Page.lone hooks ⟨"Lone", none, true, none, 0, 0, 0⟩ [] with
    hooks
    bindings := Table.empty }

theorem Page.begins_watchful : Page.watchful.Begins := by
  refine ⟨rfl, rfl, ?_, rfl⟩
  intro binding member
  cases member

theorem Page.isBare_watchful : Page.watchful.IsBare := by
  refine ⟨⟨Tree.empty, .standard, rfl⟩, rfl, ?_⟩
  intro script member
  rw [List.mem_singleton.mp member]
  intro action absent
  cases absent

/-- A page with one element, which is to be mounted while a context holds. -/
def Page.watching (source : String) : Page :=
  { Page.watchful with
    hooks := { Page.watchful.hooks with readContext := .constant (some source) } }

theorem Page.begins_watching (source : String) : (Page.watching source).Begins :=
  ⟨rfl, rfl, Page.begins_watchful.fresh, rfl⟩

theorem Page.isBare_watching (source : String) : (Page.watching source).IsBare :=
  ⟨Page.isBare_watchful.scene, rfl, Page.isBare_watchful.calm⟩

theorem Page.Begins.tended
    {page : Page}
    (begins : page.Begins)
    (bare : page.IsBare) :
    page.Tended fun _ => False := by
  obtain ⟨tree, viewport, scene⟩ := bare.scene
  have unwatched (watch : WatchId) : page.scene.watches.get? watch = none := by
    rw [scene]
    rfl
  have unbound (key : BindingId) : page.binding? key = none := by
    rw [Page.binding?, bare.bindings]
    rfl
  have tracks : page.scene.Tracks page.scene.Watched := by
    rw [scene]
    exact .empty tree viewport
  refine ⟨bare.calm, ?_, ⟨⟨tracks, ?_, ?_, ?_⟩, ?_⟩, ?_, ?_, ?_, ?_, ?_⟩
  · simp [begins.rest]
  · simp [unwatched]
  · simp [unwatched]
  · simp [unwatched]
  · simp [unwatched]
  · simp [unwatched]
  · simp [unbound]
  · simp [unbound]
  · simp [unbound]
  · simp [unbound]

namespace Run

variable {start page : Page} {passed : List Page} {key : BindingId} {binding : Binding}

/-- All along a calm run bindings follow their contexts. -/
theorem isTended
    (begins : start.Begins)
    (bare : start.IsBare)
    (run : Run Move.IsCalm start passed page) :
    page.IsTended := by
  induction run with
  | begin => exact .settled (begins.tended bare)
  | move move _ rest calm inductionHypothesis =>
      exact .settled ((inductionHypothesis.of_rest rest).move calm)
  | step _ inductionHypothesis => exact inductionHypothesis.step

/-- A calm run does not replace the scene. -/
theorem sparesScene_of_isCalm (move : Move) (calm : move.IsCalm) : move.sparesScene := by
  cases move with
  | scene => exact calm.elim
  | _ => rfl

/--
At rest a binding whose context asks for media queries and visibility is wanted
exactly when all conditions hold right now.  Unless it is mounting, it is mounted
exactly then, or the latest attempt to mount it has ended in a fault.  The viewport
and the visible elements are those that were asked for last.
-/
theorem satisfies_context
    {context : Context}
    (begins : start.Begins)
    (bare : start.IsBare)
    (run : Run Move.IsCalm start passed page)
    (rest : page.isAtRest)
    (found : page.binding? key = some binding)
    (observes : binding.Observes context)
    (arrived : binding.phase ≠ .mounting) :
    let holds := page.scene.satisfies binding.hooks.factories binding.element context
    binding.wanted = holds ∧
      ((binding.phase = .mounted ↔ holds = true) ∨
        (binding.phase = .unmounted ∧ holds = true ∧
          ∃ fault, .failed key binding.attempt fault ∈ page.history)) ∧
      page.scene.surroundings =
        start.scene.surroundings.answerAll (passed.filterMap Page.answering?) := by
  intro holds
  have tended := (run.isTended begins bare).of_rest rest
  have wanted : binding.wanted = holds := by
    cases watched : binding.watch with
    | none =>
        exact (tended.unwatched key binding found id watched context observes).elim
    | some watch =>
        obtain ⟨entry, there, _, serves⟩ := tended.served key binding watch found watched
        have value : page.scene.watchValue watch = holds :=
          tended.sound.watchValue_eq there (serves context observes.1) observes.2
        rcases tended.heeded key binding watch entry found id watched there with
          heeded | ⟨monitors, member, _⟩
        · exact heeded.trans value
        · simp [Page.stack_of_rest rest] at member
  obtain ⟨mounted, unmounted⟩ := run.wish_done begins rest found
  obtain ⟨_, surroundings⟩ :=
    run.surroundings_eq (Page.vital_of_unwatched begins.rest bare.scene) sparesScene_of_isCalm
  refine ⟨wanted, ?_, surroundings⟩
  rw [← wanted]
  cases phase : binding.phase with
  | mounting => exact (arrived phase).elim
  | destroyed => exact (tended.living key binding found phase).elim
  | mounted =>
      left
      simp [mounted phase]
  | unmounted =>
      by_cases isWanted : binding.wanted = true
      · exact .inr ⟨rfl, isWanted, unmounted phase isWanted⟩
      · left
        simp [isWanted]

/-- A binding is mounted when its element is shown and the viewport is wide enough again. -/
theorem satisfies_context_shown :
    let conditions : Context := ⟨[⟨"visible", ""⟩, ⟨"media", "(min-width: 40em)"⟩]⟩
    let start := Page.watching "@visible and @media (min-width: 40em)"
    let hydrated := Page.run 60 (start.move (.ask (.hydrate 0)))
    let narrow := Page.run 60 (hydrated.move (.ask (.resize (.ofPixels 400.0 400.0))))
    let shown := Page.run 60 (narrow.move (.ask (.reveal 0 true)))
    let page := Page.run 60 (shown.move (.ask (.resize (.ofPixels 800.0 600.0))))
    page.isAtRest ∧
      ∃ binding, page.binding? 0 = some binding ∧ binding.Observes conditions ∧
        shown.phase 0 = .unmounted ∧ binding.phase = .mounted ∧
        page.scene.satisfies binding.hooks.factories binding.element conditions := by
  intro conditions start hydrated narrow shown page
  have hydratedRest : hydrated.isAtRest := by decide +kernel
  have narrowRest : narrow.isAtRest := by decide +kernel
  have shownRest : shown.isAtRest := by decide +kernel
  have rest : page.isAtRest := by decide +kernel
  have hydrates : Move.IsCalm (.ask (.hydrate 0)) := rfl
  have reveals : Move.IsCalm (.ask (.reveal 0 true)) := rfl
  have resizes (viewport : Viewport) : Move.IsCalm (.ask (.resize viewport)) := rfl
  have toHydrated : Run Move.IsCalm start _ hydrated :=
    (Run.begin.move (.ask (.hydrate 0)) rfl hydrates).onward 60
  have toNarrow : Run Move.IsCalm start _ narrow :=
    (toHydrated.move (.ask (.resize (.ofPixels 400.0 400.0))) hydratedRest (resizes _)).onward 60
  have toShown : Run Move.IsCalm start _ shown :=
    (toNarrow.move (.ask (.reveal 0 true)) narrowRest reveals).onward 60
  have run : Run Move.IsCalm start _ page :=
    (toShown.move (.ask (.resize (.ofPixels 800.0 600.0))) shownRest (resizes _)).onward 60
  have waits : shown.phase 0 = .unmounted := by decide +kernel
  have state :
      (page.binding? 0).map (fun binding => (binding.phase, binding.context.toOption)) =
        some (.mounted, some conditions) := by
    decide +kernel
  have asks :
      (page.binding? 0).all fun binding =>
        conditions.conditions.all fun condition =>
          (condition.source? binding.hooks.factories binding.element).isSome := by
    decide +kernel
  obtain ⟨binding, found, shape⟩ := Option.map_eq_some_iff.mp state
  obtain ⟨mounted, read⟩ := Prod.mk.inj shape
  have observes : binding.Observes conditions := by
    refine ⟨?_, ?_⟩
    · cases context : binding.context with
      | error fault => simp [context, Except.toOption] at read
      | ok known => simpa [context, Except.toOption] using read
    · simpa [found, conditions] using asks
  have arrived : binding.phase ≠ .mounting := by
    simp [mounted]
  obtain ⟨_, exactly | ⟨unmounted, _⟩, _⟩ :=
    run.satisfies_context (Page.begins_watching _) (Page.isBare_watching _) rest found observes
      arrived
  · exact ⟨rest, binding, found, observes, waits, mounted, exactly.mp mounted⟩
  · cases mounted.symm.trans unmounted

end Run

end Hydration
