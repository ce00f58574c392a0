import Hydration.Proofs.Passive.Changing
import Hydration.Proofs.Passive.Hearing
import Hydration.Proofs.Passive.Minding

/-!
# Changes without glitches

All values are current before the first listener hears of a change.  So a binding
whose context has the same value after a change as before does not notice it, no
matter how many conditions have flipped, and a mounted binding whose context
fails is unmounted once.
-/

namespace Hydration

theorem Page.hasIdleScripts_watching (source : String) : (Page.watching source).HasIdleScripts := by
  intro script member
  rw [List.mem_singleton.mp member]

namespace Run

variable {start page : Page} {passed : List Page} {key : BindingId} {binding : Binding}

section Rest

variable
  {context : Context}
  (begins : start.Begins)
  (bare : start.IsBare)
  (idle : start.HasIdleScripts)
  (run : Run Move.IsMeek start passed page)
  (rest : page.isAtRest)
  (found : page.binding? key = some binding)
  (observes : binding.Observes context)

include begins bare idle run rest found observes

/-- At rest a binding that has not ended is wanted exactly when its context holds. -/
theorem wanted_eq_satisfies
    (living : binding.phase ≠ .destroyed) :
    binding.wanted = page.scene.satisfies binding.hooks.factories binding.element context := by
  obtain ⟨_, linked, started, _⟩ :=
    (run.mono fun _ meek => meek.1).linked begins bare idle
  obtain ⟨_, phase, wanted, _⟩ := Page.life_of_found found
  have outlook := Page.outlook?_of_found found
  obtain ⟨watch, watches⟩ := started.watches rest found observes living
  obtain ⟨entry, there, _⟩ := linked.served key binding.outlook watch outlook watches
  have watched : page.watch? key = some watch := (Page.watch?_of_found found).trans watches
  have minded := (run.minded begins bare idle).of_rest rest
  have value : page.scene.watchValue watch =
      page.scene.satisfies binding.hooks.factories binding.element context :=
    linked.watchValue_eq outlook watches observes
  rw [← value, ← wanted]
  have empty := Page.stack_of_rest rest
  rcases minded.minded key watch entry id watched there with
    holds | destroyed | ⟨_, member, _⟩ | doomed
  · exact holds
  · exact (living (phase.symm.trans destroyed)).elim
  · simp [empty] at member
  · simp [empty] at doomed

/-- A binding whose context holds after a change just if it did before is not moved by it. -/
theorem unmoved_of_same
    {after : Page}
    (changed : page.Changed after)
    (same :
      after.scene.satisfies binding.hooks.factories binding.element context =
        page.scene.satisfies binding.hooks.factories binding.element context) :
    ∃ instances, after.life key = { page.life key with instances } := by
  obtain ⟨_, _, started, _⟩ := (run.mono fun _ meek => meek.1).linked begins bare idle
  obtain ⟨_, phase, wanted, _⟩ := Page.life_of_found found
  by_cases destroyed : binding.phase = .destroyed
  · exact changed.unmoved_of_destroyed rest found observes destroyed
  · have heard := changed.heard started rest found observes destroyed
    have minds := run.wanted_eq_satisfies begins bare idle rest found observes destroyed
    cases value : page.scene.satisfies binding.hooks.factories binding.element context with
    | true => exact heard.never_told (Scene.flips_of_satisfies value (same.trans value))
    | false =>
        refine heard.unmoved (Page.calls_of_rest rest key) (.inr ⟨same.trans value, ?_, ?_⟩)
        · rw [wanted, minds, value]
        · rw [phase]
          intro mounted
          obtain ⟨wished, _⟩ := run.wish_done begins rest found
          cases (wished mounted).symm.trans (minds.trans value)

/-- The instance of a binding leaves when a change makes the context of the binding fail. -/
theorem left_of_fails
    {after : Page}
    (changed : page.Changed after)
    (mounted : binding.phase = .mounted)
    (fails : after.scene.satisfies binding.hooks.factories binding.element context = false) :
    ∃ occupant, binding.occupant = some occupant ∧
      (page.life key).Left key (Sign.unmounting occupant.isRemovable) (after.life key) := by
  obtain ⟨_, _, started, planned⟩ := (run.mono fun _ meek => meek.1).linked begins bare idle
  obtain ⟨_, phase, _, _, occupant⟩ := Page.life_of_found found
  obtain ⟨wished, _⟩ := run.wish_done begins rest found
  have living : binding.phase ≠ .destroyed := by simp [mounted]
  have quiet : (page.life key).calls = [] := Page.calls_of_rest rest key
  obtain ⟨inPlace, occupied⟩ := (planned key).occupied quiet (phase.trans mounted)
  have heard := changed.heard started rest found observes living
  have minds := run.wanted_eq_satisfies begins bare idle rest found observes living
  have differs :
      after.scene.satisfies binding.hooks.factories binding.element context ≠
        page.scene.satisfies binding.hooks.factories binding.element context := by
    rw [fails, ← minds, wished mounted]
    simp
  rw [fails] at heard
  exact ⟨inPlace, occupant.symm.trans occupied,
    heard.leaves quiet (phase.trans mounted) occupied (Scene.flips_pos differs)⟩

end Rest

/--
The host changes the viewport or the visible elements of a page at rest on which
nobody but watches asks for mounts and unmounts.  The page comes to rest again,
and its surroundings are what they were but for the change.  Nothing happens to a
binding whose context holds afterwards just if it did before.  A mounted binding
whose context does not hold afterwards is unmounted, and that is all that can be
told of it.
-/
theorem change_without_glitch
    {context : Context}
    {request : Request}
    (begins : start.Begins)
    (bare : start.IsBare)
    (idle : start.HasIdleScripts)
    (run : Run Move.IsMeek start passed page)
    (rest : page.isAtRest)
    (found : page.binding? key = some binding)
    (observes : binding.Observes context)
    (changes : request.isChange) :
    let holds (page : Page) :=
      page.scene.satisfies binding.hooks.factories binding.element context
    ∃ limit,
      let after := Page.run limit (page.move (.ask request))
      after.isAtRest ∧
        after.scene.surroundings = page.scene.surroundings.answer request ∧
        ∃ now, after.binding? key = some now ∧
          (holds after = holds page →
            after.history.filter (Event.isOf key) = page.history.filter (Event.isOf key) ∧
              now.phase = binding.phase ∧ now.wanted = binding.wanted) ∧
          (binding.phase = .mounted → holds after = false →
            ∃ occupant, binding.occupant = some occupant ∧
              after.trace key = page.trace key ++ Sign.unmounting occupant.isRemovable ∧
                now.phase = .unmounted ∧ now.wanted = false) := by
  intro holds
  obtain ⟨_, linked, _, planned⟩ := (run.mono fun _ meek => meek.1).linked begins bare idle
  obtain ⟨after, leads, surroundings, changed⟩ := linked.exists_changed planned rest changes
  obtain ⟨limit, reached⟩ := leads.exists_run
  refine ⟨limit, ?_⟩
  rw [reached]
  have outlook := Page.outlook?_of_found found
  obtain ⟨now, there, _⟩ := Option.map_eq_some_iff.mp ((changed.outlook key).trans outlook)
  obtain ⟨_, phase, wanted, _⟩ := Page.life_of_found found
  obtain ⟨_, phaseNow, wantedNow, _⟩ := Page.life_of_found there
  refine ⟨changed.rest, surroundings, now, there, ?_, ?_⟩
  · intro same
    obtain ⟨instances, life⟩ :=
      run.unmoved_of_same begins bare idle rest found observes changed same
    refine ⟨congrArg Life.events life, ?_, ?_⟩
    · rw [← phaseNow, life, ← phase]
    · rw [← wantedNow, life, ← wanted]
  · intro mounted fails
    obtain ⟨occupant, inPlace, left⟩ :=
      run.left_of_fails begins bare idle rest found observes changed mounted fails
    refine ⟨occupant, inPlace, ?_, ?_, ?_⟩
    · rw [← Page.trace_life, ← Page.trace_life]
      exact left.signs
    · rw [← phaseNow, left.phase]
    · rw [← wantedNow, left.wanted]

/-- Two conditions of a mounted binding fail when the viewport shrinks, and it is unmounted once. -/
theorem change_without_glitch_narrow :
    let start :=
      Page.watching "@media (min-width: 20em) and @visible and @media (min-width: 30em)"
    let hydrated := Page.run 60 (start.move (.ask (.hydrate 0)))
    let shown := Page.run 60 (hydrated.move (.ask (.reveal 0 true)))
    let narrow := Page.run 60 (shown.move (.ask (.resize (.ofPixels 100.0 600.0))))
    shown.phase 0 = .mounted ∧
      narrow.scene.viewport = .ofPixels 100.0 600.0 ∧
      narrow.trace 0 = shown.trace 0 ++ Sign.unmounting true ∧ narrow.phase 0 = .unmounted := by
  intro start hydrated shown narrow
  let conditions : Context :=
    ⟨[⟨"media", "(min-width: 20em)"⟩, ⟨"visible", ""⟩, ⟨"media", "(min-width: 30em)"⟩]⟩
  have hydratedRest : hydrated.isAtRest := by decide +kernel
  have shownRest : shown.isAtRest := by decide +kernel
  have narrowRest : narrow.isAtRest := by decide +kernel
  have hydrates : Move.IsMeek (.ask (.hydrate 0)) := ⟨rfl, fun _ same => by cases same; rfl⟩
  have reveals : Move.IsMeek (.ask (.reveal 0 true)) := ⟨rfl, fun _ same => by cases same; rfl⟩
  have run : Run Move.IsMeek start _ shown :=
    (((Run.begin.move (.ask (.hydrate 0)) rfl hydrates).onward 60).move
      (.ask (.reveal 0 true)) hydratedRest reveals).onward 60
  have state :
      (shown.binding? 0).map (fun binding =>
          (binding.phase, binding.context.toOption, binding.occupant.map Occupant.isRemovable)) =
        some (.mounted, some conditions, some true) := by
    decide +kernel
  have asks :
      (shown.binding? 0).all fun binding =>
        (conditions.conditions.all fun condition =>
          (condition.source? binding.hooks.factories binding.element).isSome) &&
          !narrow.scene.satisfies binding.hooks.factories binding.element conditions := by
    decide +kernel
  obtain ⟨binding, found, shape⟩ := Option.map_eq_some_iff.mp state
  obtain ⟨mounted, read, removable⟩ : _ ∧ _ ∧ _ := by simpa using shape
  obtain ⟨known, fails⟩ : _ ∧ _ := by simpa [found] using asks
  have observes : binding.Observes conditions := .of_toOption read (by simpa using known)
  obtain ⟨limit, rest, surroundings, now, there, _, leaves⟩ :=
    run.change_without_glitch (Page.begins_watching _) (Page.isBare_watching _)
      (Page.hasIdleScripts_watching _) shownRest found observes
      (show (Request.resize (.ofPixels 100.0 600.0)).isChange from rfl)
  rw [Page.run_eq_run rest narrowRest] at surroundings there leaves
  obtain ⟨occupant, inPlace, trace, phase, _⟩ := leaves mounted fails
  rw [inPlace] at removable
  have removable : occupant.isRemovable = true := by simpa using removable
  rw [removable] at trace
  have viewport : narrow.scene.viewport = .ofPixels 100.0 600.0 := by
    rw [← Scene.surroundings_viewport, surroundings, Surroundings.answer_resize_viewport]
  exact ⟨(Page.phase_of_found found).trans mounted, viewport, trace,
    (Page.phase_of_found there).trans phase⟩

end Run

end Hydration
