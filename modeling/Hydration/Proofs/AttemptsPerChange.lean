import Hydration.Proofs.GlitchFreedom
import Hydration.Proofs.Passive.Trying

/-!
# Attempts that one change starts

A change that makes a context hold tells its binding so as often as conditions of
the context have flipped.  A binding without an instance makes an attempt when
it is first told, and another one each time it is told after an attempt that has
failed at once.
-/

namespace Hydration

/-- The notices of attempts are events of the binding. -/
theorem Page.announced_life (page : Page) (key : BindingId) :
    (page.life key).announced key = page.announced key := by
  rw [Life.announced, Page.announced, Page.life, List.countP_filter]
  refine List.countP_congr fun event _ => ?_
  cases event with
  | noticed binding notice =>
      cases notice <;> simp [Event.announces, Event.isOf]
  | _ => simp [Event.announces]

/-- Whether an event is the end of an attempt in a fault. -/
def Event.isFailure : Event → Bool
  | failed _ _ _ => true
  | _ => false

/-- A page with one element that names a module which is not there. -/
def Page.missing (source : String) : Page :=
  { Page.watching source with catalog := Catalog.empty "/" }

namespace Run

variable {start page : Page} {passed : List Page} {key : BindingId} {binding : Binding}

/--
The host changes the viewport or the visible elements of a page at rest.  The
page comes to rest again.  If the context of a binding without an instance holds
then, and did not hold before, at least one attempt to mount is announced, and at
most one for each condition that has flipped.  It is exactly one if and only if
one condition alone has flipped or the first attempt has not failed by then.
-/
theorem attempts_on_change
    {context : Context}
    {request : Request}
    (begins : start.Begins)
    (bare : start.IsBare)
    (idle : start.HasIdleScripts)
    (run : Run Move.IsPlain start passed page)
    (rest : page.isAtRest)
    (found : page.binding? key = some binding)
    (observes : binding.Observes context)
    (unmounted : binding.phase = .unmounted)
    (changes : request.isChange) :
    let holds (page : Page) :=
      page.scene.satisfies binding.hooks.factories binding.element context
    ∃ limit,
      let after := Page.run limit (page.move (.ask request))
      let flips :=
        page.scene.flips after.scene binding.hooks.factories binding.element context
      after.isAtRest ∧
        (holds page = false → holds after = true →
          page.announced key < after.announced key ∧
            after.announced key ≤ page.announced key + flips ∧
            (after.announced key = page.announced key + 1 ↔
              flips = 1 ∨
                ∀ fault, .failed key (binding.attempt + 1) fault ∉ after.history)) := by
  intro holds
  obtain ⟨_, linked, started, planned⟩ := run.linked begins bare idle
  obtain ⟨_, leads, _, changed⟩ := linked.exists_changed planned rest changes
  obtain ⟨limit, rfl⟩ := leads.exists_run
  refine ⟨limit, ?_⟩
  intro after flips
  refine ⟨changed.rest, ?_⟩
  intro fails succeeds
  obtain ⟨_, phase, _, attempt, _⟩ := Page.life_of_found found
  have heard : (page.life key).Heard key true flips (after.life key) := by
    rw [← succeeds]
    exact changed.heard started rest found observes (by simp [unmounted])
  have often : 0 < flips := by
    refine Scene.flips_pos ?_
    change holds after ≠ holds page
    rw [fails, succeeds]
    simp
  have failed (fault : MountFault) :
      .failed key (binding.attempt + 1) fault ∈ (after.life key).events ↔
        .failed key (binding.attempt + 1) fault ∈ after.history := by
    simp [Page.life, List.mem_filter, Event.isOf]
  have announced := heard.announced (Page.calls_of_rest rest key) (run.lives begins key).recorded
    (phase.trans unmounted) (planned key) often
  rw [Page.announced_life, Page.announced_life, attempt] at announced
  simpa only [failed] using announced

/-- Two conditions flip at once, and the one attempt that this starts leads to an instance. -/
theorem attempts_on_change_lasting :
    let hydrated := Page.run 60 ((Page.watching "@visible and @visible").move (.ask (.hydrate 0)))
    let shown := Page.run 60 (hydrated.move (.ask (.reveal 0 true)))
    hydrated.phase 0 = .unmounted ∧ shown.announced 0 = hydrated.announced 0 + 1 := by
  intro hydrated shown
  have hydratedRest : hydrated.isAtRest := by decide +kernel
  have shownRest : shown.isAtRest := by decide +kernel
  have hydrates : Move.IsPlain (.ask (.hydrate 0)) := rfl
  have run : Run Move.IsPlain (Page.watching "@visible and @visible") _ hydrated :=
    (Run.begin.move (.ask (.hydrate 0)) rfl hydrates).onward 60
  have state :
      (hydrated.binding? 0).map (fun binding =>
          (binding.phase, binding.attempt, binding.context.toOption)) =
        some (.unmounted, 0, some ⟨[⟨"visible", ""⟩, ⟨"visible", ""⟩]⟩) := by
    decide +kernel
  have asks :
      (hydrated.binding? 0).all fun binding =>
        (Condition.source? ⟨"visible", ""⟩ binding.hooks.factories binding.element).isSome &&
          !hydrated.scene.satisfies binding.hooks.factories binding.element
            ⟨[⟨"visible", ""⟩, ⟨"visible", ""⟩]⟩ &&
          shown.scene.satisfies binding.hooks.factories binding.element
            ⟨[⟨"visible", ""⟩, ⟨"visible", ""⟩]⟩ := by
    decide +kernel
  have lasting : shown.history.all fun event => !event.isFailure := by decide +kernel
  obtain ⟨binding, found, shape⟩ := Option.map_eq_some_iff.mp state
  obtain ⟨unmounted, attempt, read⟩ : _ ∧ _ ∧ _ := by simpa using shape
  obtain ⟨⟨known, fails⟩, succeeds⟩ : (_ ∧ _) ∧ _ := by simpa [found] using asks
  have observes : binding.Observes ⟨[⟨"visible", ""⟩, ⟨"visible", ""⟩]⟩ :=
    .of_toOption read (by simpa using known)
  obtain ⟨limit, rest, exactly⟩ :=
    run.attempts_on_change (Page.begins_watching _) (Page.isBare_watching _)
      (Page.hasIdleScripts_watching _) hydratedRest found observes unmounted
      (show (Request.reveal 0 true).isChange from rfl)
  rw [Page.run_eq_run rest shownRest] at exactly
  obtain ⟨_, _, once⟩ := exactly fails succeeds
  refine ⟨(Page.phase_of_found found).trans unmounted, once.mpr (.inr fun fault member => ?_)⟩
  simpa [Event.isFailure] using List.all_eq_true.mp lasting _ member

/--
Two conditions flip at once, and the attempt that this starts fails at once, as
there is no module.  Another attempt is made when the second condition tells its
watch.
-/
theorem attempted_twice :
    let start := Page.missing "@visible and @visible"
    let hydrated := Page.run 60 (start.move (.ask (.hydrate 0)))
    let shown := Page.run 60 (hydrated.move (.ask (.reveal 0 true)))
    start.Begins ∧ start.IsBare ∧ start.HasIdleScripts ∧
      (∃ passed, Run Move.IsPlain start passed hydrated) ∧ hydrated.isAtRest ∧ shown.isAtRest ∧
      hydrated.phase 0 = .unmounted ∧
      (hydrated.matchesContext 0 = false ∧ shown.matchesContext 0 = true) ∧
      shown.announced 0 = hydrated.announced 0 + 2 := by
  intro start hydrated shown
  have hydrates : Move.IsPlain (.ask (.hydrate 0)) := rfl
  have run : Run Move.IsPlain start _ hydrated :=
    (Run.begin.move (.ask (.hydrate 0)) rfl hydrates).onward 60
  refine ⟨⟨rfl, rfl, Page.begins_watchful.fresh, rfl⟩,
    ⟨Page.isBare_watchful.scene, rfl, Page.isBare_watchful.calm⟩,
    Page.hasIdleScripts_watching "@visible and @visible", ⟨_, run⟩, ?_, ?_, ?_, ?_, ?_⟩
  all_goals decide +kernel

end Run

end Hydration
