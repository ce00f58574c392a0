import Hydration.Proofs.Passive.Hearing
import Hydration.Proofs.Passive.Linked
import Hydration.Proofs.Surroundings
import Hydration.Proofs.Watching.Flipping

/-!
# A change of the surroundings

The host changes the viewport or the visible elements of a page at rest, and they
are then as the host has said.  Every binding that watches its context is told the
value of the context after the change, as often as conditions of the context have
flipped, and each time it comes to rest before it is told again.  Nothing else
happens to it.
-/

namespace Hydration

/-- Whether a request changes the viewport or the visible elements. -/
def Request.isChange : Request → Bool
  | resize _ | reveal _ _ => true
  | _ => false

namespace Page

variable
  {page : Page} {request : Request} {scene : Scene} {flipped : List MonitorId}
  {key : BindingId}

/-- A change on a page at rest refreshes the scene, and the monitors that flipped are delivered. -/
theorem Linked.step_change
    (linked : page.Linked)
    (rest : page.isAtRest)
    (changes : request.isChange) :
    ∃ scene flipped, page.scene.Reports [] scene flipped ∧
      scene.surroundings = page.scene.surroundings.answer request ∧
      (page.move (.ask request)).step = { page with scene, stack := [.deliver flipped] } := by
  have empty := stack_of_rest rest
  have asked : (page.move (.ask request)).stack = [.request request] :=
    congrArg (Call.request request :: ·) empty
  cases request with
  | resize viewport =>
      refine ⟨_, _, linked.wired.reports_resize [] viewport,
        Scene.surroundings_resize page.scene [] viewport, ?_⟩
      rw [step_of_stack asked]
      rfl
  | reveal element visible =>
      refine ⟨_, _, linked.wired.reports_reveal [] element visible,
        linked.wired.tracks.surroundings_reveal [] element visible, ?_⟩
      rw [step_of_stack asked]
      rfl
  | _ => cases changes

theorem life_change (rest : page.isAtRest) (scene : Scene) (flipped : List MonitorId) :
    ({ page with scene, stack := [.deliver flipped] } : Page).life key = page.life key := by
  simp [life, stack_of_rest rest, Call.isOf, binding?, importsOf]

/-- Monitors that flipped report to watches, and those to their bindings. -/
theorem Linked.relays
    (linked : page.Linked)
    (planned : ∀ key, (page.life key).Planned key)
    (rest : page.isAtRest)
    (reports : page.scene.Reports [] scene flipped) :
    ({ page with scene, stack := [.deliver flipped] } : Page).Relays flipped := by
  refine ⟨linked.idle, ?_, ?_, ?_⟩
  · intro monitor member
    obtain ⟨watch, entry, found, living, mine⟩ :=
      Scene.watched_of_isAlive linked.unheld (reports.alive monitor member)
    obtain ⟨key, audience, watched⟩ := linked.audience watch entry found living
    exact ⟨watch, entry, key, reports.listener found living mine member,
      by rwa [reports.watches], audience, watched⟩
  · intro key watch watched
    obtain ⟨outlook, found, watches⟩ := watch?_eq_some_iff.mp watched
    obtain ⟨entry, there, _, audience, _⟩ := linked.served key outlook watch found watches
    exact ⟨entry, by rwa [reports.watches], audience⟩
  · intro key
    rw [life_change rest]
    exact planned key

/-- Among the monitors that flipped those tell a binding which belong to its watch. -/
theorem Linked.tells_iff
    {watch : WatchId}
    {entry : Watch}
    {monitor : MonitorId}
    (linked : page.Linked)
    (reports : page.scene.Reports [] scene flipped)
    (watched : page.watch? key = some watch)
    (found : page.scene.watches.get? watch = some entry)
    (living : entry.dropped = false)
    (member : monitor ∈ flipped) :
    ({ page with scene, stack := [.deliver flipped] } : Page).tells key monitor = true ↔
      monitor ∈ entry.monitors := by
  have telling :
      ({ page with scene, stack := [.deliver flipped] } : Page).tells key monitor = true ↔
        scene.listener? monitor = some (.watch watch) := by
    have watches :
        ({ page with scene, stack := [.deliver flipped] } : Page).watch? key = some watch := watched
    rw [tells, watches]
    simp
  rw [telling]
  obtain ⟨other, known, isKnown, alive, mine⟩ :=
    Scene.watched_of_isAlive linked.unheld (reports.alive monitor member)
  refine ⟨?_, fun among => reports.listener found living among member⟩
  intro hears
  cases (reports.listener isKnown alive mine member).symm.trans hears
  cases isKnown.symm.trans found
  exact mine

/-- A page on which a change of the surroundings has been told to every binding. -/
structure Changed (before after : Page) : Prop where
  rest : after.isAtRest
  outlook : ∀ key, after.outlook? key = before.outlook? key
  unwatched :
    ∀ key, before.watch? key = none → (before.life key).Heard key false 0 (after.life key)
  watched :
    ∀ key outlook watch context, before.outlook? key = some outlook →
      outlook.watch = some watch → outlook.Observes context →
        (before.life key).Heard key
          (after.scene.satisfies outlook.hooks.factories outlook.element context)
          (before.scene.flips after.scene outlook.hooks.factories outlook.element context)
          (after.life key)

/-- At rest a binding that could have a watch and has not ended has one. -/
theorem Started.watches
    {binding : Binding}
    {context : Context}
    (started : page.Started)
    (rest : page.isAtRest)
    (found : page.binding? key = some binding)
    (observes : binding.Observes context)
    (living : binding.phase ≠ .destroyed) :
    ∃ watch, binding.watch = some watch := by
  cases watches : binding.watch with
  | some watch => exact ⟨watch, rfl⟩
  | none =>
      obtain ⟨_, phase, _⟩ := life_of_found found
      rcases started.started key binding.outlook context (outlook?_of_found found) watches observes
        with destroyed | pending
      · exact (living (phase.symm.trans destroyed)).elim
      · simp [stack_of_rest rest] at pending

/-- A binding that has not ended hears of a change as often as conditions of it have flipped. -/
theorem Changed.heard
    {after : Page}
    {binding : Binding}
    {context : Context}
    (changed : page.Changed after)
    (started : page.Started)
    (rest : page.isAtRest)
    (found : page.binding? key = some binding)
    (observes : binding.Observes context)
    (living : binding.phase ≠ .destroyed) :
    (page.life key).Heard key
      (after.scene.satisfies binding.hooks.factories binding.element context)
      (page.scene.flips after.scene binding.hooks.factories binding.element context)
      (after.life key) := by
  obtain ⟨watch, watches⟩ := started.watches rest found observes living
  exact changed.watched key binding.outlook watch context (outlook?_of_found found) watches observes

/-- A binding that has ended is not moved by a change. -/
theorem Changed.unmoved_of_destroyed
    {after : Page}
    {binding : Binding}
    {context : Context}
    (changed : page.Changed after)
    (rest : page.isAtRest)
    (found : page.binding? key = some binding)
    (observes : binding.Observes context)
    (destroyed : binding.phase = .destroyed) :
    ∃ instances, after.life key = { page.life key with instances } := by
  obtain ⟨_, phase, _⟩ := life_of_found found
  cases watches : binding.watch with
  | none => exact (changed.unwatched key ((watch?_of_found found).trans watches)).never_told rfl
  | some watch =>
      have heard := changed.watched key binding.outlook watch context (outlook?_of_found found)
        watches observes
      exact heard.unmoved (calls_of_rest rest key) (.inl (phase.trans destroyed))

/-- The value of the watch of a binding is what the context of the binding says right now. -/
theorem Linked.watchValue_eq
    {outlook : Outlook}
    {watch : WatchId}
    {context : Context}
    (linked : page.Linked)
    (found : page.outlook? key = some outlook)
    (watches : outlook.watch = some watch)
    (observes : outlook.Observes context) :
    page.scene.watchValue watch =
      page.scene.satisfies outlook.hooks.factories outlook.element context := by
  obtain ⟨entry, there, living, _, serves⟩ := linked.served key outlook watch found watches
  exact linked.wired.watchValue_eq there living (serves context observes.1) observes.2

/-- A change that the host asks for on a page at rest comes about, and every binding is told. -/
theorem Linked.exists_changed
    (linked : page.Linked)
    (planned : ∀ key, (page.life key).Planned key)
    (rest : page.isAtRest)
    (changes : request.isChange) :
    ∃ after, (page.move (.ask request)).Leads after ∧
      after.scene.surroundings = page.scene.surroundings.answer request ∧
      page.Changed after := by
  obtain ⟨scene, flipped, reports, surroundings, step⟩ := linked.step_change rest changes
  have relays := linked.relays planned rest reports
  obtain ⟨after, leads, frames, isRest, heard⟩ := relays.settle rfl
  have sceneAfter : after.scene = scene := frames.scene
  refine ⟨after, .step (by rwa [step]), by rwa [sceneAfter], isRest, frames.outlook, ?_, ?_⟩
  · intro key unwatched
    have nobody : ({ page with scene, stack := [.deliver flipped] } : Page).watch? key = none :=
      unwatched
    have silent : flipped.countP
        (({ page with scene, stack := [.deliver flipped] } : Page).tells key) = 0 := by
      refine List.countP_eq_zero.mpr fun monitor _ => ?_
      simp [tells, nobody]
    have told := heard key
    rw [silent, life_change rest, matchesContext_eq, nobody] at told
    exact told
  · intro key outlook watch context found watches observes
    obtain ⟨entry, there, living, _, serves⟩ := linked.served key outlook watch found watches
    have watched : page.watch? key = some watch := watch?_eq_some_iff.mpr ⟨_, found, watches⟩
    have mine : ({ page with scene, stack := [.deliver flipped] } : Page).watch? key =
        some watch := watched
    have times :
        flipped.countP (({ page with scene, stack := [.deliver flipped] } : Page).tells key) =
          page.scene.flips scene outlook.hooks.factories outlook.element context := by
      rw [← reports.countP_eq_flips linked.wired there living (serves context observes.1)
        observes.2]
      refine List.countP_congr fun monitor member => ?_
      rw [linked.tells_iff reports watched there living member]
      simp
    have value : scene.watchValue watch =
        scene.satisfies outlook.hooks.factories outlook.element context :=
      reports.wired.watchValue_eq (by rwa [reports.watches]) living
        (reports.spares.serves (serves context observes.1)) observes.2
    have told := heard key
    rw [times, life_change rest, matchesContext_eq, mine] at told
    rw [sceneAfter, ← value]
    exact told

end Page

end Hydration
