import Hydration.Proofs.Watching.Listening

/-!
# Watches are dropped

A watch that is dropped cancels what it has subscribed to.  As that are monitors
of its own, all other watches go on as before.
-/

namespace Hydration

namespace Scene

variable {scene after : Scene} {watch : WatchId}

/-- A slot after its latest attachment was undone. -/
def emptied (slot : Slot Listener) : Slot Listener :=
  ⟨slot.generation, none⟩

/-- Cancelling subscriptions empties the slots whose latest attachment they can undo. -/
theorem get?_foldl_cancel
    (subscriptions : List (Subscription Attachment))
    (scene : Scene)
    (key : MonitorId) :
    (subscriptions.foldl cancel scene).monitors.get? key =
      (scene.monitors.get? key).map fun monitor =>
        { monitor with
          slot :=
            if ⟨key, monitor.slot.generation⟩ ∈ subscriptions.filterMap Subscription.pending then
              emptied monitor.slot
            else monitor.slot } := by
  induction subscriptions generalizing scene with
  | nil => simp
  | cons first rest inductionHypothesis =>
      rw [List.foldl_cons, inductionHypothesis]
      cases pending : first.pending with
      | none => simp [cancel, pending]
      | some attachment =>
          simp only [cancel, pending, detach, Table.get?_modify, List.filterMap_cons]
          by_cases here : key = attachment.monitor
          · subst here
            rw [if_pos rfl, Option.map_map]
            congr 1
            funext monitor
            by_cases latest : monitor.slot.generation = attachment.generation
            · simp [Slot.detach, latest, emptied]
            · have other : (⟨attachment.monitor, monitor.slot.generation⟩ : Attachment) ≠
                  attachment := by
                rintro same
                exact latest (congrArg Attachment.generation same)
              simp [Slot.detach, latest, other]
          · rw [if_neg here]
            congr 1
            funext monitor
            have other : (⟨key, monitor.slot.generation⟩ : Attachment) ≠ attachment := by
              rintro same
              exact here (congrArg Attachment.monitor same)
            simp [other]

/-- Cancelling subscriptions changes the slots of the monitors in question, and nothing else. -/
theorem foldl_cancel_eq (subscriptions : List (Subscription Attachment)) (scene : Scene) :
    ∃ monitors, ∃ rewire : MonitorId → Slot Listener → Slot Listener,
      subscriptions.foldl cancel scene = { scene with monitors } ∧
        (∀ key, monitors.get? key =
          (scene.monitors.get? key).map fun monitor =>
            { monitor with slot := rewire key monitor.slot }) ∧
        ∀ key,
          (∀ subscription ∈ subscriptions, ∀ attachment,
            subscription.pending = some attachment → attachment.monitor ≠ key) →
          ∀ slot, rewire key slot = slot := by
  have same : subscriptions.foldl cancel scene =
      { scene with monitors := (subscriptions.foldl cancel scene).monitors } := by
    induction subscriptions generalizing scene with
    | nil => rfl
    | cons first rest inductionHypothesis =>
        refine (inductionHypothesis (scene.cancel first)).trans ?_
        simp only [List.foldl_cons, cancel]
        split <;> rfl
  refine ⟨_,
    fun key slot =>
      if ⟨key, slot.generation⟩ ∈ subscriptions.filterMap Subscription.pending then emptied slot
      else slot,
    same, get?_foldl_cancel subscriptions scene, fun key foreign slot => if_neg fun member => ?_⟩
  obtain ⟨subscription, among, pending⟩ := List.mem_filterMap.mp member
  exact foreign subscription among _ pending rfl

/-- A watch was dropped; its subscriptions were cancelled, which changed slots by `rewire`. -/
structure Drops
    (before after : Scene)
    (watch : WatchId)
    (rewire : MonitorId → Slot Listener → Slot Listener) : Prop where
  monitors :
    ∀ key, after.monitors.get? key =
      (before.monitors.get? key).map fun monitor =>
        { monitor with slot := rewire key monitor.slot }
  untouched :
    ∀ key, (∀ entry, before.watches.get? watch = some entry →
      ∀ subscription ∈ entry.subscriptions, ∀ attachment,
        subscription.pending = some attachment → attachment.monitor ≠ key) →
      ∀ slot, rewire key slot = slot
  watches :
    ∀ other, after.watches.get? other =
      if other = watch then
        (before.watches.get? other).map fun entry =>
          { entry with subscriptions := [], disposed := true, dropped := true }
      else before.watches.get? other
  visibility : after.visibility = before.visibility
  viewport : after.viewport = before.viewport
  toggles : after.toggles = before.toggles
  held : after.held = before.held

theorem drops_dropWatch (scene : Scene) (watch : WatchId) :
    ∃ rewire, scene.Drops (scene.dropWatch watch) watch rewire := by
  obtain ⟨monitors, rewire, same, found, others⟩ :=
    foldl_cancel_eq (((scene.watches.get? watch).map Watch.subscriptions).getD []) scene
  have dropped :
      scene.dropWatch watch =
        { scene with
          monitors
          watches :=
            ((scene.watches.modify watch fun entry => { entry with subscriptions := [] }).modify
              watch fun entry => { entry with disposed := true }).modify
                watch fun entry => { entry with dropped := true } } := by
    simp only [dropWatch, disposeWatch, silence, same]
  rw [dropped]
  refine ⟨rewire, found, ?_, ?_, rfl, rfl, rfl, rfl⟩
  · intro key foreign
    refine others key ?_
    intro subscription member
    cases there : scene.watches.get? watch with
    | none => simp [there] at member
    | some entry => exact foreign entry there subscription (by simpa [there] using member)
  · intro other
    simp only [Table.get?_modify]
    split <;> simp [Function.comp_def]

/-- A monitor that follows the scene belongs to one watch at most. -/
theorem Wired.alone
    {other : WatchId}
    {entry mine : Watch}
    {key : MonitorId}
    (wired : scene.Wired)
    (found : scene.watches.get? watch = some entry)
    (living : entry.dropped = false)
    (member : key ∈ entry.monitors)
    (foundMine : scene.watches.get? other = some mine)
    (livingMine : mine.dropped = false)
    (memberMine : key ∈ mine.monitors)
    (follows : scene.Follows key) :
    watch = other := by
  obtain ⟨monitor, there, away⟩ := follows
  obtain ⟨first, isFirst, listens⟩ := wired.wired watch entry found living key member
  obtain ⟨second, isSecond, listensMine⟩ :=
    wired.wired other mine foundMine livingMine key memberMine
  cases there.symm.trans isFirst
  cases there.symm.trans isSecond
  cases (listens away).symm.trans (listensMine away)
  rfl

/-- A scene that loses watches: the `lost` ones are dropped, and all others stay what they are. -/
structure Sheds (before : Scene) (lost : WatchId → Prop) (after : Scene) : Prop where
  wired : after.Wired
  held : after.held = before.held
  dropped :
    ∀ watch, lost watch →
      ∃ was gone, before.watches.get? watch = some was ∧ after.watches.get? watch = some gone ∧
        gone.dropped = true ∧ gone.audience = was.audience
  others : ∀ watch, ¬ lost watch → after.watches.get? watch = before.watches.get? watch
  values : ∀ watch, ¬ lost watch → after.watchValue watch = before.watchValue watch
  sources : ∀ key, before.Keeps after key

theorem Wired.sheds_none (wired : scene.Wired) : scene.Sheds (fun _ => False) scene where
  wired := wired
  held := rfl
  dropped _ lost := lost.elim
  others _ _ := rfl
  values _ _ := rfl
  sources _ := fun monitor found => ⟨monitor, found, rfl⟩

/-- The audience of a watch does not change, whether or not it is lost. -/
theorem Sheds.audience
    {lost : WatchId → Prop}
    {entry : Watch}
    (sheds : scene.Sheds lost after)
    (there : after.watches.get? watch = some entry) :
    ∃ was, scene.watches.get? watch = some was ∧ was.audience = entry.audience := by
  by_cases gone : lost watch
  · obtain ⟨was, now, isWas, isNow, _, same⟩ := sheds.dropped watch gone
    cases there.symm.trans isNow
    exact ⟨was, isWas, same.symm⟩
  · exact ⟨entry, (sheds.others watch gone).symm.trans there, rfl⟩

/-- When a watch is dropped all others keep their monitors, and those report to them as before. -/
theorem Wired.dropWatch
    (wired : scene.Wired)
    {entry : Watch}
    (found : scene.watches.get? watch = some entry)
    (living : entry.dropped = false) :
    scene.Sheds (fun other => other = watch) (scene.dropWatch watch) := by
  obtain ⟨rewire, drops⟩ := drops_dropWatch scene watch
  generalize scene.dropWatch watch = after at drops ⊢
  have now {key : MonitorId} {monitor : Monitor}
      (was : scene.monitors.get? key = some monitor) :
      after.monitors.get? key = some { monitor with slot := rewire key monitor.slot } := by
    rw [drops.monitors, was, Option.map_some]
  have others {other : WatchId} (different : other ≠ watch) :
      after.watches.get? other = scene.watches.get? other :=
    (drops.watches other).trans (if_neg different)
  have gone {other : WatchId} {known : Watch}
      (there : after.watches.get? other = some known)
      (stays : known.dropped = false) : other ≠ watch := by
    rintro rfl
    rw [drops.watches, if_pos rfl, found] at there
    cases there
    cases stays
  have tracks : after.Tracks scene.Watched :=
    wired.tracks.rewire drops.monitors drops.visibility drops.viewport drops.toggles
  refine ⟨⟨tracks.mono ?_, ?_, ?_, ?_⟩, drops.held, ?_, fun other => others, ?_, ?_⟩
  · rintro key ⟨other, known, there, stays, member⟩
    exact ⟨other, known, (others (gone there stays)).symm.trans there, stays, member⟩
  · intro other known there stays member among
    have different := gone there stays
    have was := (others different).symm.trans there
    obtain ⟨monitor, isMonitor, listens⟩ := wired.wired other known was stays member among
    refine ⟨_, now isMonitor, ?_⟩
    intro away
    have apart : rewire member monitor.slot = monitor.slot := by
      refine drops.untouched member ?_ _
      rintro mine isMine subscription subscribed attachment pending rfl
      cases found.symm.trans isMine
      have own := wired.owned watch entry found subscription subscribed attachment pending
      exact different
        (wired.alone was stays among found living own ⟨monitor, isMonitor, away⟩)
    rw [apart]
    exact listens away
  · intro other known there
    rw [drops.watches] at there
    split at there
    · obtain ⟨before, _, rfl⟩ := Option.map_eq_some_iff.mp there
      simp
    · exact wired.owned other known there
  · intro other known there stays
    have was := (others (gone there stays)).symm.trans there
    refine (wired.apart other known was stays).imp fun member among follows => ?_
    obtain ⟨monitor, isMonitor, _⟩ := wired.wired other known was stays member among
    exact follows.earlier (now isMonitor) isMonitor rfl
  · intro lost same
    subst same
    have dropped := drops.watches lost
    rw [if_pos rfl, found] at dropped
    exact ⟨entry, _, found, dropped, rfl, rfl⟩
  · intro other different
    have value (key : MonitorId) : after.value key = scene.value key := by
      rw [Scene.value, Scene.value, drops.monitors, Option.map_map]
      rfl
    simp only [watchValue, others different, allHold]
    split
    · rfl
    · exact congrArg (List.all _) (funext value)
  · intro key monitor was
    exact ⟨_, now was, rfl⟩

end Scene

end Hydration
