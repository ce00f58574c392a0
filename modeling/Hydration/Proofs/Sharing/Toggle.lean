import Hydration.Proofs.Watching.Listening

/-!
# A toggle that watches share

A toggle is one monitor with one slot, however many watches ask for it.  A watch
that starts to listen takes the slot from the watch that listened before, so the
toggle tells the binding of the watch that came last, and no other.
-/

namespace Hydration

namespace Scene

variable {scene made : Scene} {name : String} {monitor : MonitorId} {key : BindingId}

/-- The value of a toggle; a toggle that nobody has used does not hold. -/
def toggleValue (scene : Scene) (name : String) : Bool :=
  (Text.valueOf? name scene.toggles).elim false scene.value

/-- A toggle that was used is one of the monitors. -/
def KnowsToggle (scene : Scene) (name : String) : Prop :=
  ∀ monitor, Text.valueOf? name scene.toggles = some monitor →
    (scene.monitors.get? monitor).isSome

/-- The toggle tells a watch that asks nothing else, and the watch tells the binding. -/
def Tells (scene : Scene) (name : String) (key : BindingId) : Prop :=
  ∃ monitor watch entry,
    Text.valueOf? name scene.toggles = some monitor ∧
      scene.listener? monitor = some (.watch watch) ∧
      scene.watches.get? watch = some entry ∧
      entry.monitors = [monitor] ∧ entry.audience = some (.binding key)

theorem toggleValue_of_named (named : Text.valueOf? name scene.toggles = some monitor) :
    scene.toggleValue name = scene.value monitor := by
  simp [toggleValue, named]

/-- The toggle with a name is found or made, and it has the value it had. -/
theorem toggle_named (knows : scene.KnowsToggle name) :
    let found := scene.toggle name
    Text.valueOf? name found.2.toggles = some found.1 ∧
      (found.2.monitors.get? found.1).isSome ∧
      found.2.value found.1 = scene.toggleValue name ∧ found.2.tree = scene.tree := by
  refine ⟨named_toggle scene name, ?_⟩
  unfold toggle
  split
  · next monitor named =>
      exact ⟨knows monitor named, (toggleValue_of_named named).symm, rfl⟩
  · next unnamed =>
      refine ⟨?_, ?_, rfl⟩
      · simp [addMonitor, Table.get?_push]
      · simp [value, addMonitor, Table.get?_push, toggleValue, unnamed]

/-- A context that asks one toggle is watched with the monitor of the toggle. -/
theorem watch_toggle
    {factories : Factories}
    {condition : Condition}
    (asks : condition.toggle? factories = some name)
    (scene : Scene)
    (pinned : List MonitorId)
    (element : ElementId) :
    let found := scene.toggle name
    scene.watch pinned factories element ⟨[condition]⟩ =
      (found.2.addWatch ⟨[condition]⟩ [found.1], .ok found.2.watches.size) := by
  obtain ⟨factory, known, gives⟩ := Option.bind_eq_some_iff.mp asks
  have makes :
      scene.make pinned factory element condition.query =
        ((scene.toggle name).2, .ok (scene.toggle name).1) := by
    cases factory with
    | toggle | shared =>
        cases gives
        rfl
    | _ => cases gives
  simp [watch, makeAll, makeOf, known, makes]

theorem tree_cancel (scene : Scene) (subscription : Subscription Attachment) :
    (scene.cancel subscription).tree = scene.tree := by
  unfold cancel
  split <;> rfl

theorem tree_silence (scene : Scene) (watch : WatchId) :
    (scene.silence watch).tree = scene.tree := by
  have cancelled (subscriptions : List (Subscription Attachment)) (scene : Scene) :
      (subscriptions.foldl cancel scene).tree = scene.tree := by
    induction subscriptions generalizing scene with
    | nil => rfl
    | cons first rest inductionHypothesis =>
        exact (inductionHypothesis _).trans (tree_cancel scene first)
  exact cancelled _ scene

theorem tree_listen (scene : Scene) (watch : WatchId) (audience : Audience) :
    (scene.listen watch audience).tree = scene.tree := by
  have silenced := tree_silence scene watch
  unfold listen
  dsimp only
  split
  · exact silenced
  · next entry _ =>
      split
      · exact silenced
      · obtain ⟨_, _, attached, _⟩ :=
          attachAll_eq watch entry.monitors (scene.silence watch)
        rw [attached]
        exact silenced

/-- A new watch that asks the toggle alone is the one that the toggle tells from now on. -/
theorem listen_addWatch
    (context : Context)
    (named : Text.valueOf? name made.toggles = some monitor)
    (known : (made.monitors.get? monitor).isSome)
    (key : BindingId) :
    let after := (made.addWatch context [monitor]).listen made.watches.size (.binding key)
    after.Tells name key ∧ after.toggleValue name = made.value monitor ∧
      after.watchValue made.watches.size = made.value monitor := by
  obtain ⟨entry, was⟩ := Option.isSome_iff_exists.mp known
  obtain ⟨subscriptions, rewire, _, installs⟩ :=
    installs_addWatch made context [monitor] (.binding key)
  intro after
  have found : after.monitors.get? monitor =
      some { entry with slot := rewire monitor entry.slot } := installs.found was
  have same : after.value monitor = made.value monitor := by
    simp only [value, found, was, Option.map_some]
  have stillNamed : Text.valueOf? name after.toggles = some monitor := by
    rw [installs.toggles]
    exact named
  have there := (installs.watches made.watches.size).trans (if_pos rfl)
  refine ⟨⟨monitor, made.watches.size, _, stillNamed, ?_, there, rfl, rfl⟩, ?_, ?_⟩
  · rw [listener?, found, Option.bind_some]
    exact installs.wired monitor List.mem_cons_self _
  · rw [toggleValue_of_named stillNamed, same]
  · simp only [watchValue, after, there]
    simpa [allHold] using same

/-- A toggle that tells a binding is one of the monitors. -/
theorem Tells.knowsToggle (tells : scene.Tells name key) : scene.KnowsToggle name := by
  obtain ⟨monitor, _, _, named, listens, _⟩ := tells
  intro other isNamed
  cases named.symm.trans isNamed
  obtain ⟨entry, found, _⟩ := Option.bind_eq_some_iff.mp listens
  exact Option.isSome_iff_exists.mpr ⟨entry, found⟩

/-- Setting a toggle changes its value, tells the same binding, and nothing else flips. -/
theorem Tells.setToggle (tells : scene.Tells name key) (value : Bool) :
    let changed := scene.setToggle name value
    changed.1.Tells name key ∧ changed.1.toggleValue name = value ∧
      changed.1.toggles = scene.toggles ∧
      (∀ monitor ∈ changed.2, Text.valueOf? name scene.toggles = some monitor) ∧
      (changed.2 = [] → scene.toggleValue name = value) := by
  obtain ⟨monitor, watch, entry, named, listens, there, asks, audience⟩ := tells
  obtain ⟨known, found, hears⟩ := Option.bind_eq_some_iff.mp listens
  have toggled : scene.toggle name = (monitor, scene) := by
    simp only [toggle, named]
  intro changed
  have now : changed.1.monitors.get? monitor = some { known with value } := by
    simp [changed, Scene.setToggle, toggled, store, Table.get?_modify, found]
  have toggles : changed.1.toggles = scene.toggles := by
    simp only [changed, Scene.setToggle, toggled, store]
  have stillNamed : Text.valueOf? name changed.1.toggles = some monitor := by
    rw [toggles]
    exact named
  have stillThere : changed.1.watches.get? watch = some entry := by
    simpa only [changed, Scene.setToggle, toggled, store] using there
  refine ⟨⟨monitor, watch, entry, stillNamed, ?_, stillThere, asks, audience⟩, ?_, toggles, ?_, ?_⟩
  · rw [listener?, now, Option.bind_some]
    exact hears
  · rw [toggleValue_of_named stillNamed, Scene.value, now]
    rfl
  · intro flipped member
    have isToggle : flipped ∈ [monitor] := by
      simp only [changed, Scene.setToggle, toggled, Scene.flipped] at member
      exact List.mem_of_mem_filter member
    rw [List.mem_singleton.mp isToggle]
    exact named
  · intro still
    rw [toggleValue_of_named named]
    simpa [changed, Scene.setToggle, toggled, flipped, found, Scene.value] using still

end Scene

end Hydration
