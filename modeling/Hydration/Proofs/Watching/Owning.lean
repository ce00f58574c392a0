import Hydration.Proofs.Watching.Attaching
import Hydration.Proofs.Watching.Counting

/-!
# Whom watches belong to

A watch was made for a binding or for the host.  That of a binding belongs to it
until the watch is dropped.  What is done to one watch leaves all others with
their owners, and it leaves every monitor what it follows.
-/

namespace Hydration

/-- The binding that is told. -/
def Audience.binding? : Audience → Option BindingId
  | binding key => some key
  | host _ _ => none

/-- Whether a watch is one that the host keeps beside those of the bindings. -/
def Watch.isStandalone (entry : Watch) : Bool :=
  (entry.audience.bind Audience.binding?).isNone

namespace Scene

/-- The binding that a watch belongs to, which no binding does once the watch was dropped. -/
def owner? (scene : Scene) (watch : WatchId) : Option BindingId :=
  (scene.watches.get? watch).bind fun entry =>
    if entry.dropped then none else entry.audience.bind Audience.binding?

/-- One watch has changed, and monitors follow what they did. -/
structure Alters (before after : Scene) (watch : WatchId) (change : Watch → Watch) : Prop where
  sources : ∀ key, after.source? key = before.source? key
  watches :
    ∀ other, after.watches.get? other =
      if other = watch then (before.watches.get? other).map change
      else before.watches.get? other
  held : after.held = before.held

variable {scene after : Scene} {watch other : WatchId} {change : Watch → Watch}

theorem owner?_eq_some_iff {key : BindingId} :
    scene.owner? watch = some key ↔
      ∃ entry, scene.watches.get? watch = some entry ∧ entry.dropped = false ∧
        entry.audience = some (.binding key) := by
  simp only [owner?, Option.bind_eq_some_iff]
  refine exists_congr fun entry => and_congr_right fun _ => ?_
  cases entry.dropped <;> cases entry.audience with
  | none => simp
  | some audience => cases audience <;> simp [Audience.binding?]

theorem owner?_congr (watches : after.watches = scene.watches) :
    after.owner? watch = scene.owner? watch := by
  simp only [owner?, watches]

/-- A watch of the host belongs to no binding. -/
theorem owner?_of_standalone
    (standalone : ∀ entry, scene.watches.get? watch = some entry → entry.isStandalone) :
    scene.owner? watch = none := by
  cases found : scene.watches.get? watch with
  | none => rw [owner?, found, Option.bind_none]
  | some entry =>
      have nobody := Option.isNone_iff_eq_none.mp (standalone entry found)
      rw [owner?, found, Option.bind_some, nobody, ite_self]

/-- Watches that are alike up to their listeners have the same owners. -/
theorem Alters.owner?
    (alters : scene.Alters after watch change)
    (alike :
      ∀ entry, scene.watches.get? watch = some entry →
        (change entry).dropped = entry.dropped ∧
          (change entry).audience.bind Audience.binding? =
            entry.audience.bind Audience.binding?) :
    after.owner? other = scene.owner? other := by
  simp only [Scene.owner?, alters.watches]
  split
  · next same =>
      subst same
      cases found : scene.watches.get? other with
      | none => rfl
      | some entry =>
          obtain ⟨dropped, audience⟩ := alike entry found
          simp only [Option.map_some, Option.bind_some, dropped, audience]
  · rfl

theorem Alters.sustains
    (alters : scene.Alters after watch change)
    (alike :
      ∀ entry, (change entry).context = entry.context ∧
        (change entry).monitors = entry.monitors) :
    scene.Sustains after := by
  refine ⟨fun key source follows => (alters.sources key).trans follows, ?_⟩
  intro other entry now
  rw [alters.watches] at now
  split at now
  · obtain ⟨was, found, rfl⟩ := Option.map_eq_some_iff.mp now
    exact ⟨was, found, alike was⟩
  · exact ⟨entry, now, rfl, rfl⟩

/-- Listeners have no part in what a monitor follows. -/
theorem source?_of_rewired
    (rewire : MonitorId → Slot Listener → Slot Listener)
    (monitors :
      ∀ key, after.monitors.get? key =
        (scene.monitors.get? key).map fun monitor =>
          { monitor with slot := rewire key monitor.slot })
    (key : MonitorId) :
    after.source? key = scene.source? key := by
  rw [source?, source?, monitors, Option.map_map]
  rfl

theorem alters_silence (scene : Scene) (watch : WatchId) :
    scene.Alters (scene.silence watch) watch fun entry => { entry with subscriptions := [] } := by
  have field {α : Type} (get : Scene → α) :
      get (scene.silence watch) = get { scene with
        monitors := (scene.silence watch).monitors
        watches := scene.watches.modify watch fun entry => { entry with subscriptions := [] } } :=
    congrArg get (silence_eq scene watch)
  refine ⟨source?_of_rewired
    (fun key slot => if scene.owns watch ⟨key, slot.generation⟩ then emptied slot else slot)
    (get?_silence scene watch), fun other => ?_, field Scene.held⟩
  rw [field Scene.watches, Table.get?_modify]

theorem alters_disposeWatch (scene : Scene) (watch : WatchId) :
    scene.Alters (scene.disposeWatch watch) watch fun entry =>
      { entry with subscriptions := [], disposed := true } := by
  obtain ⟨sources, watches, held⟩ := alters_silence scene watch
  refine ⟨sources, ?_, held⟩
  intro other
  rw [disposeWatch, Table.get?_modify, watches]
  split
  · rw [Option.map_map]
    rfl
  · rfl

theorem alters_dropWatch (scene : Scene) (watch : WatchId) :
    scene.Alters (scene.dropWatch watch) watch fun entry =>
      { entry with subscriptions := [], disposed := true, dropped := true } := by
  obtain ⟨rewire, drops⟩ := drops_dropWatch scene watch
  exact ⟨source?_of_rewired rewire drops.monitors, drops.watches, drops.held⟩

/-- A watch that was disposed takes no audience any more. -/
theorem alters_listen (scene : Scene) (watch : WatchId) (audience : Audience) :
    ∃ subscriptions,
      scene.Alters (scene.listen watch audience) watch fun entry =>
        if entry.disposed then { entry with subscriptions := [] }
        else { entry with subscriptions, audience := some audience } := by
  have silences := alters_silence scene watch
  have own := silences.watches watch
  rw [if_pos rfl] at own
  cases found : scene.watches.get? watch with
  | none =>
      rw [found, Option.map_none] at own
      have same : scene.listen watch audience = scene.silence watch := by simp only [listen, own]
      rw [same]
      refine ⟨[], silences.sources, fun other => ?_, silences.held⟩
      rw [silences.watches]
      split
      · next mine => rw [mine, found, Option.map_none, Option.map_none]
      · rfl
  | some entry =>
      cases ended : entry.disposed with
      | true =>
          rw [found, Option.map_some] at own
          have same : scene.listen watch audience = scene.silence watch := by
            simp only [listen, own, ended, if_true]
          rw [same]
          refine ⟨[], silences.sources, fun other => ?_, silences.held⟩
          rw [silences.watches]
          split
          · next mine => simp only [mine, found, Option.map_some, ended, if_true]
          · rfl
      | false =>
          have listens := listens_listen found ended audience
          obtain ⟨subscriptions, now, _⟩ := listens.own
          refine ⟨subscriptions, source?_of_rewired
            (fun key slot =>
              if key ∈ entry.monitors then
                ⟨slot.generation + entry.monitors.count key, some (.watch watch)⟩
              else if scene.owns watch ⟨key, slot.generation⟩ then emptied slot
              else slot)
            listens.monitors, fun other => ?_, listens.held⟩
          split
          · next mine =>
              rw [mine, now, found]
              simp only [Option.map_some, ended, Bool.false_eq_true, if_false]
          · next different => exact listens.others other different

theorem owner?_disposeWatch : (scene.disposeWatch watch).owner? other = scene.owner? other :=
  (alters_disposeWatch scene watch).owner? fun _ _ => ⟨rfl, rfl⟩

/-- A watch that is dropped belongs to nobody. -/
theorem owner?_dropWatch :
    (scene.dropWatch watch).owner? other = if other = watch then none else scene.owner? other := by
  simp only [owner?, (alters_dropWatch scene watch).watches]
  split
  · cases scene.watches.get? other <;> rfl
  · rfl

/-- The host may listen to a watch of its own, which stays one. -/
theorem owner?_listen
    {handle round : Nat}
    (standalone : ∀ entry, scene.watches.get? watch = some entry → entry.isStandalone) :
    (scene.listen watch (.host handle round)).owner? other = scene.owner? other := by
  obtain ⟨subscriptions, alters⟩ := alters_listen scene watch (.host handle round)
  refine alters.owner? fun entry found => ?_
  have nobody := Option.isNone_iff_eq_none.mp (standalone entry found)
  split
  · exact ⟨rfl, rfl⟩
  · exact ⟨rfl, nobody.symm⟩

/-- A watch that is made for a binding belongs to it. -/
theorem owner?_addWatch_listen (context : Context) (keys : List MonitorId) (key : BindingId) :
    ((scene.addWatch context keys).listen scene.watches.size (.binding key)).owner? other =
      if other = scene.watches.size then some key else scene.owner? other := by
  obtain ⟨subscriptions, rewire, _, installs⟩ :=
    installs_addWatch scene context keys (.binding key)
  simp only [owner?, installs.watches]
  split <;> rfl

/-- A watch that nobody was given an audience for belongs to no binding. -/
theorem owner?_addWatch (context : Context) (keys : List MonitorId) :
    (scene.addWatch context keys).owner? other = scene.owner? other := by
  simp only [owner?, addWatch, Table.get?_push]
  split
  · next last =>
      rw [last, Table.get?_size]
      rfl
  · rfl

theorem sustains_listen (scene : Scene) (watch : WatchId) (audience : Audience) :
    scene.Sustains (scene.listen watch audience) := by
  obtain ⟨subscriptions, alters⟩ := alters_listen scene watch audience
  refine alters.sustains fun entry => ?_
  split <;> exact ⟨rfl, rfl⟩

theorem sustains_dropWatch (scene : Scene) (watch : WatchId) :
    scene.Sustains (scene.dropWatch watch) :=
  (alters_dropWatch scene watch).sustains fun _ => ⟨rfl, rfl⟩

theorem sustains_disposeWatch (scene : Scene) (watch : WatchId) :
    scene.Sustains (scene.disposeWatch watch) :=
  (alters_disposeWatch scene watch).sustains fun _ => ⟨rfl, rfl⟩

end Scene

end Hydration
