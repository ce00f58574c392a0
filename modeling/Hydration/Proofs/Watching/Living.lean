import Hydration.Proofs.Watching.Leasing

/-!
# Living monitors are up to date

A monitor lives as long as the host, a watch or a call under way keeps it.
Whatever is done to a scene leaves all its living monitors up to date: those that
depend on what changed are refreshed together, a monitor that is made starts with
the value its source has, and only living monitors are told of.
-/

namespace Hydration

namespace Scene

variable {scene after : Scene} {pinned fewer more : List MonitorId} {key : MonitorId}
variable {kept : MonitorId → Prop}

theorem isAlive_iff :
    scene.isAlive pinned key ↔
      some key ∈ scene.held.entries ∨ scene.Watched key ∨ key ∈ pinned := by
  have watched :
      (scene.watches.entries.any fun watch => !watch.dropped && watch.monitors.contains key) ↔
        scene.Watched key := by
    simp only [List.any_eq_true, Bool.and_eq_true, Bool.not_eq_true', List.contains_iff_mem]
    constructor
    · rintro ⟨entry, member, living, keeps⟩
      obtain ⟨watch, found⟩ := List.mem_iff_getElem?.mp member
      exact ⟨watch, entry, found, living, keeps⟩
    · rintro ⟨watch, entry, found, living, keeps⟩
      exact ⟨entry, List.mem_of_getElem? found, living, keeps⟩
  simp only [isAlive, Scene.keeps, Bool.or_eq_true, List.contains_iff_mem, watched, or_assoc]

theorem isAlive_append :
    scene.isAlive (more ++ pinned) key ↔ key ∈ more ∨ scene.isAlive pinned key := by
  simp only [isAlive_iff, List.mem_append]
  tauto

theorem isAlive_congr
    (watches : after.watches = scene.watches)
    (held : after.held = scene.held) :
    after.isAlive pinned key = scene.isAlive pinned key := by
  simp only [isAlive, keeps, watches, held]

theorem isAlive_hold {new : MonitorId} :
    (scene.hold new).isAlive pinned key ↔ scene.isAlive pinned key ∨ key = new := by
  have watched : (scene.hold new).Watched key ↔ scene.Watched key := Iff.rfl
  have held : some key ∈ (scene.hold new).held.entries ↔
      some key ∈ scene.held.entries ∨ key = new := by
    simp [hold, Table.push]
  rw [isAlive_iff, isAlive_iff, watched, held]
  tauto

/-- What the host drops lives no longer than before. -/
theorem isAlive_of_unhold {handle : Nat} (alive : (scene.unhold handle).isAlive pinned key) :
    scene.isAlive pinned key := by
  rw [isAlive_iff] at alive ⊢
  refine alive.imp_left fun member => ?_
  obtain ⟨position, found⟩ := List.mem_iff_getElem?.mp member
  rw [unhold, Table.modify, List.getElem?_modify] at found
  obtain ⟨before, there, same⟩ := Option.map_eq_some_iff.mp found
  split at same
  · cases same
  · cases same
    exact List.mem_of_getElem? there

theorem isAlive_of_addWatch
    {context : Context}
    {keys : List MonitorId}
    (alive : (scene.addWatch context keys).isAlive pinned key) :
    scene.isAlive pinned key ∨ key ∈ keys := by
  rw [isAlive_iff] at alive ⊢
  rcases alive with held | ⟨watch, entry, found, living, keeps⟩ | pinned
  · exact .inl (.inl held)
  · rcases Table.get?_push_eq_some_iff.mp found with old | ⟨_, rfl⟩
    · exact .inl (.inr (.inl ⟨watch, entry, old, living, keeps⟩))
    · exact .inr keeps
  · exact .inl (.inr (.inr pinned))

/-- Nothing comes to life when watches end. -/
theorem Ages.isAlive
    (ages : scene.Ages after)
    (held : after.held = scene.held)
    (alive : after.isAlive pinned key) :
    scene.isAlive pinned key := by
  rw [isAlive_iff] at alive ⊢
  rw [← held]
  refine alive.imp_right (Or.imp_left ?_)
  rintro ⟨watch, entry, found, living, keeps⟩
  obtain ⟨was, there, same, dropped⟩ := ages watch entry found
  refine ⟨watch, was, there, ?_, same ▸ keeps⟩
  by_contra gone
  cases living.symm.trans (dropped (by simpa using gone))

/-- What neither changes monitors nor what they look at leaves them up to date. -/
theorem Tracks.of_eq
    (tracks : scene.Tracks kept)
    (monitors : after.monitors = scene.monitors)
    (visibility : after.visibility = scene.visibility)
    (viewport : after.viewport = scene.viewport)
    (toggles : after.toggles = scene.toggles) :
    after.Tracks kept := by
  have unwired (key : MonitorId) :
      after.monitors.get? key =
        (scene.monitors.get? key).map fun monitor => { monitor with slot := monitor.slot } := by
    rw [monitors]
    exact Option.map_id'.symm
  exact @Tracks.rewire scene after kept (fun _ slot => slot) tracks unwired visibility viewport
    toggles

/-- Storing values loses no monitor. -/
theorem exists_get?_store
    {judge : Source → Bool}
    {keys : List MonitorId}
    (known : ∃ monitor, scene.monitors.get? key = some monitor) :
    ∃ monitor, (scene.store judge keys).monitors.get? key = some monitor := by
  obtain ⟨monitor, found⟩ := known
  rw [get?_store, found]
  split
  · exact ⟨_, rfl⟩
  · exact ⟨monitor, rfl⟩

/-- Living monitors are there and up to date, and watches that have ended are not told of any. -/
structure Vital (scene : Scene) (pinned : List MonitorId) : Prop where
  tracks : scene.Tracks fun key => scene.isAlive pinned key
  leased : scene.Leased
  known : ∀ key, scene.isAlive pinned key → ∃ monitor, scene.monitors.get? key = some monitor

namespace Vital

theorem empty (tree : Tree) (viewport : Viewport) :
    ({ Scene.empty viewport with tree } : Scene).Vital [] :=
  ⟨.empty tree viewport, .empty tree viewport, fun _ alive => (by cases alive)⟩

theorem mono (vital : scene.Vital more) (among : fewer ⊆ more) : scene.Vital fewer :=
  ⟨vital.tracks.mono fun _ => isAlive_mono among, vital.leased,
    fun key alive => vital.known key (isAlive_mono among alive)⟩

/-- Monitors that live already may be pinned. -/
theorem pin (vital : scene.Vital pinned) (alive : ∀ key ∈ more, scene.isAlive pinned key) :
    scene.Vital (more ++ pinned) := by
  have before (key : MonitorId) (isAlive : scene.isAlive (more ++ pinned) key) :
      scene.isAlive pinned key :=
    (isAlive_append.mp isAlive).elim (alive key) id
  exact ⟨vital.tracks.mono before, vital.leased,
    fun key isAlive => vital.known key (before key isAlive)⟩

theorem of_eq
    (vital : scene.Vital pinned)
    (monitors : after.monitors = scene.monitors)
    (visibility : after.visibility = scene.visibility)
    (viewport : after.viewport = scene.viewport)
    (toggles : after.toggles = scene.toggles)
    (watches : after.watches = scene.watches)
    (alive : ∀ key, after.isAlive pinned key → scene.isAlive pinned key) :
    after.Vital pinned :=
  ⟨(vital.tracks.of_eq monitors visibility viewport toggles).mono alive,
    vital.leased.transfer watches fun _ monitor _ found _ => ⟨monitor, monitors ▸ found, rfl⟩,
    fun key isAlive => monitors ▸ vital.known key (alive key isAlive)⟩

/-- Listeners come and go. -/
theorem rewire
    (vital : scene.Vital pinned)
    (rewire : MonitorId → Slot Listener → Slot Listener)
    (monitors :
      ∀ key, after.monitors.get? key =
        (scene.monitors.get? key).map fun monitor =>
          { monitor with slot := rewire key monitor.slot })
    (visibility : after.visibility = scene.visibility)
    (viewport : after.viewport = scene.viewport)
    (toggles : after.toggles = scene.toggles)
    (alive : ∀ key, after.isAlive pinned key → scene.isAlive pinned key)
    (leased : after.Leased) :
    after.Vital pinned := by
  refine ⟨(vital.tracks.rewire monitors visibility viewport toggles).mono alive, leased, ?_⟩
  intro key isAlive
  obtain ⟨monitor, found⟩ := vital.known key (alive key isAlive)
  exact ⟨_, (monitors key).trans (congrArg _ found)⟩

theorem changeTree (vital : scene.Vital pinned) (change : Tree → Tree) :
    (scene.changeTree change).Vital pinned :=
  vital.of_eq rfl rfl rfl rfl rfl fun _ => id

theorem unhold (vital : scene.Vital pinned) (handle : Nat) :
    (scene.unhold handle).Vital pinned :=
  vital.of_eq rfl rfl rfl rfl rfl fun _ => isAlive_of_unhold

section Refreshing

/-- Monitors that flipped live as long as they are being told of. -/
theorem refresh
    {judge : Source → Bool}
    {keys : List MonitorId}
    (vital : scene.Vital pinned)
    (monitors : after.monitors = (scene.store judge keys).monitors)
    (watches : after.watches = scene.watches)
    (held : after.held = scene.held)
    (tracks : after.Tracks fun key => scene.isAlive pinned key)
    (alive : ∀ key ∈ keys, scene.isAlive pinned key) :
    after.Vital (scene.flipped judge keys ++ pinned) := by
  have before (key : MonitorId)
      (isAlive : after.isAlive (scene.flipped judge keys ++ pinned) key) :
      scene.isAlive pinned key := by
    rcases isAlive_append.mp isAlive with flipped | before
    · exact alive key (List.mem_of_mem_filter flipped)
    · rwa [isAlive_congr watches held] at before
  refine ⟨tracks.mono before, vital.leased.store watches monitors, fun key isAlive => ?_⟩
  rw [monitors]
  exact exists_get?_store (vital.known key (before key isAlive))

theorem resize (vital : scene.Vital pinned) (viewport : Viewport) :
    (scene.resize pinned viewport).1.Vital ((scene.resize pinned viewport).2 ++ pinned) := by
  refine vital.refresh rfl rfl rfl (vital.tracks.resize (fun _ => id) viewport) ?_
  intro key member
  obtain ⟨_, _, _, alive⟩ := mem_mediaMonitors.mp member
  exact alive

theorem reveal (vital : scene.Vital pinned) (element : ElementId) (visible : Bool) :
    (scene.reveal pinned element visible).1.Vital
      ((scene.reveal pinned element visible).2 ++ pinned) :=
  vital.refresh rfl rfl rfl (vital.tracks.reveal (fun _ => id) element visible)
    fun _ member => (List.mem_filter.mp member).2

/-- A toggle has no verdict that it would have to follow. -/
theorem setToggle (vital : scene.Vital pinned) (name : String) (value : Bool) :
    (scene.setToggle name value).1.Vital ((scene.setToggle name value).2 ++ pinned) := by
  obtain ⟨grows, tracks, monitor, found, host⟩ := vital.tracks.toggle name
  have stored : (scene.setToggle name value).1.Tracks
      fun key => scene.isAlive pinned key ∨ key = (scene.toggle name).1 := by
    refine tracks.refresh rfl ?_ (fun _ _ _ _ _ _ => id) (fun _ _ _ => id) (fun _ _ => id)
      tracks.distinct tracks.single rfl
    intro key member other there verdict told
    rw [List.mem_singleton.mp member] at there
    cases found.symm.trans there
    rw [host] at told
    cases told
  have before (key : MonitorId)
      (isAlive : (scene.setToggle name value).1.isAlive
        ((scene.setToggle name value).2 ++ pinned) key) :
      scene.isAlive pinned key ∨ key = (scene.toggle name).1 := by
    rcases isAlive_append.mp isAlive with flipped | before
    · have among : key ∈ (scene.toggle name).2.flipped (fun _ => value) [(scene.toggle name).1] :=
        flipped
      exact .inr (List.mem_singleton.mp (List.mem_of_mem_filter among))
    · exact .inl ((grows.isAlive pinned key).symm.trans before)
  refine ⟨stored.mono before, (vital.leased.grow grows).store rfl rfl, fun key isAlive => ?_⟩
  refine exists_get?_store ?_
  rcases before key isAlive with alive | rfl
  · obtain ⟨entry, was⟩ := vital.known key alive
    exact ⟨entry, grows.monitors key entry was⟩
  · exact ⟨monitor, found⟩

end Refreshing

section Making

variable {factories : Factories} {element : ElementId} {condition : Condition}

/-- A monitor that is made and kept for the host is one more that is up to date. -/
theorem make
    (vital : scene.Vital pinned)
    (made :
      scene.makeOf pinned factories condition.monitor element condition.query =
        (after, .ok key)) :
    (after.hold key).Vital pinned := by
  obtain ⟨grows, tracks, answer, found, _⟩ := vital.tracks.makeOf (fun _ => id) made
  have held : (after.hold key).Tracks fun other => scene.isAlive pinned other ∨ other = key :=
    tracks.of_eq rfl rfl rfl rfl
  have before (other : MonitorId) (isAlive : (after.hold key).isAlive pinned other) :
      scene.isAlive pinned other ∨ other = key := by
    rwa [isAlive_hold, grows.isAlive] at isAlive
  refine ⟨held.mono before,
    (vital.leased.grow grows).transfer rfl fun _ monitor _ found _ => ⟨monitor, found, rfl⟩,
    fun other isAlive => ?_⟩
  rcases before other isAlive with alive | rfl
  · obtain ⟨monitor, was⟩ := vital.known other alive
    exact ⟨monitor, grows.monitors other monitor was⟩
  · exact ⟨answer, found⟩

/-- Monitors that are made for a watch are up to date as long as the watch keeps them. -/
theorem watch (vital : scene.Vital pinned) (factories : Factories) (element : ElementId)
    (context : Context) :
    (scene.watch pinned factories element context).1.Vital pinned := by
  rcases vital.tracks.watch_cases (fun _ => id) factories element context with
    ⟨_, fault, result, grows, tracks, _⟩ | ⟨made, keys, result, _, grows, tracks, _, answers⟩
  · rw [result]
    refine ⟨tracks.mono fun key isAlive => by rwa [← grows.isAlive], vital.leased.grow grows,
      fun key isAlive => ?_⟩
    rw [grows.isAlive] at isAlive
    obtain ⟨monitor, was⟩ := vital.known key isAlive
    exact ⟨monitor, grows.monitors key monitor was⟩
  · rw [result]
    have kept : (made.addWatch context keys).Tracks
        fun key => scene.isAlive pinned key ∨ key ∈ keys := tracks.of_eq rfl rfl rfl rfl
    have before (key : MonitorId) (isAlive : (made.addWatch context keys).isAlive pinned key) :
        scene.isAlive pinned key ∨ key ∈ keys :=
      (isAlive_of_addWatch isAlive).imp_left (grows.isAlive pinned key).symm.trans
    refine ⟨kept.mono before, (vital.leased.grow grows).addWatch context _,
      fun key isAlive => ?_⟩
    rcases before key isAlive with alive | member
    · obtain ⟨monitor, was⟩ := vital.known key alive
      exact ⟨monitor, grows.monitors key monitor was⟩
    · obtain ⟨_, monitor, found, _⟩ := exists_answers answers member
      exact ⟨monitor, found⟩

end Making

section Listening

variable {watch : WatchId}

theorem silence (vital : scene.Vital pinned) (silences : scene.Silences after watch) :
    after.Vital pinned :=
  vital.rewire
    (fun key slot =>
      if scene.owns watch ⟨key, slot.generation⟩ then emptied slot else slot)
    silences.monitors silences.visibility silences.viewport silences.toggles
    (fun _ => silences.ages.isAlive silences.held) (vital.leased.silence silences)

theorem listen (vital : scene.Vital pinned) (watch : WatchId) (audience : Audience) :
    (scene.listen watch audience).Vital pinned := by
  rcases listen_cases scene watch audience with ⟨_, silences⟩ | ⟨entry, found, living, listens⟩
  · exact vital.silence silences
  · exact vital.rewire
      (fun key slot =>
        if key ∈ entry.monitors then
          ⟨slot.generation + entry.monitors.count key, some (.watch watch)⟩
        else if scene.owns watch ⟨key, slot.generation⟩ then emptied slot
        else slot)
      listens.monitors listens.visibility listens.viewport listens.toggles
      (fun _ => (listens.ages found).isAlive listens.held)
      (vital.leased.listen found living listens)

/-- The host may listen to any monitor in the place of anybody else. -/
theorem subscribe (vital : scene.Vital pinned) (monitor : MonitorId) (script : Nat) :
    (scene.subscribe monitor script).Vital pinned := by
  have attached (key : MonitorId) :
      (scene.subscribe monitor script).monitors.get? key =
        (scene.monitors.get? key).map fun entry =>
          { entry with
            slot :=
              if key = monitor then entry.slot.attach (.host scene.subscriptions.size script)
              else entry.slot } := by
    simp only [Scene.subscribe, attach, Table.get?_modify]
    split <;> simp
  refine vital.rewire
    (fun key slot =>
      if key = monitor then slot.attach (.host scene.subscriptions.size script) else slot)
    attached rfl rfl rfl (fun _ => id) (vital.leased.transfer rfl ?_)
  intro key entry watch found listens
  rw [attached] at found
  obtain ⟨was, there, rfl⟩ := Option.map_eq_some_iff.mp found
  dsimp only at listens ⊢
  split at listens
  · cases listens
  · next other => exact ⟨was, there, (if_neg other).symm⟩

theorem cancel (vital : scene.Vital pinned) (subscription : Subscription Attachment) :
    (scene.cancel subscription).Vital pinned := by
  unfold Scene.cancel
  split
  · exact vital
  · next attachment _ =>
      have detached (key : MonitorId) :
          (scene.detach attachment).monitors.get? key =
            (scene.monitors.get? key).map fun entry =>
              { entry with
                slot :=
                  if key = attachment.monitor then entry.slot.detach attachment.generation
                  else entry.slot } := by
        simp only [detach, Table.get?_modify]
        split <;> simp
      refine vital.rewire
        (fun key slot =>
          if key = attachment.monitor then slot.detach attachment.generation else slot)
        detached rfl rfl rfl (fun _ => id) (vital.leased.transfer rfl ?_)
      intro key entry watch found listens
      rw [detached] at found
      obtain ⟨was, there, rfl⟩ := Option.map_eq_some_iff.mp found
      refine ⟨was, there, ?_⟩
      -- A slot that still tells a watch was not emptied.
      dsimp only at listens ⊢
      split at listens
      · rw [Slot.listener_detach] at listens
        split at listens
        · cases listens
        · next newer => rw [if_pos ‹_›, Slot.detach, if_neg newer]
      · rw [if_neg ‹_›]

theorem unsubscribe (vital : scene.Vital pinned) (subscription : Nat) :
    (scene.unsubscribe subscription).Vital pinned := by
  unfold Scene.unsubscribe
  split
  · exact vital
  · exact (vital.cancel _).of_eq rfl rfl rfl rfl rfl fun _ => id

theorem dropSubscription (vital : scene.Vital pinned) (subscription : Nat) :
    (scene.dropSubscription subscription).Vital pinned :=
  (vital.unsubscribe subscription).of_eq rfl rfl rfl rfl rfl fun _ => id

end Listening

/-- A watch that is told of a monitor keeps monitors that live. -/
theorem isAlive_of_listener
    {monitor : Monitor}
    {watch : WatchId}
    {entry : Watch}
    (vital : scene.Vital pinned)
    (found : scene.monitors.get? key = some monitor)
    (listens : monitor.slot.listener = some (.watch watch))
    (there : scene.watches.get? watch = some entry) :
    ∀ member ∈ entry.monitors, scene.isAlive pinned member := by
  intro member mine
  obtain ⟨known, isKnown, _, living⟩ := vital.leased.living found listens
  cases there.symm.trans isKnown
  exact Watched.isAlive ⟨watch, entry, there, living, mine⟩ pinned

end Vital

/-- What the host may do with contexts that it watches itself. -/
inductive Chore where
  | watch (factories : Factories) (element : ElementId) (context : Context)
  /-- Gives a watch an audience; `handle` is the host's name for it, `round` counts them. -/
  | listen (watch : WatchId) (handle round : Nat)
  | dispose (watch : WatchId)
  | drop (watch : WatchId)

/-- The scene after the host has done something, given the monitors kept by calls under way. -/
def run (scene : Scene) (pinned : List MonitorId) : Chore → Scene
  | .watch factories element context => (scene.watch pinned factories element context).1
  | .listen watch handle round => scene.listen watch (.host handle round)
  | .dispose watch => scene.disposeWatch watch
  | .drop watch => scene.dropWatch watch

theorem Vital.run (vital : scene.Vital pinned) (chore : Chore) :
    (scene.run pinned chore).Vital pinned := by
  cases chore with
  | watch factories element context => exact vital.watch factories element context
  | listen watch handle round => exact vital.listen watch (.host handle round)
  | dispose watch => exact vital.silence (silences_disposeWatch scene watch)
  | drop watch => exact vital.silence (silences_dropWatch scene watch)

/-- Whether or not a context can be watched, no monitor changes its value. -/
theorem Vital.keepsValues_watch
    (vital : scene.Vital pinned)
    (factories : Factories)
    (element : ElementId)
    (context : Context) :
    scene.KeepsValues (scene.watch pinned factories element context).1 := by
  rcases vital.tracks.watch_cases (fun _ => id) factories element context with
    ⟨_, fault, result, grows, _⟩ | ⟨made, keys, result, _, grows, _⟩
  · rw [result]
    exact grows.keepsValues
  · rw [result]
    exact grows.keepsValues.trans (.of_eq rfl)

theorem Vital.keepsValues_run (vital : scene.Vital pinned) (chore : Chore) :
    scene.KeepsValues (scene.run pinned chore) := by
  cases chore with
  | watch factories element context => exact vital.keepsValues_watch factories element context
  | listen watch handle round => exact keepsValues_listen scene watch _
  | dispose watch => exact (silences_disposeWatch scene watch).keepsValues
  | drop watch => exact (silences_dropWatch scene watch).keepsValues

end Scene

end Hydration
