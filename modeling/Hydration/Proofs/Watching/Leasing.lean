import Hydration.Proofs.Watching.Attaching

/-!
# Watches lease the slots they listen with

A monitor tells a watch only while the watch can undo that, so a watch that has
ended is told no more.  Where only watches listen, what a watch can undo is
outdated or the latest attachment: a watch that goes silent leaves every listener
alone that came after it.
-/

namespace Hydration

namespace Scene

variable {scene after : Scene} {watch other : WatchId} {key : MonitorId} {monitor : Monitor}
variable {entry : Watch} {audience : Audience}

/-- A watch that a monitor tells can undo that, and a watch that has ended undoes nothing. -/
structure Leased (scene : Scene) : Prop where
  owned :
    ∀ key monitor watch, scene.monitors.get? key = some monitor →
      monitor.slot.listener = some (.watch watch) →
        scene.owns watch ⟨key, monitor.slot.generation⟩
  quiet :
    ∀ watch entry, scene.watches.get? watch = some entry →
      (entry.dropped → entry.disposed) ∧ (entry.disposed → entry.subscriptions = [])

namespace Leased

theorem empty (tree : Tree) (viewport : Viewport) :
    ({ Scene.empty viewport with tree } : Scene).Leased :=
  ⟨fun _ _ _ found => (by cases found), fun _ _ found => (by cases found)⟩

/-- Watches that are told of a monitor have not ended. -/
theorem living
    (leased : scene.Leased)
    (found : scene.monitors.get? key = some monitor)
    (listens : monitor.slot.listener = some (.watch watch)) :
    ∃ entry, scene.watches.get? watch = some entry ∧ entry.disposed = false ∧
      entry.dropped = false := by
  obtain ⟨entry, there, member⟩ := owns_iff.mp (leased.owned key monitor watch found listens)
  obtain ⟨ended, silent⟩ := leased.quiet watch entry there
  have living : ¬ entry.disposed := by
    intro disposed
    rw [Watch.attachments, silent disposed] at member
    cases member
  exact ⟨entry, there, by simpa using living, by simpa using mt ended living⟩

/-- Nothing becomes of the slots that tell watches. -/
theorem transfer
    (leased : scene.Leased)
    (watches : after.watches = scene.watches)
    (slots :
      ∀ key monitor watch, after.monitors.get? key = some monitor →
        monitor.slot.listener = some (.watch watch) →
          ∃ was, scene.monitors.get? key = some was ∧ was.slot = monitor.slot) :
    after.Leased := by
  refine ⟨?_, by rw [watches]; exact leased.quiet⟩
  intro key monitor watch found listens
  obtain ⟨was, there, same⟩ := slots key monitor watch found listens
  rw [owns_congr (congrArg (Table.get? · watch) watches), ← same]
  exact leased.owned key was watch there (by rwa [same])

theorem grow (leased : scene.Leased) (grows : scene.Grows after) : after.Leased := by
  refine leased.transfer grows.watches ?_
  intro key monitor watch found listens
  rcases grows.fresh key monitor found with there | fresh
  · exact ⟨monitor, there, rfl⟩
  · rw [fresh] at listens
    cases listens

theorem store
    {judge : Source → Bool}
    {keys : List MonitorId}
    (leased : scene.Leased)
    (watches : after.watches = scene.watches)
    (monitors : after.monitors = (scene.store judge keys).monitors) :
    after.Leased := by
  refine leased.transfer watches ?_
  intro key monitor watch found _
  rw [monitors, get?_store] at found
  split at found
  · obtain ⟨was, there, rfl⟩ := Option.map_eq_some_iff.mp found
    exact ⟨was, there, rfl⟩
  · exact ⟨monitor, found, rfl⟩

theorem addWatch (leased : scene.Leased) (context : Context) (keys : List MonitorId) :
    (scene.addWatch context keys).Leased := by
  refine ⟨?_, ?_⟩
  · intro key monitor watch found listens
    rw [owns_addWatch]
    exact leased.owned key monitor watch found listens
  · intro watch entry found
    rcases Table.get?_push_eq_some_iff.mp found with old | ⟨_, rfl⟩
    · exact leased.quiet watch entry old
    · exact ⟨id, fun _ => rfl⟩

theorem silence (leased : scene.Leased) (silences : scene.Silences after watch) :
    after.Leased := by
  refine ⟨?_, ?_⟩
  · intro key monitor other found listens
    rw [silences.monitors] at found
    obtain ⟨was, there, rfl⟩ := Option.map_eq_some_iff.mp found
    dsimp only at listens ⊢
    split at listens
    · cases listens
    · next foreign =>
        have owned := leased.owned key was other there listens
        rw [if_neg foreign]
        exact silences.owns_iff.mpr ⟨fun same => foreign (same ▸ owned), owned⟩
  · intro other entry found
    by_cases same : other = watch
    · subst same
      obtain ⟨silent, disposed, _⟩ := silences.own entry found
      exact ⟨fun _ => disposed, fun _ => silent⟩
    · exact leased.quiet other entry ((silences.others other same).symm.trans found)

theorem listen
    (leased : scene.Leased)
    (found : scene.watches.get? watch = some entry)
    (living : entry.disposed = false)
    (listens : scene.Listens after watch entry audience) :
    after.Leased := by
  refine ⟨?_, ?_⟩
  · intro key monitor other now tells
    rw [listens.monitors] at now
    obtain ⟨was, there, rfl⟩ := Option.map_eq_some_iff.mp now
    dsimp only at tells ⊢
    split at tells
    · next mine =>
        cases tells
        have positive : 0 < entry.monitors.count key := List.count_pos_iff.mpr mine
        rw [if_pos mine]
        exact (listens.owns_self there).mpr ⟨Nat.lt_add_of_pos_right positive, Nat.le_refl _⟩
    · next foreign =>
        rw [if_neg foreign]
        split at tells
        · cases tells
        · next foreign =>
            have owned := leased.owned key was other there tells
            have different : other ≠ watch := fun same => foreign (same ▸ owned)
            rw [if_neg foreign, listens.owns_other different]
            exact owned
  · intro other known now
    by_cases same : other = watch
    · subst same
      obtain ⟨subscriptions, there, _⟩ := listens.own
      cases there.symm.trans now
      refine ⟨fun dropped => ?_, fun disposed => ?_⟩
      · exact (leased.quiet other entry found).1 dropped
      · cases living.symm.trans disposed
    · exact leased.quiet other known ((listens.others other same).symm.trans now)

end Leased

/--
The monitors of watches are there, a watch attaches to no others, and what it can
undo is outdated or the latest attachment, which is then one to itself.
-/
structure Fenced (scene : Scene) : Prop where
  known :
    ∀ watch entry, scene.watches.get? watch = some entry →
      ∀ key ∈ entry.monitors, ∃ monitor, scene.monitors.get? key = some monitor
  attached :
    ∀ watch entry, scene.watches.get? watch = some entry →
      ∀ attachment ∈ entry.attachments, attachment.monitor ∈ entry.monitors
  covered :
    ∀ watch key generation, scene.owns watch ⟨key, generation⟩ →
      ∃ monitor, scene.monitors.get? key = some monitor ∧
        generation ≤ monitor.slot.generation ∧
        (generation = monitor.slot.generation → monitor.slot.listener = some (.watch watch))

namespace Fenced

theorem empty (tree : Tree) (viewport : Viewport) :
    ({ Scene.empty viewport with tree } : Scene).Fenced :=
  ⟨fun _ _ found => (by cases found), fun _ _ found => (by cases found),
    fun _ _ _ owned => (by cases owned)⟩

/-- Slots stay as they are, and watches too. -/
theorem transfer
    (fenced : scene.Fenced)
    (watches : after.watches = scene.watches)
    (slots :
      ∀ key monitor, scene.monitors.get? key = some monitor →
        ∃ now, after.monitors.get? key = some now ∧ now.slot = monitor.slot) :
    after.Fenced := by
  refine ⟨?_, by rw [watches]; exact fenced.attached, ?_⟩
  · intro watch entry found key member
    rw [watches] at found
    obtain ⟨monitor, there⟩ := fenced.known watch entry found key member
    obtain ⟨now, here, _⟩ := slots key monitor there
    exact ⟨now, here⟩
  · intro watch key generation owned
    rw [owns_congr (congrArg (Table.get? · watch) watches)] at owned
    obtain ⟨monitor, there, covered⟩ := fenced.covered watch key generation owned
    obtain ⟨now, here, same⟩ := slots key monitor there
    exact ⟨now, here, by rwa [same]⟩

theorem grow (fenced : scene.Fenced) (grows : scene.Grows after) : after.Fenced :=
  fenced.transfer grows.watches fun key monitor found =>
    ⟨monitor, grows.monitors key monitor found, rfl⟩

theorem store
    {judge : Source → Bool}
    {keys : List MonitorId}
    (fenced : scene.Fenced)
    (watches : after.watches = scene.watches)
    (monitors : after.monitors = (scene.store judge keys).monitors) :
    after.Fenced := by
  refine fenced.transfer watches ?_
  intro key monitor found
  rw [monitors, get?_store, found]
  split
  · exact ⟨_, rfl, rfl⟩
  · exact ⟨monitor, rfl, rfl⟩

theorem addWatch
    {keys : List MonitorId}
    (fenced : scene.Fenced)
    (context : Context)
    (known : ∀ key ∈ keys, ∃ monitor, scene.monitors.get? key = some monitor) :
    (scene.addWatch context keys).Fenced := by
  refine ⟨?_, ?_, ?_⟩
  · intro watch entry found
    rcases Table.get?_push_eq_some_iff.mp found with old | ⟨_, rfl⟩
    · exact fenced.known watch entry old
    · exact known
  · intro watch entry found
    rcases Table.get?_push_eq_some_iff.mp found with old | ⟨_, rfl⟩
    · exact fenced.attached watch entry old
    · intro attachment member
      cases member
  · intro watch key generation owned
    rw [owns_addWatch] at owned
    exact fenced.covered watch key generation owned

/-- A monitor tells the watch that can undo the latest attachment to it. -/
theorem tells
    (fenced : scene.Fenced)
    (found : scene.monitors.get? key = some monitor)
    (owned : scene.owns watch ⟨key, monitor.slot.generation⟩) :
    monitor.slot.listener = some (.watch watch) := by
  obtain ⟨same, there, _, listens⟩ := fenced.covered watch key monitor.slot.generation owned
  cases found.symm.trans there
  exact listens rfl

theorem owns_iff_listener
    (fenced : scene.Fenced)
    (leased : scene.Leased)
    (found : scene.monitors.get? key = some monitor) :
    scene.owns watch ⟨key, monitor.slot.generation⟩ ↔
      monitor.slot.listener = some (.watch watch) :=
  ⟨fenced.tells found, leased.owned key monitor watch found⟩

/-- Two watches do not own the latest attachment to a monitor. -/
theorem alone
    (fenced : scene.Fenced)
    (found : scene.monitors.get? key = some monitor)
    (owned : scene.owns watch ⟨key, monitor.slot.generation⟩)
    (ownedToo : scene.owns other ⟨key, monitor.slot.generation⟩) :
    watch = other := by
  cases (fenced.tells found owned).symm.trans (fenced.tells found ownedToo)
  rfl

theorem silence (fenced : scene.Fenced) (silences : scene.Silences after watch) :
    after.Fenced := by
  refine ⟨?_, ?_, ?_⟩
  · intro other entry found key member
    obtain ⟨was, there, same, _⟩ := silences.ages other entry found
    obtain ⟨monitor, here⟩ := fenced.known other was there key (same ▸ member)
    exact ⟨_, (silences.monitors key).trans (congrArg _ here)⟩
  · intro other entry found attachment member
    by_cases same : other = watch
    · subst same
      rw [Watch.attachments, (silences.own entry found).1] at member
      cases member
    · exact fenced.attached other entry ((silences.others other same).symm.trans found)
        attachment member
  · intro other key generation owned
    obtain ⟨different, owned⟩ := silences.owns_iff.mp owned
    obtain ⟨monitor, there, below, listens⟩ := fenced.covered other key generation owned
    refine ⟨_, (silences.monitors key).trans (congrArg _ there), ?_⟩
    dsimp only
    split
    · next latest =>
        refine ⟨below, fun same => ?_⟩
        exact (different (fenced.alone there (same ▸ owned) latest)).elim
    · exact ⟨below, listens⟩

theorem listen
    (fenced : scene.Fenced)
    (found : scene.watches.get? watch = some entry)
    (listens : scene.Listens after watch entry audience) :
    after.Fenced := by
  refine ⟨?_, ?_, ?_⟩
  · intro other known now key member
    obtain ⟨was, there, same, _⟩ := listens.ages found other known now
    obtain ⟨monitor, here⟩ := fenced.known other was there key (same ▸ member)
    exact ⟨_, (listens.monitors key).trans (congrArg _ here)⟩
  · intro other known now attachment member
    by_cases same : other = watch
    · subst same
      obtain ⟨subscriptions, there, mine, _⟩ := listens.own
      cases there.symm.trans now
      exact mine attachment member
    · exact fenced.attached other known ((listens.others other same).symm.trans now)
        attachment member
  · intro other key generation owned
    by_cases same : other = watch
    · subst same
      have mine : key ∈ entry.monitors := listens.mem_monitors owned
      obtain ⟨monitor, there⟩ := fenced.known other entry found key mine
      refine ⟨_, (listens.monitors key).trans (congrArg _ there), ?_⟩
      dsimp only
      rw [if_pos mine]
      exact ⟨((listens.owns_self there).mp owned).2, fun _ => rfl⟩
    · rw [listens.owns_other same] at owned
      obtain ⟨monitor, there, below, tells⟩ := fenced.covered other key generation owned
      refine ⟨_, (listens.monitors key).trans (congrArg _ there), ?_⟩
      dsimp only
      split
      · next mine =>
          have positive : 0 < entry.monitors.count key := List.count_pos_iff.mpr mine
          dsimp only
          refine ⟨by omega, fun same => by omega⟩
      · split
        · next latest =>
            refine ⟨below, fun equal => ?_⟩
            exact (same (fenced.alone there (equal ▸ owned) latest)).elim
        · exact ⟨below, tells⟩

/-- Whom a monitor tells after a watch went silent. -/
theorem listener?_silence
    (fenced : scene.Fenced)
    (leased : scene.Leased)
    (silences : scene.Silences after watch)
    (key : MonitorId) :
    after.listener? key =
      if scene.listener? key = some (.watch watch) then none else scene.listener? key := by
  cases found : scene.monitors.get? key with
  | none => simp [listener?, silences.monitors, found]
  | some monitor =>
      simp only [listener?, silences.monitors, found, Option.map_some, Option.bind_some,
        fenced.owns_iff_listener leased found]
      split <;> rfl

/-- A monitor tells a watch only if the watch has asked for it. -/
theorem mem_of_listener?
    (fenced : scene.Fenced)
    (leased : scene.Leased)
    (found : scene.watches.get? watch = some entry)
    (listens : scene.listener? key = some (.watch watch)) :
    key ∈ entry.monitors := by
  obtain ⟨monitor, there, tells⟩ := Option.bind_eq_some_iff.mp listens
  obtain ⟨known, isKnown, member⟩ := owns_iff.mp (leased.owned key monitor watch there tells)
  cases found.symm.trans isKnown
  exact fenced.attached watch entry found _ member

/-- Whom a monitor tells after a watch began to listen. -/
theorem listener?_listen
    (fenced : scene.Fenced)
    (leased : scene.Leased)
    (found : scene.watches.get? watch = some entry)
    (listens : scene.Listens after watch entry audience)
    (key : MonitorId) :
    after.listener? key =
      if key ∈ entry.monitors then some (.watch watch) else scene.listener? key := by
  cases there : scene.monitors.get? key with
  | none =>
      have foreign : key ∉ entry.monitors := by
        intro mine
        obtain ⟨_, here⟩ := fenced.known watch entry found key mine
        cases there.symm.trans here
      simp [listener?, listens.monitors, there, foreign]
  | some monitor =>
      split
      · next mine => simp [listener?, listens.monitors, there, mine]
      · next foreign =>
          have other : ¬ scene.owns watch ⟨key, monitor.slot.generation⟩ := by
            rw [fenced.owns_iff_listener leased there]
            intro tells
            exact foreign (fenced.mem_of_listener? leased found (by simp [listener?, there, tells]))
          simp [listener?, listens.monitors, there, foreign, other]

end Fenced

end Scene

end Hydration
