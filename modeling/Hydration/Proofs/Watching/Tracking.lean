import Hydration.Proofs.Visibility
import Hydration.Scene

/-!
# Monitors track the scene

A monitor that is kept has the value that its source has right now, and a
monitor of an element is among the watchers of that element.  Changing the
viewport or showing an element refreshes exactly the monitors whose source
depends on it, and reports those among them that flipped.
-/

namespace Hydration

namespace Scene

/-- What a source says right now; nothing if it follows the host alone. -/
def verdict? (scene : Scene) : Source → Option Bool
  | .media query => some (query.holds scene.viewport)
  | .visible element wanted => some (scene.isVisible element == wanted)
  | .host => none

/-- The monitors with a property are up to date, and will be brought up to date. -/
structure Tracks (scene : Scene) (kept : MonitorId → Prop) : Prop where
  current :
    ∀ key monitor, kept key → scene.monitors.get? key = some monitor →
      ∀ verdict, scene.verdict? monitor.source = some verdict → monitor.value = verdict
  watched :
    ∀ key monitor, kept key → scene.monitors.get? key = some monitor →
      ∀ element wanted, monitor.source = .visible element wanted →
        key ∈ scene.visibility.watchers element
  listed :
    ∀ element, ∀ key ∈ scene.visibility.watchers element,
      ∃ monitor wanted,
        scene.monitors.get? key = some monitor ∧ monitor.source = .visible element wanted
  distinct : scene.visibility.Distinct
  single : ∀ element, (scene.visibility.watchers element).Nodup
  toggles :
    ∀ name key, Text.valueOf? name scene.toggles = some key →
      ∃ monitor, scene.monitors.get? key = some monitor ∧ monitor.source = .host
  /-- No two toggles have the same monitor. -/
  unshared :
    ∀ name other key, Text.valueOf? name scene.toggles = some key →
      Text.valueOf? other scene.toggles = some key → name = other

variable {scene : Scene} {kept : MonitorId → Prop} {key : MonitorId}

theorem Tracks.mono
    {fewer : MonitorId → Prop}
    (tracks : scene.Tracks kept)
    (among : ∀ key, fewer key → kept key) :
    scene.Tracks fewer :=
  ⟨fun key monitor isKept => tracks.current key monitor (among key isKept),
    fun key monitor isKept => tracks.watched key monitor (among key isKept),
    tracks.listed, tracks.distinct, tracks.single, tracks.toggles, tracks.unshared⟩

/-- Where there are no monitors they are all up to date. -/
theorem Tracks.empty (tree : Tree) (viewport : Viewport) :
    ({ Scene.empty viewport with tree } : Scene).Tracks kept :=
  ⟨fun _ _ _ found => (by cases found), fun _ _ _ found => (by cases found),
    fun _ _ member => (by cases member), List.nodup_nil, fun _ => List.nodup_nil,
    fun _ _ named => (by cases named), fun _ _ _ named => (by cases named)⟩

/-- Storing gives the monitors in question the value of their source, and no other. -/
theorem get?_store (judge : Source → Bool) (keys : List MonitorId) (key : MonitorId) :
    (scene.store judge keys).monitors.get? key =
      if key ∈ keys then
        (scene.monitors.get? key).map fun monitor =>
          { monitor with value := judge monitor.source }
      else scene.monitors.get? key := by
  simp only [store]
  generalize scene.monitors = monitors
  induction keys generalizing monitors with
  | nil => simp
  | cons first rest inductionHypothesis =>
      rw [List.foldl_cons, inductionHypothesis, Table.get?_modify]
      by_cases here : key = first
      · subst here
        by_cases again : key ∈ rest <;> simp [again, Function.comp_def]
      · simp [here]

/-- What the monitor under a key follows. -/
def source? (scene : Scene) (key : MonitorId) : Option Source :=
  (scene.monitors.get? key).map Monitor.source

/-- Monitors follow what they did, whatever values they are given. -/
theorem source?_store (judge : Source → Bool) (keys : List MonitorId) (key : MonitorId) :
    (scene.store judge keys).source? key = scene.source? key := by
  rw [source?, source?, get?_store]
  split
  · rw [Option.map_map]
    rfl
  · rfl

/-- What is reported as flipped is all that has changed. -/
theorem mem_flipped_of_value_ne
    {judge : Source → Bool}
    {keys : List MonitorId}
    (differs : (scene.store judge keys).value key ≠ scene.value key) :
    key ∈ scene.flipped judge keys := by
  unfold value at differs
  rw [get?_store] at differs
  split at differs
  · next member =>
      refine List.mem_filter.mpr ⟨member, ?_⟩
      cases found : scene.monitors.get? key with
      | none => simp [found] at differs
      | some monitor =>
          simp only [found, Option.map_some, Option.getD_some] at differs
          simpa using Ne.symm differs
  · exact (differs rfl).elim

/-- Bringing the right monitors up to date keeps all of them up to date. -/
theorem Tracks.refresh
    {after : Scene}
    {judge : Source → Bool}
    {keys : List MonitorId}
    (tracks : scene.Tracks kept)
    (monitors : after.monitors = (scene.store judge keys).monitors)
    (judged :
      ∀ key ∈ keys, ∀ monitor, scene.monitors.get? key = some monitor →
        ∀ verdict, after.verdict? monitor.source = some verdict →
          judge monitor.source = verdict)
    (left :
      ∀ key ∉ keys, kept key → ∀ monitor, scene.monitors.get? key = some monitor →
        ∀ verdict, after.verdict? monitor.source = some verdict →
          scene.verdict? monitor.source = some verdict)
    (watched :
      ∀ key, kept key → ∀ element, key ∈ scene.visibility.watchers element →
        key ∈ after.visibility.watchers element)
    (listed :
      ∀ element, ∀ key ∈ after.visibility.watchers element,
        key ∈ scene.visibility.watchers element)
    (distinct : after.visibility.Distinct)
    (single : ∀ element, (after.visibility.watchers element).Nodup)
    (toggles : after.toggles = scene.toggles) :
    after.Tracks kept := by
  have found (key : MonitorId) :
      after.monitors.get? key =
        if key ∈ keys then
          (scene.monitors.get? key).map fun monitor =>
            { monitor with value := judge monitor.source }
        else scene.monitors.get? key := by
    rw [monitors, get?_store]
  -- A monitor has changed in its value only.
  have earlier {key : MonitorId} {monitor : Monitor}
      (now : after.monitors.get? key = some monitor) :
      ∃ before, scene.monitors.get? key = some before ∧ before.source = monitor.source ∧
        (key ∈ keys ∧ monitor.value = judge before.source ∨ key ∉ keys ∧ before = monitor) := by
    rw [found] at now
    split at now
    · next member =>
        obtain ⟨before, was, rfl⟩ := Option.map_eq_some_iff.mp now
        exact ⟨before, was, rfl, .inl ⟨member, rfl⟩⟩
    · next absent => exact ⟨monitor, now, rfl, .inr ⟨absent, rfl⟩⟩
  -- Its source is the same even if its value is not.
  have later {key : MonitorId} {before : Monitor}
      (was : scene.monitors.get? key = some before) :
      ∃ monitor, after.monitors.get? key = some monitor ∧ monitor.source = before.source := by
    rw [found, was]
    split
    · exact ⟨_, rfl, rfl⟩
    · exact ⟨before, rfl, rfl⟩
  refine ⟨?_, ?_, ?_, distinct, single, ?_, by rw [toggles]; exact tracks.unshared⟩
  · intro key monitor isKept now verdict told
    obtain ⟨before, was, source, ⟨member, value⟩ | ⟨absent, rfl⟩⟩ := earlier now
    · rw [← source] at told
      rw [value]
      exact judged key member before was verdict told
    · exact tracks.current key before isKept was verdict
        (left key absent isKept before was verdict told)
  · intro key monitor isKept now element wanted source
    obtain ⟨before, was, same, _⟩ := earlier now
    exact watched key isKept element
      (tracks.watched key before isKept was element wanted (same.trans source))
  · intro element key member
    obtain ⟨before, wanted, was, source⟩ := tracks.listed element key (listed element key member)
    obtain ⟨monitor, now, same⟩ := later was
    exact ⟨monitor, wanted, now, same.trans source⟩
  · intro name key named
    rw [toggles] at named
    obtain ⟨before, was, source⟩ := tracks.toggles name key named
    obtain ⟨monitor, now, same⟩ := later was
    exact ⟨monitor, now, same.trans source⟩

theorem mem_mediaMonitors {pinned : List MonitorId} :
    key ∈ scene.mediaMonitors pinned ↔
      ∃ monitor, scene.monitors.get? key = some monitor ∧ monitor.source.isMedia ∧
        scene.isAlive pinned key := by
  rw [mediaMonitors, Table.mem_keysWhere]
  simp

/-- After a resize every monitor is up to date with the new viewport. -/
theorem Tracks.resize
    (tracks : scene.Tracks kept)
    {pinned : List MonitorId}
    (alive : ∀ key, kept key → scene.isAlive pinned key)
    (viewport : Viewport) :
    (scene.resize pinned viewport).1.Tracks kept := by
  have stored :
      (scene.resize pinned viewport).1.monitors =
        (scene.store (judgeMedia viewport) (scene.mediaMonitors pinned)).monitors := rfl
  refine tracks.refresh stored ?_ ?_ (fun _ _ _ => id) (fun _ _ => id) tracks.distinct
    tracks.single rfl
  · intro key member monitor found verdict told
    obtain ⟨_, was, media, _⟩ := mem_mediaMonitors.mp member
    cases found.symm.trans was
    cases source : monitor.source with
    | media query =>
        rw [source] at told
        exact Option.some.inj told
    | visible | host => simp [source, Source.isMedia] at media
  · intro key absent isKept monitor found verdict told
    cases source : monitor.source with
    | media query =>
        have media : monitor.source.isMedia := by
          simp [source, Source.isMedia]
        exact (absent (mem_mediaMonitors.mpr ⟨monitor, found, media, alive key isKept⟩)).elim
    | visible element wanted =>
        rw [source] at told
        exact told
    | host =>
        rw [source] at told
        exact told

/-- Showing or hiding an element shows or hides no other. -/
theorem isVisible_reveal
    (distinct : scene.visibility.Distinct)
    (pinned : List MonitorId)
    (element other : ElementId)
    (visible : Bool) :
    (scene.reveal pinned element visible).1.isVisible other =
      if other = element then visible else scene.isVisible other := by
  have visibility :
      (scene.reveal pinned element visible).1.visibility =
        (scene.visibility.set element visible).prune (scene.isAlive pinned) := rfl
  rw [isVisible, visibility,
    Visibility.isVisible_prune (Visibility.distinct_set distinct element visible),
    Visibility.isVisible_set]
  rfl

/-- After an element was shown or hidden every monitor is up to date with it. -/
theorem Tracks.reveal
    (tracks : scene.Tracks kept)
    {pinned : List MonitorId}
    (alive : ∀ key, kept key → scene.isAlive pinned key)
    (element : ElementId)
    (visible : Bool) :
    (scene.reveal pinned element visible).1.Tracks kept := by
  have recorded : (scene.visibility.set element visible).Distinct :=
    Visibility.distinct_set tracks.distinct element visible
  have stored :
      (scene.reveal pinned element visible).1.monitors =
        (scene.store (judgeVisible visible)
          (((scene.visibility.set element visible).watchers element).filter
            (scene.isAlive pinned))).monitors := rfl
  have visibility :
      (scene.reveal pinned element visible).1.visibility =
        (scene.visibility.set element visible).prune (scene.isAlive pinned) := rfl
  have seen (other : ElementId) := isVisible_reveal tracks.distinct pinned element other visible
  have watchers (other : ElementId) :
      (scene.reveal pinned element visible).1.visibility.watchers other =
        (scene.visibility.watchers other).filter (scene.isAlive pinned) := by
    rw [visibility, Visibility.watchers_prune recorded, Visibility.watchers_set]
  refine tracks.refresh stored ?_ ?_ ?_ ?_ ?_ ?_ rfl
  · intro key member monitor found verdict told
    rw [Visibility.watchers_set] at member
    obtain ⟨_, wanted, was, source⟩ := tracks.listed element key (List.mem_filter.mp member).1
    cases found.symm.trans was
    rw [source, verdict?, seen, if_pos rfl] at told
    rw [source, ← Option.some.inj told, judgeVisible]
    exact Bool.beq_comm
  · intro key absent isKept monitor found verdict told
    cases source : monitor.source with
    | media query =>
        rw [source] at told
        exact told
    | visible other wanted =>
        have watching := tracks.watched key monitor isKept found other wanted source
        rw [source, verdict?, seen] at told
        by_cases same : other = element
        · subst same
          apply (absent ?_).elim
          rw [Visibility.watchers_set]
          exact List.mem_filter.mpr ⟨watching, alive key isKept⟩
        · rwa [if_neg same] at told
    | host =>
        rw [source] at told
        exact told
  · intro key isKept other member
    rw [watchers]
    exact List.mem_filter.mpr ⟨member, alive key isKept⟩
  · intro other key member
    rw [watchers] at member
    exact List.mem_of_mem_filter member
  · rw [visibility]
    exact Visibility.distinct_prune recorded _
  · intro other
    rw [watchers]
    exact (tracks.single other).filter _

end Scene

end Hydration
