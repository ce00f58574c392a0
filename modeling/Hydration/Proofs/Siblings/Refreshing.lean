import Hydration.Proofs.Siblings.Alike

/-!
# A change that alike scenes go through together

When the viewport changes, or an element that is not extra is shown or hidden,
scenes that are alike stay alike, and the monitors that flip stand for each other.
-/

namespace Hydration

namespace Scene

variable {contrast : Contrast} {links : Links} {scene plain mixed : Scene}
  {pinned plainPinned mixedPinned keys twins : List MonitorId}

/-- While the calls under way pin no monitor that nobody keeps, those that are kept live. -/
theorem isAlive_of_kept (pins : ∀ key ∈ pinned, scene.keeps key) :
    scene.isAlive pinned = scene.keeps := by
  funext key
  rw [isAlive, Bool.or_eq_left_iff_imp]
  intro member
  exact pins key (List.contains_iff_mem.mp member)

theorem size_store (scene : Scene) (judge : Source → Bool) (keys : List MonitorId) :
    (scene.store judge keys).monitors.size = scene.monitors.size := by
  simp only [store]
  generalize scene.monitors = monitors
  induction keys generalizing monitors with
  | nil => rfl
  | cons key rest inductionHypothesis =>
      rw [List.foldl_cons, inductionHypothesis, Table.size_modify]

theorem Tidy.store (tidy : scene.Tidy) (judge : Source → Bool) (keys : List MonitorId) :
    (scene.store judge keys).Tidy := by
  refine ⟨tidy.distinct, fun element key member => ?_⟩
  rw [size_store]
  exact tidy.known element key member

/-- The monitors of the viewport are listed in ascending order. -/
theorem mediaMonitors_ascending (scene : Scene) (pinned : List MonitorId) :
    (scene.mediaMonitors pinned).Pairwise (· < ·) :=
  List.pairwise_lt_range.filter _

namespace Alike

/-- Monitors that stand for each other are brought up to date together. -/
theorem store
    (alike : plain.Alike contrast links mixed)
    (judge : Source → Bool)
    (related : List.Forall₂ links.monitors keys twins) :
    (plain.store judge keys).Alike contrast links (mixed.store judge twins) := by
  refine { alike with
    plainTidy := alike.plainTidy.store judge keys
    mixedTidy := alike.mixedTidy.store judge twins
    monitors := ?_ }
  intro key twin pair
  obtain ⟨monitor, found, foundTwin⟩ := alike.monitors key twin pair
  have same := alike.ordered.mem_iff related pair
  rw [get?_store, get?_store, found, foundTwin]
  by_cases among : key ∈ keys
  · rw [if_pos among, if_pos (same.mpr among)]
    exact ⟨_, rfl, rfl⟩
  · rw [if_neg among, if_neg (among ∘ same.mp)]
    exact ⟨_, rfl, rfl⟩

theorem flipped
    (alike : plain.Alike contrast links mixed)
    (judge : Source → Bool)
    (related : List.Forall₂ links.monitors keys twins) :
    List.Forall₂ links.monitors (plain.flipped judge keys) (mixed.flipped judge twins) := by
  refine List.rel_filter ?_ related
  intro key twin pair
  obtain ⟨monitor, found, foundTwin⟩ := alike.monitors key twin pair
  simp only [found, foundTwin]

theorem mediaMonitors
    (alike : plain.Alike contrast links mixed)
    (plainPins : ∀ key ∈ plainPinned, plain.keeps key)
    (mixedPins : ∀ twin ∈ mixedPinned, mixed.keeps twin) :
    List.Forall₂ links.monitors (plain.mediaMonitors plainPinned)
      (mixed.mediaMonitors mixedPinned) := by
  refine alike.ordered.forall₂ (mediaMonitors_ascending _ _) (mediaMonitors_ascending _ _) ?_ ?_
  · intro key member
    obtain ⟨monitor, found, media, alive⟩ := mem_mediaMonitors.mp member
    rw [isAlive_of_kept plainPins, alike.plainKept] at alive
    obtain ⟨twin, pair⟩ := alive
    obtain ⟨same, known, foundTwin⟩ := alike.monitors key twin pair
    cases found.symm.trans known
    refine ⟨twin, mem_mediaMonitors.mpr ⟨monitor, foundTwin, media, ?_⟩, pair⟩
    rw [isAlive_of_kept mixedPins, alike.mixedKept]
    exact ⟨key, pair⟩
  · intro twin member
    obtain ⟨monitor, found, media, alive⟩ := mem_mediaMonitors.mp member
    rw [isAlive_of_kept mixedPins, alike.mixedKept] at alive
    obtain ⟨key, pair⟩ := alive
    obtain ⟨same, foundKey, known⟩ := alike.monitors key twin pair
    cases found.symm.trans known
    refine ⟨key, mem_mediaMonitors.mpr ⟨monitor, foundKey, media, ?_⟩, pair⟩
    rw [isAlive_of_kept plainPins, alike.plainKept]
    exact ⟨twin, pair⟩

theorem resize
    (alike : plain.Alike contrast links mixed)
    (plainPins : ∀ key ∈ plainPinned, plain.keeps key)
    (mixedPins : ∀ twin ∈ mixedPinned, mixed.keeps twin)
    (viewport : Viewport) :
    (plain.resize plainPinned viewport).1.Alike contrast links
        (mixed.resize mixedPinned viewport).1 ∧
      List.Forall₂ links.monitors (plain.resize plainPinned viewport).2
        (mixed.resize mixedPinned viewport).2 := by
  have related := alike.mediaMonitors plainPins mixedPins
  have stored := alike.store (judgeMedia viewport) related
  refine ⟨?_, alike.flipped _ related⟩
  exact { stored with
    viewport := rfl
    plainTidy := ⟨stored.plainTidy.distinct, stored.plainTidy.known⟩
    mixedTidy := ⟨stored.mixedTidy.distinct, stored.mixedTidy.known⟩ }

/-- What is left of a scene on which an element was shown or hidden is tidy. -/
theorem tidy_reveal
    (tidy : scene.Tidy)
    (pinned : List MonitorId)
    (element : ElementId)
    (visible : Bool) :
    (scene.reveal pinned element visible).1.Tidy := by
  have distinct := Visibility.distinct_set tidy.distinct element visible
  refine ⟨Visibility.distinct_prune distinct _, fun other key member => ?_⟩
  simp only [Scene.reveal, Visibility.watchers_prune distinct, Visibility.watchers_set] at member
  have known := tidy.known other key (List.mem_of_mem_filter member)
  exact Nat.lt_of_lt_of_eq known (size_store _ _ _).symm

theorem reveal
    (alike : plain.Alike contrast links mixed)
    (plainPins : ∀ key ∈ plainPinned, plain.keeps key)
    (mixedPins : ∀ twin ∈ mixedPinned, mixed.keeps twin)
    (element : ElementId)
    (visible : Bool) :
    (plain.reveal plainPinned element visible).1.Alike contrast links
        (mixed.reveal mixedPinned element visible).1 ∧
      List.Forall₂ links.monitors (plain.reveal plainPinned element visible).2
        (mixed.reveal mixedPinned element visible).2 := by
  have watchers (scene : Scene) :
      (scene.visibility.set element visible).watchers = scene.visibility.watchers :=
    funext fun other => Visibility.watchers_set visible
  have related := alike.watchers element
  rw [← isAlive_of_kept plainPins, ← isAlive_of_kept mixedPins, ← watchers plain,
    ← watchers mixed] at related
  have stored := alike.store (judgeVisible visible) related
  refine ⟨?_, alike.flipped _ related⟩
  have plainDistinct := Visibility.distinct_set alike.plainTidy.distinct element visible
  have mixedDistinct := Visibility.distinct_set alike.mixedTidy.distinct element visible
  refine { stored with
    plainTidy := tidy_reveal alike.plainTidy plainPinned element visible
    mixedTidy := tidy_reveal alike.mixedTidy mixedPinned element visible
    seen := fun other => ?_
    watchers := fun other => ?_ }
  · have seen := alike.seen other
    simp only [isVisible] at seen
    simp only [isVisible, Scene.reveal, Visibility.isVisible_prune plainDistinct,
      Visibility.isVisible_prune mixedDistinct, Visibility.isVisible_set, seen]
  · have keeps {scene : Scene} {pinned : List MonitorId} :
        (scene.reveal pinned element visible).1.keeps = scene.keeps := rfl
    rw [keeps, keeps]
    simp only [Scene.reveal, Visibility.watchers_prune plainDistinct,
      Visibility.watchers_prune mixedDistinct, watchers, isAlive_of_kept plainPins,
      isAlive_of_kept mixedPins, List.filter_filter, Bool.and_self]
    exact alike.watchers other

end Alike

end Scene

end Hydration
