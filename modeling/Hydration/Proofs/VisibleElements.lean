import Hydration.Proofs.Watching.Living
import Mathlib.Data.List.Dedup
import Mathlib.Data.List.Perm.Subperm
import Mathlib.Data.List.ReduceOption

/-!
# Visibility is a map of all elements

Entries of elements are forgotten, by whatever the host does next, once they are
hidden and nobody watches them any more, and are made again when they are needed.
Nobody can tell: each element looks as it was reported last, and every monitor that
is kept follows its element for as long as it is kept.  The entries that are there
after a report are all of use.
-/

namespace Hydration

namespace Scene

/-- What the host does with the visibility of elements. -/
inductive Sight where
  | report (element : ElementId) (visible : Bool)
  /-- Makes a monitor of an element and keeps it, if the query can be read. -/
  | watch (element : ElementId) (query : String)
  /-- Drops a monitor; `handle` counts those that were made before it. -/
  | drop (handle : Nat)

/-- The scene after the host has done something. -/
def sighted (scene : Scene) : Sight → Scene
  | .report element visible => (scene.reveal [] element visible).1
  | .watch element query =>
      match scene.make [] .visible element query with
      | (after, .error _) => after
      | (after, .ok key) => after.hold key
  | .drop handle => scene.unhold handle

/-- The scene after the host has done one thing after the other, the latest of them first. -/
def sightedAll (scene : Scene) : List Sight → Scene
  | [] => scene
  | sight :: earlier => (scene.sightedAll earlier).sighted sight

/-- Whether an element was last reported visible. -/
def lastReport (element : ElementId) : List Sight → Bool
  | [] => false
  | .report reported visible :: earlier =>
      if element = reported then visible else lastReport element earlier
  | .watch _ _ :: earlier => lastReport element earlier
  | .drop _ :: earlier => lastReport element earlier

/-- What the monitors that were made ask for, oldest first, and nothing for those dropped. -/
def asked : List Sight → List (Option (ElementId × Bool))
  | [] => []
  | .report _ _ :: earlier => asked earlier
  | .watch element query :: earlier =>
      match Source.readVisibility query with
      | .error _ => asked earlier
      | .ok wanted => asked earlier ++ [some (element, wanted)]
  | .drop handle :: earlier => (asked earlier).modify handle fun _ => none

/-- The elements that were last reported visible, each once. -/
def shown (sights : List Sight) : List ElementId :=
  (sights.filterMap fun sight =>
    match sight with
    | .report element _ => some element
    | _ => none).dedup.filter fun element => lastReport element sights

/-- Whether something forgets the entries that are of no use: reports and monitors that are made. -/
def Sight.tidies : Sight → Bool
  | report _ _ => true
  | watch _ query => (Source.readVisibility query).toOption.isSome
  | drop _ => false

/-- What a monitor of an element asks for. -/
def asks? (scene : Scene) (key : MonitorId) : Option (ElementId × Bool) :=
  (scene.monitors.get? key).bind fun monitor =>
    match monitor.source with
    | .visible element wanted => some (element, wanted)
    | _ => none

variable {scene after : Scene} {key : MonitorId} {element : ElementId} {sights : List Sight}

theorem asks?_eq_some {wanted : Bool} :
    scene.asks? key = some (element, wanted) ↔
      ∃ monitor, scene.monitors.get? key = some monitor ∧
        monitor.source = .visible element wanted := by
  unfold asks?
  rw [Option.bind_eq_some_iff]
  refine exists_congr fun monitor => and_congr_right fun _ => ?_
  cases monitor.source <;> simp

theorem asks?_store (judge : Source → Bool) (keys : List MonitorId) (key : MonitorId) :
    (scene.store judge keys).asks? key = scene.asks? key := by
  simp only [asks?, get?_store]
  split
  · cases scene.monitors.get? key <;> rfl
  · rfl

/-- An element that was last reported visible is among those shown. -/
theorem mem_shown : element ∈ shown sights ↔ lastReport element sights = true := by
  unfold shown
  rw [List.mem_filter, List.mem_dedup, and_iff_right_iff_imp]
  induction sights with
  | nil =>
      intro visible
      cases visible
  | cons sight earlier inductionHypothesis =>
      intro visible
      cases sight with
      | report reported visible' =>
          rw [lastReport] at visible
          split at visible
          · next same => simp [same]
          · exact List.mem_cons_of_mem _ (inductionHypothesis visible)
      | watch | drop => exact inductionHypothesis visible

/-- A monitor whose query can be read is made and kept after useless entries were forgotten. -/
theorem Tracks.sighted_watch
    {kept : MonitorId → Prop}
    {query : String}
    {wanted : Bool}
    (tracks : scene.Tracks kept)
    (alive : ∀ key, kept key → scene.isAlive [] key)
    (element : ElementId)
    (read : Source.readVisibility query = .ok wanted) :
    ∃ made, scene.sighted (.watch element query) = made.hold scene.monitors.size ∧
      scene.Grows made ∧ (made.Tracks fun key => kept key ∨ key = scene.monitors.size) ∧
      made.asks? scene.monitors.size = some (element, wanted) ∧
      made.visibility =
        (scene.visibility.prune (scene.isAlive [])).watch element scene.monitors.size := by
  obtain ⟨grows, tracks⟩ := tracks.addVisible alive element wanted
  refine ⟨_, ?_, grows, tracks, ?_, rfl⟩
  · simp only [sighted, make, read]
  · rw [asks?_eq_some]
    exact ⟨_, (Table.get?_push _ _ _).trans (if_pos rfl), rfl⟩

/-- Elements look as they were reported last, and the monitors that are kept follow theirs. -/
structure Mirrors (scene : Scene) (sights : List Sight) : Prop where
  tracks : scene.Tracks fun key => scene.isAlive [] key
  seen : ∀ element, scene.isVisible element = lastReport element sights
  unwatched : scene.watches = Table.empty
  held : scene.held.entries.map (·.bind scene.asks?) = asked sights
  known : ∀ key, some key ∈ scene.held.entries → ∃ element wanted,
    scene.asks? key = some (element, wanted)

namespace Mirrors

theorem isAlive_iff (mirrors : scene.Mirrors sights) :
    scene.isAlive [] key ↔ some key ∈ scene.held.entries := by
  rw [Scene.isAlive_iff]
  have unwatched : ¬ scene.Watched key := by
    rintro ⟨watch, entry, found, _⟩
    rw [mirrors.unwatched] at found
    cases found
  simp [unwatched]

/-- What was asked under a handle is what the monitor asks for that is kept under it. -/
theorem asked_eq
    {handle : Nat}
    (mirrors : scene.Mirrors sights)
    (kept : scene.held.get? handle = some (some key)) :
    (asked sights)[handle]? = some (scene.asks? key) := by
  have found : scene.held.entries[handle]? = some (some key) := kept
  rw [← mirrors.held, List.getElem?_map, found]
  rfl

/-- Among the monitors that are kept, those of an element are its watchers. -/
theorem mem_watchers_iff
    (mirrors : scene.Mirrors sights)
    (kept : some key ∈ scene.held.entries) :
    key ∈ scene.visibility.watchers element ↔
      ∃ wanted, scene.asks? key = some (element, wanted) := by
  constructor
  · intro member
    obtain ⟨monitor, wanted, found, asks⟩ := mirrors.tracks.listed element key member
    exact ⟨wanted, asks?_eq_some.mpr ⟨monitor, found, asks⟩⟩
  · rintro ⟨wanted, asks⟩
    obtain ⟨monitor, found, source⟩ := asks?_eq_some.mp asks
    exact mirrors.tracks.watched key monitor (mirrors.isAlive_iff.mpr kept) found element wanted
      source

/-- A monitor that is kept has the value that its element was reported with. -/
theorem current
    {wanted : Bool}
    (mirrors : scene.Mirrors sights)
    (kept : some key ∈ scene.held.entries)
    (asks : scene.asks? key = some (element, wanted)) :
    ∃ monitor, scene.monitors.get? key = some monitor ∧
      monitor.source = .visible element wanted ∧
      monitor.value = (lastReport element sights == wanted) := by
  obtain ⟨monitor, found, source⟩ := asks?_eq_some.mp asks
  refine ⟨monitor, found, source, ?_⟩
  rw [← mirrors.seen]
  exact mirrors.tracks.current key monitor (mirrors.isAlive_iff.mpr kept) found _
    (by rw [source]; rfl)

/-- The values of the monitors that are kept are those of their elements. -/
theorem heldValues (mirrors : scene.Mirrors sights) :
    scene.heldValues =
      (asked sights).map (·.map fun ask => lastReport ask.1 sights == ask.2) := by
  rw [Scene.heldValues, ← mirrors.held, List.map_map]
  refine List.map_congr_left fun kept member => ?_
  cases kept with
  | none => rfl
  | some key =>
      obtain ⟨element, wanted, asks⟩ := mirrors.known key member
      obtain ⟨monitor, found, _, value⟩ := mirrors.current member asks
      simp [asks, Scene.value, found, value]

/-- A report reaches the monitors of the element that are kept, if it brings anything new. -/
theorem mem_reveal_iff
    {handle : Nat}
    (mirrors : scene.Mirrors sights)
    (kept : scene.held.get? handle = some (some key))
    (element : ElementId)
    (visible : Bool) :
    key ∈ (scene.reveal [] element visible).2 ↔
      ∃ wanted, (asked sights)[handle]? = some (some (element, wanted)) ∧
        lastReport element sights ≠ visible := by
  have member : some key ∈ scene.held.entries := List.mem_of_getElem? kept
  have flipped : (scene.reveal [] element visible).2 =
      scene.flipped (judgeVisible visible)
        (((scene.visibility.set element visible).watchers element).filter (scene.isAlive [])) :=
    rfl
  rw [flipped, Scene.flipped, List.mem_filter, List.mem_filter, Visibility.watchers_set,
    mirrors.mem_watchers_iff member, mirrors.asked_eq kept]
  constructor
  · rintro ⟨⟨⟨wanted, asks⟩, _⟩, differs⟩
    refine ⟨wanted, congrArg some asks, ?_⟩
    obtain ⟨monitor, found, source, value⟩ := mirrors.current member asks
    rintro rfl
    rw [found, Option.any_some, source, judgeVisible, value, Bool.beq_comm] at differs
    simp at differs
  · rintro ⟨wanted, same, differs⟩
    have asks := Option.some.inj same
    obtain ⟨monitor, found, source, value⟩ := mirrors.current member asks
    refine ⟨⟨⟨wanted, asks⟩, mirrors.isAlive_iff.mpr member⟩, ?_⟩
    rw [found, Option.any_some, source, judgeVisible, value]
    revert differs
    cases lastReport element sights <;> cases visible <;> cases wanted <;> simp

theorem report (mirrors : scene.Mirrors sights) (element : ElementId) (visible : Bool) :
    (scene.sighted (.report element visible)).Mirrors (.report element visible :: sights) := by
  have asks : (scene.reveal [] element visible).1.asks? = scene.asks? :=
    funext fun key => asks?_store _ _ key
  refine ⟨mirrors.tracks.reveal (fun _ => id) element visible, fun other => ?_,
    mirrors.unwatched, ?_, ?_⟩
  · rw [lastReport, ← mirrors.seen]
    exact isVisible_reveal mirrors.tracks.distinct [] element other visible
  · rw [sighted, asks]
    exact mirrors.held
  · rw [sighted, asks]
    exact mirrors.known

theorem drop (mirrors : scene.Mirrors sights) (handle : Nat) :
    (scene.sighted (.drop handle)).Mirrors (.drop handle :: sights) := by
  have fewer : ∀ key, some key ∈ (scene.unhold handle).held.entries →
      some key ∈ scene.held.entries := by
    intro key member
    have alive : (scene.unhold handle).isAlive [] key := by
      rw [Scene.isAlive_iff]
      exact .inl member
    exact mirrors.isAlive_iff.mp (isAlive_of_unhold alive)
  refine ⟨?_, mirrors.seen, mirrors.unwatched, ?_, fun key member =>
    mirrors.known key (fewer key member)⟩
  · have tracks : (scene.unhold handle).Tracks fun key => scene.isAlive [] key :=
      mirrors.tracks.of_eq rfl rfl rfl rfl
    exact tracks.mono fun _ => isAlive_of_unhold
  · rw [asked, ← mirrors.held]
    change (scene.held.entries.modify handle fun _ => none).map (·.bind scene.asks?) =
      (scene.held.entries.map (·.bind scene.asks?)).modify handle fun _ => none
    refine List.ext_getElem? fun position => ?_
    simp only [List.getElem?_map, List.getElem?_modify]
    by_cases here : handle = position
    · cases scene.held.entries[position]? <;> simp [here]
    · cases scene.held.entries[position]? <;> simp [here]

/-- A monitor whose query can be read is one more that is kept; any other query changes nothing. -/
theorem watch (mirrors : scene.Mirrors sights) (element : ElementId) (query : String) :
    (scene.sighted (.watch element query)).Mirrors (.watch element query :: sights) := by
  cases read : Source.readVisibility query with
  | error fault =>
      have unchanged : scene.sighted (.watch element query) = scene := by
        simp only [sighted, make, read]
      have same : asked (.watch element query :: sights) = asked sights := by
        simp only [asked, read]
      rw [unchanged]
      exact ⟨mirrors.tracks, mirrors.seen, mirrors.unwatched, by rw [same]; exact mirrors.held,
        mirrors.known⟩
  | ok wanted =>
      obtain ⟨made, watched, grows, tracks, added, _⟩ :=
        mirrors.tracks.sighted_watch (fun _ => id) element read
      have older : ∀ key, some key ∈ scene.held.entries → made.asks? key = scene.asks? key := by
        intro key member
        obtain ⟨_, _, asks⟩ := mirrors.known key member
        obtain ⟨monitor, found, _⟩ := asks?_eq_some.mp asks
        simp only [asks?, found, grows.monitors key monitor found]
      have entries : (made.hold scene.monitors.size).held.entries =
          scene.held.entries ++ [some scene.monitors.size] := by
        simp only [hold, Table.push, grows.held]
      rw [watched]
      refine ⟨?_, ?_, grows.watches.trans mirrors.unwatched, ?_, ?_⟩
      · have held : (made.hold scene.monitors.size).Tracks fun key =>
            scene.isAlive [] key ∨ key = scene.monitors.size := tracks.of_eq rfl rfl rfl rfl
        refine held.mono fun key isAlive => ?_
        rwa [isAlive_hold, grows.isAlive] at isAlive
      · intro other
        rw [lastReport, ← mirrors.seen]
        exact grows.visible other
      · rw [asked, read, entries, List.map_append, ← mirrors.held]
        have same : (made.hold scene.monitors.size).asks? = made.asks? := rfl
        have before : scene.held.entries.map (·.bind made.asks?) =
            scene.held.entries.map (·.bind scene.asks?) := by
          refine List.map_congr_left fun kept member => ?_
          cases kept with
          | none => rfl
          | some key => exact older key member
        have newest : [some scene.monitors.size].map (·.bind made.asks?) =
            [some (element, wanted)] := congrArg (fun ask => [ask]) added
        rw [same, before, newest]
      · intro key member
        rw [entries, List.mem_append, List.mem_singleton] at member
        rcases member with old | new
        · obtain ⟨element, wanted, asks⟩ := mirrors.known key old
          exact ⟨element, wanted, (older key old).trans asks⟩
        · cases new
          exact ⟨element, wanted, added⟩

theorem sighted (mirrors : scene.Mirrors sights) (sight : Sight) :
    (scene.sighted sight).Mirrors (sight :: sights) := by
  cases sight with
  | report element visible => exact mirrors.report element visible
  | watch element query => exact mirrors.watch element query
  | drop handle => exact mirrors.drop handle

/-- From the beginning on elements look as they were reported last. -/
theorem sightedAll (tree : Tree) (viewport : Viewport) (sights : List Sight) :
    (({ Scene.empty viewport with tree } : Scene).sightedAll sights).Mirrors sights := by
  induction sights with
  | nil =>
      exact ⟨.empty tree viewport, fun _ => rfl, rfl, rfl, fun _ member => (by cases member)⟩
  | cons sight earlier inductionHypothesis => exact inductionHypothesis.sighted sight

/-- After useless entries were forgotten each entry is visible or has a watcher that is kept. -/
theorem tidied
    {sight : Sight}
    {entry : VisibilityEntry}
    (mirrors : scene.Mirrors sights)
    (tidies : sight.tidies)
    (member : entry ∈ (scene.sighted sight).visibility.entries) :
    entry.visible ∨ ∃ key ∈ entry.watchers, (scene.sighted sight).isAlive [] key := by
  have of_prune {alive : MonitorId → Bool} {visibility : Visibility}
      (same : ∀ key, alive key → (scene.sighted sight).isAlive [] key)
      (pruned : entry ∈ (visibility.prune alive).entries) :
      entry.visible ∨ ∃ key ∈ entry.watchers, (scene.sighted sight).isAlive [] key := by
    obtain ⟨useful, living⟩ := Visibility.mem_prune pruned
    refine useful.imp_right fun watchers => ?_
    obtain ⟨key, watches⟩ := List.exists_mem_of_ne_nil _ watchers
    exact ⟨key, watches, same key (living key watches)⟩
  cases sight with
  | report element visible => exact of_prune (fun _ => id) member
  | drop => cases tidies
  | watch element query =>
      obtain ⟨wanted, read⟩ : ∃ wanted, Source.readVisibility query = .ok wanted := by
        cases read : Source.readVisibility query with
        | error =>
            rw [Sight.tidies, read] at tidies
            cases tidies
        | ok wanted => exact ⟨wanted, rfl⟩
      obtain ⟨made, watched, grows, _, _, visibility⟩ :=
        mirrors.tracks.sighted_watch (fun _ => id) element read
      have alive (key : MonitorId) :
          (scene.sighted (.watch element query)).isAlive [] key ↔
            scene.isAlive [] key ∨ key = scene.monitors.size := by
        rw [watched, isAlive_hold, grows.isAlive]
      have among : entry ∈ made.visibility.entries := by
        rw [watched] at member
        exact member
      rw [visibility] at among
      rcases Visibility.mem_watch among with pruned | newest
      · exact of_prune (fun key living => (alive key).mpr (.inl living)) pruned
      · exact .inr ⟨_, newest, (alive _).mpr (.inr rfl)⟩

/-- An entry tells what its element was reported as, and its watchers ask for this element. -/
theorem useful
    {entry : VisibilityEntry}
    (mirrors : scene.Mirrors sights)
    (member : entry ∈ scene.visibility.entries)
    (useful : entry.visible ∨ ∃ key ∈ entry.watchers, scene.isAlive [] key) :
    lastReport entry.element sights = true ∨
      ∃ wanted, some (entry.element, wanted) ∈ asked sights := by
  have found := Visibility.entry?_of_mem mirrors.tracks.distinct member
  rcases useful with visible | ⟨key, watches, alive⟩
  · left
    rw [← mirrors.seen, isVisible, Visibility.isVisible, found]
    exact visible
  · right
    have watching : key ∈ scene.visibility.watchers entry.element := by
      rw [Visibility.watchers, found]
      exact watches
    have kept := mirrors.isAlive_iff.mp alive
    obtain ⟨wanted, asks⟩ := (mirrors.mem_watchers_iff kept).mp watching
    refine ⟨wanted, ?_⟩
    rw [← mirrors.held, ← asks]
    exact List.mem_map.mpr ⟨some key, kept, rfl⟩

/-- Entries that are all useful are no more than visible elements and monitors together. -/
theorem tracked_le
    (mirrors : scene.Mirrors sights)
    (useful :
      ∀ entry ∈ scene.visibility.entries,
        lastReport entry.element sights = true ∨
          ∃ wanted, some (entry.element, wanted) ∈ asked sights) :
    scene.visibility.tracked ≤ (shown sights).length + (asked sights).reduceOption.length := by
  have among : scene.visibility.entries.map VisibilityEntry.element ⊆
      shown sights ++ (asked sights).reduceOption.map Prod.fst := by
    intro element member
    obtain ⟨entry, there, rfl⟩ := List.mem_map.mp member
    rw [List.mem_append]
    refine (useful entry there).imp mem_shown.mpr ?_
    rintro ⟨wanted, asks⟩
    exact List.mem_map.mpr ⟨_, List.reduceOption_mem_iff.mpr asks, rfl⟩
  have few := (List.Nodup.subperm mirrors.tracks.distinct among).length_le
  simpa [Visibility.tracked] using few

end Mirrors

/--
The host reports elements visible and hidden, makes monitors of elements with
readable and unreadable queries, and drops monitors, in any order.  Each element looks
as it was reported last, and hidden if it never was.  No element has two entries, and
an unreadable query changes nothing.  The monitors that are kept have the values that
their elements were reported with, and a further report tells exactly those of its
element, if it brings anything new.  After a report or a monitor that was made every
entry is of a visible element or of one with a monitor that is kept, so there are no
more entries than visible elements and monitors together.
-/
theorem visibility_refines_reports (tree : Tree) (viewport : Viewport) (sights : List Sight) :
    let scene := ({ Scene.empty viewport with tree } : Scene).sightedAll sights
    (∀ element, scene.isVisible element = lastReport element sights) ∧
      scene.visibility.Distinct ∧
      (∀ element query fault, Source.readVisibility query = .error fault →
        scene.sighted (.watch element query) = scene) ∧
      (scene.heldValues =
        (asked sights).map (·.map fun ask => lastReport ask.1 sights == ask.2)) ∧
      (∀ handle key, scene.held.get? handle = some (some key) →
        ∀ element visible,
          key ∈ (scene.reveal [] element visible).2 ↔
            ∃ wanted, (asked sights)[handle]? = some (some (element, wanted)) ∧
              lastReport element sights ≠ visible) ∧
      ∀ sight : Sight, sight.tidies →
        let after := scene.sighted sight
        (∀ entry ∈ after.visibility.entries,
          lastReport entry.element (sight :: sights) = true ∨
            ∃ wanted, some (entry.element, wanted) ∈ asked (sight :: sights)) ∧
          after.visibility.tracked ≤
            (shown (sight :: sights)).length + (asked (sight :: sights)).reduceOption.length := by
  intro scene
  have mirrors : scene.Mirrors sights := .sightedAll tree viewport sights
  refine ⟨mirrors.seen, mirrors.tracks.distinct, ?_, mirrors.heldValues,
    fun handle key kept => mirrors.mem_reveal_iff kept, ?_⟩
  · intro element query fault unread
    simp only [sighted, make, unread]
  · intro sight tidies after
    have now := mirrors.sighted sight
    have useful (entry : VisibilityEntry) (member : entry ∈ after.visibility.entries) :=
      now.useful member (mirrors.tidied tidies member)
    exact ⟨useful, now.tracked_le useful⟩

/-- A hidden element whose monitor was dropped is forgotten when another one is reported. -/
example :
    (({ Scene.empty .standard with tree := Tree.empty } : Scene).sightedAll
      [.report 1 true, .drop 0, .watch 0 "false"]).visibility.entries = [⟨1, true, []⟩] := by
  decide +kernel

end Scene

end Hydration
