import Hydration.Hooks
import Hydration.Proofs.Sharing.Toggle
import Hydration.Proofs.Siblings.Extending
import Hydration.Proofs.Watching.Attaching
import Mathlib.Data.List.Forall2

/-!
# Scenes that are alike

Two scenes are alike if those who are told of changes see the same on both.  The
monitors that watches keep stand for each other in the order in which they were
made; all other monitors are ignored, so one scene may have more of them.  A
change of the viewport or of an element then flips monitors that stand for each
other, and it reports them in the same order.
-/

namespace Hydration

/-- Keys of two tables stand for each other in the order in which they were given. -/
def InOrder (twins : Nat → Nat → Prop) : Prop :=
  ∀ ⦃first firstTwin second secondTwin⦄, twins first firstTwin → twins second secondTwin →
    (first < second ↔ firstTwin < secondTwin)

/-- What stands for each other once as many keys were given from two keys on. -/
def alongside (twins : Nat → Nat → Prop) (first firstTwin count : Nat) (key twin : Nat) : Prop :=
  twins key twin ∨ ∃ index < count, key = first + index ∧ twin = firstTwin + index

theorem exists_alongside {twins : Nat → Nat → Prop} {first firstTwin count key : Nat} :
    (∃ twin, alongside twins first firstTwin count key twin) ↔
      (∃ twin, twins key twin) ∨ key ∈ List.range' first count := by
  simp only [alongside, List.mem_range'_1]
  constructor
  · rintro ⟨twin, old | ⟨index, known, rfl, -⟩⟩
    · exact .inl ⟨twin, old⟩
    · exact .inr ⟨Nat.le_add_right _ _, Nat.add_lt_add_left known _⟩
  · rintro (⟨twin, old⟩ | ⟨least, most⟩)
    · exact ⟨twin, .inl old⟩
    · obtain ⟨index, rfl⟩ := Nat.exists_eq_add_of_le least
      exact ⟨firstTwin + index, .inr ⟨index, Nat.lt_of_add_lt_add_left most, rfl, rfl⟩⟩

theorem exists_alongside_twin {twins : Nat → Nat → Prop} {first firstTwin count twin : Nat} :
    (∃ key, alongside twins first firstTwin count key twin) ↔
      (∃ key, twins key twin) ∨ twin ∈ List.range' firstTwin count := by
  have flipped := @exists_alongside (flip twins) firstTwin first count twin
  simpa only [alongside, flip, and_comm (b := twin = _)] using flipped

namespace InOrder

variable {twins : Nat → Nat → Prop}

theorem eq_iff
    {first firstTwin second secondTwin : Nat}
    (ordered : InOrder twins)
    (one : twins first firstTwin)
    (other : twins second secondTwin) :
    first = second ↔ firstTwin = secondTwin := by
  have forth := ordered one other
  have back := ordered other one
  omega

theorem alongside
    {first firstTwin : Nat}
    (ordered : InOrder twins)
    (known : ∀ key twin, twins key twin → key < first ∧ twin < firstTwin)
    (count : Nat) :
    InOrder (alongside twins first firstTwin count) := by
  intro one oneTwin other otherTwin onePair otherPair
  rcases onePair with old | ⟨index, _, rfl, rfl⟩
  · rcases otherPair with older | ⟨index, _, rfl, rfl⟩
    · exact ordered old older
    · have earlier := known one oneTwin old
      omega
  · rcases otherPair with old | ⟨index, _, rfl, rfl⟩
    · have earlier := known other otherTwin old
      omega
    · omega

/-- Ascending lists of keys stand for each other if their keys do. -/
theorem forall₂
    {keys others : List Nat}
    (ordered : InOrder twins)
    (ascending : keys.Pairwise (· < ·))
    (othersAscending : others.Pairwise (· < ·))
    (forth : ∀ key ∈ keys, ∃ twin ∈ others, twins key twin)
    (back : ∀ twin ∈ others, ∃ key ∈ keys, twins key twin) :
    List.Forall₂ twins keys others := by
  induction keys generalizing others with
  | nil =>
      cases others with
      | nil => exact .nil
      | cons twin rest =>
          obtain ⟨_, member, _⟩ := back twin List.mem_cons_self
          cases member
  | cons key keys inductionHypothesis =>
      cases others with
      | nil =>
          obtain ⟨_, member, _⟩ := forth key List.mem_cons_self
          cases member
      | cons twin others =>
          obtain ⟨least, rest⟩ := List.pairwise_cons.mp ascending
          obtain ⟨leastTwin, restTwins⟩ := List.pairwise_cons.mp othersAscending
          -- The least key of one list can only stand for the least key of the other.
          have first : twins key twin := by
            obtain ⟨found, among, pair⟩ := forth key List.mem_cons_self
            obtain ⟨known, amongKeys, knownPair⟩ := back twin List.mem_cons_self
            rcases List.mem_cons.mp amongKeys with rfl | later
            · exact knownPair
            · rcases List.mem_cons.mp among with rfl | laterTwin
              · exact pair
              · have smaller := (ordered pair knownPair).mp (least known later)
                have greater := leastTwin found laterTwin
                omega
          refine .cons first (inductionHypothesis rest restTwins ?_ ?_)
          · intro other later
            obtain ⟨found, among, pair⟩ := forth other (List.mem_cons_of_mem _ later)
            rcases List.mem_cons.mp among with rfl | laterTwin
            · have same := (ordered.eq_iff first pair).mpr rfl
              exact (Nat.ne_of_lt (least other later) same).elim
            · exact ⟨found, laterTwin, pair⟩
          · intro other later
            obtain ⟨found, among, pair⟩ := back other (List.mem_cons_of_mem _ later)
            rcases List.mem_cons.mp among with rfl | laterKey
            · have same := (ordered.eq_iff first pair).mp rfl
              exact (Nat.ne_of_lt (leastTwin other later) same).elim
            · exact ⟨found, laterKey, pair⟩

variable {keys others : List Nat} {key twin : Nat}

/-- Keys that stand for each other occur as often in lists that do. -/
theorem count_eq
    (ordered : InOrder twins)
    (related : List.Forall₂ twins keys others)
    (pair : twins key twin) :
    others.count twin = keys.count key := by
  induction related with
  | nil => rfl
  | cons first _ inductionHypothesis =>
      have same := ordered.eq_iff first pair
      simp only [List.count_cons, inductionHypothesis, beq_iff_eq, same]

theorem mem_iff
    (ordered : InOrder twins)
    (related : List.Forall₂ twins keys others)
    (pair : twins key twin) :
    twin ∈ others ↔ key ∈ keys := by
  rw [← List.count_pos_iff, ← List.count_pos_iff, ordered.count_eq related pair]

end InOrder

/-- Keys that were given from two keys on stand for each other. -/
theorem forall₂_alongside (twins : Nat → Nat → Prop) (first firstTwin count : Nat) :
    List.Forall₂ (alongside twins first firstTwin count) (List.range' first count)
      (List.range' firstTwin count) := by
  rw [List.forall₂_iff_get]
  refine ⟨by simp, fun index known _ => ?_⟩
  refine .inr ⟨index, by simpa using known, ?_, ?_⟩ <;> simp

/-- New monitors that follow an element have keys that are given with them. -/
theorem bounds_of_mem_followers
    {element : ElementId}
    {first key : Nat}
    {added : List Monitor}
    (member : key ∈ followers element first added) :
    first ≤ key ∧ key < first + added.length := by
  induction added generalizing first with
  | nil => cases member
  | cons entry rest inductionHypothesis =>
      have later (member : key ∈ followers element (first + 1) rest) :
          first ≤ key ∧ key < first + (rest.length + 1) := by
        have bounds := inductionHypothesis member
        omega
      simp only [followers] at member
      split at member
      · rcases List.mem_cons.mp member with rfl | member
        · simp
        · exact later member
      · exact later member

/-- The same new monitors follow an element whatever keys are given to them. -/
theorem forall₂_followers
    {twins : Nat → Nat → Prop}
    {first firstTwin : MonitorId}
    {added : List Monitor}
    (element : ElementId)
    (pairs : ∀ index < added.length, twins (first + index) (firstTwin + index)) :
    List.Forall₂ twins (followers element first added) (followers element firstTwin added) := by
  induction added generalizing first firstTwin with
  | nil => exact .nil
  | cons entry rest inductionHypothesis =>
      have later : List.Forall₂ twins (followers element (first + 1) rest)
          (followers element (firstTwin + 1) rest) :=
        inductionHypothesis fun index known => by
          have pair := pairs (index + 1) (Nat.succ_lt_succ known)
          rwa [Nat.add_comm index, ← Nat.add_assoc, ← Nat.add_assoc] at pair
      simp only [followers]
      split
      · exact .cons (pairs 0 (Nat.succ_pos _)) later
      · exact later

/-- Which keys of two pages stand for each other. -/
structure Links where
  bindings : BindingId → BindingId → Prop
  monitors : MonitorId → MonitorId → Prop

/-- Monitors that are made for one context on both scenes stand for each other. -/
def Links.watch (links : Links) (plain mixed : Scene) (count : Nat) : Links :=
  { links with
    monitors := alongside links.monitors plain.monitors.size mixed.monitors.size count }

/-- Two trees, one of which has extra elements, and the strategies under which both are hydrated. -/
structure Contrast where
  isExtra : ElementId → Bool
  plain : Tree
  mixed : Tree
  hooks : Hooks

/-- Two watches with monitors that stand for each other, and the same binding to tell. -/
structure Watch.Alike (links : Links) (plain mixed : Watch) : Prop where
  monitors : List.Forall₂ links.monitors plain.monitors mixed.monitors
  audience :
    plain.audience = none ∧ mixed.audience = none ∨
      ∃ key twin, plain.audience = some (.binding key) ∧ mixed.audience = some (.binding twin) ∧
        links.bindings key twin
  plainHeld : plain.dropped = false
  mixedHeld : mixed.dropped = false

theorem Watch.Alike.mono
    {links more : Links}
    {plain mixed : Watch}
    (alike : plain.Alike links mixed)
    (bindings : ∀ key twin, links.bindings key twin → more.bindings key twin)
    (monitors : ∀ key twin, links.monitors key twin → more.monitors key twin) :
    plain.Alike more mixed := by
  refine ⟨alike.monitors.imp monitors, alike.audience.imp_right ?_, alike.plainHeld,
    alike.mixedHeld⟩
  rintro ⟨key, twin, tells, tellsTwin, pair⟩
  exact ⟨key, twin, tells, tellsTwin, bindings key twin pair⟩

theorem Watch.rel_mono
    {links more : Links}
    {plain mixed : Option Watch}
    (related : Option.Rel (Watch.Alike links) plain mixed)
    (bindings : ∀ key twin, links.bindings key twin → more.bindings key twin)
    (monitors : ∀ key twin, links.monitors key twin → more.monitors key twin) :
    Option.Rel (Watch.Alike more) plain mixed := by
  cases related with
  | none => exact .none
  | some alike => exact .some (alike.mono bindings monitors)

namespace Scene

/-- Two scenes on which those who are told of changes see the same. -/
structure Alike (contrast : Contrast) (links : Links) (plain mixed : Scene) : Prop where
  plainTree : plain.tree = contrast.plain
  mixedTree : mixed.tree = contrast.mixed
  viewport : mixed.viewport = plain.viewport
  seen : ∀ element, mixed.isVisible element = plain.isVisible element
  plainUnheld : plain.held = Table.empty
  mixedUnheld : mixed.held = Table.empty
  plainTidy : plain.Tidy
  mixedTidy : mixed.Tidy
  ordered : InOrder links.monitors
  monitors :
    ∀ key twin, links.monitors key twin →
      ∃ monitor, plain.monitors.get? key = some monitor ∧ mixed.monitors.get? twin = some monitor
  plainKept : ∀ key, plain.keeps key ↔ ∃ twin, links.monitors key twin
  mixedKept : ∀ twin, mixed.keeps twin ↔ ∃ key, links.monitors key twin
  watches :
    ∀ watch, Option.Rel (Watch.Alike links) (plain.watches.get? watch) (mixed.watches.get? watch)
  watchers :
    ∀ element,
      List.Forall₂ links.monitors ((plain.visibility.watchers element).filter plain.keeps)
        ((mixed.visibility.watchers element).filter mixed.keeps)

variable {contrast : Contrast} {links : Links} {scene plain mixed after afterTwin : Scene}
  {key twin : MonitorId}

/-- On a scene of which the host keeps nothing monitors are kept by watches alone. -/
theorem keeps_iff (unheld : scene.held = Table.empty) : scene.keeps key ↔ scene.Watched key := by
  constructor
  · intro kept
    have alive : scene.isAlive [] key := by rw [isAlive, kept, Bool.true_or]
    exact watched_of_isAlive (by simp [unheld, Table.empty]) alive
  · intro watched
    have alive := watched.isAlive []
    rwa [isAlive, List.contains_nil, Bool.or_false] at alive

theorem keeps_addWatch (context : Context) (keys : List MonitorId) :
    (scene.addWatch context keys).keeps key = (scene.keeps key || keys.contains key) := by
  simp [keeps, addWatch, Table.push, Bool.or_assoc]

theorem Extends.get?
    {pinned : List MonitorId}
    {added : List Monitor}
    {monitor : Monitor}
    (extension : scene.Extends pinned added after)
    (found : scene.monitors.get? key = some monitor) :
    after.monitors.get? key = some monitor := by
  obtain ⟨known, _⟩ := List.getElem?_eq_some_iff.mp found
  rw [Table.get?, extension.monitors, List.getElem?_append_left known]
  exact found

theorem Extends.get?_added
    {pinned : List MonitorId}
    {added : List Monitor}
    (extension : scene.Extends pinned added after)
    (index : Nat) :
    after.monitors.get? (scene.monitors.size + index) = added[index]? := by
  rw [Table.get?, extension.monitors, Table.size, List.getElem?_append_right (Nat.le_add_right _ _),
    Nat.add_sub_cancel_left]

/-- What follows an element and is kept stays the same when monitors are added. -/
theorem Extends.watchers_kept
    {pinned : List MonitorId}
    {added : List Monitor}
    (extension : scene.Extends pinned added after)
    (tidy : scene.Tidy)
    (old : ∀ key, scene.keeps key → key < scene.monitors.size)
    (element : ElementId) :
    (after.visibility.watchers element).filter after.keeps =
      (scene.visibility.watchers element).filter scene.keeps := by
  have alive (key : MonitorId) (isKept : scene.keeps key) : scene.isAlive pinned key := by
    rw [isAlive, isKept, Bool.true_or]
  have newcomers : (followers element scene.monitors.size added).filter scene.keeps = [] := by
    refine List.filter_eq_nil_iff.mpr fun key member isKept => ?_
    have bounds := bounds_of_mem_followers member
    exact Nat.not_lt_of_le bounds.1 (old key isKept)
  rw [extension.keeps, extension.watchers tidy element scene.keeps fun key _ => alive key,
    List.filter_append, newcomers, List.append_nil]

/-- Those of the added monitors that follow an element are kept by the watch they are added for. -/
theorem Extends.watchers_addWatch
    {pinned : List MonitorId}
    {added : List Monitor}
    (extension : scene.Extends pinned added after)
    (tidy : scene.Tidy)
    (context : Context)
    (element : ElementId) :
    let watched := after.addWatch context (List.range' scene.monitors.size added.length)
    (watched.visibility.watchers element).filter watched.keeps =
      (scene.visibility.watchers element).filter scene.keeps ++
        followers element scene.monitors.size added := by
  intro watched
  let keys := List.range' scene.monitors.size added.length
  let isKept (key : MonitorId) : Bool := scene.keeps key || keys.contains key
  have kept : watched.keeps = isKept := by
    funext key
    simp only [watched, isKept, keys, keeps_addWatch, extension.keeps]
  have isOld (key : MonitorId) (known : key < scene.monitors.size) :
      isKept key = scene.keeps key := by
    have apart : keys.contains key = false := by
      rw [List.contains_eq_mem, decide_eq_false_iff_not, List.mem_range'_1]
      exact fun bounds => Nat.not_lt_of_le bounds.1 known
    simp only [isKept, apart, Bool.or_false]
  have old : (scene.visibility.watchers element).filter isKept =
      (scene.visibility.watchers element).filter scene.keeps :=
    List.filter_congr fun key member => isOld key (tidy.known element key member)
  have new : (followers element scene.monitors.size added).filter isKept =
      followers element scene.monitors.size added :=
    List.filter_eq_self.mpr fun key member => by
      have bounds := bounds_of_mem_followers member
      simp only [isKept, keys, List.contains_iff_mem.mpr (List.mem_range'_1.mpr bounds),
        Bool.or_true]
  have alive (key : MonitorId) (known : key < scene.monitors.size) (isIn : isKept key) :
      scene.isAlive pinned key := by
    rw [isOld key known] at isIn
    rw [isAlive, isIn, Bool.true_or]
  rw [kept]
  exact (extension.watchers tidy element isKept alive).trans (by rw [List.filter_append, old, new])

/-- A watch without subscriptions has nothing to undo. -/
theorem owns_of_fresh
    {watch : WatchId}
    {entry : Watch}
    {attachment : Attachment}
    (found : scene.watches.get? watch = some entry)
    (fresh : entry.subscriptions = []) :
    scene.owns watch attachment = false := by
  simp [owns, found, Watch.attachments, fresh]

theorem Listens.keeps
    {watch : WatchId}
    {entry : Watch}
    {audience : Audience}
    (listens : scene.Listens after watch entry audience)
    (found : scene.watches.get? watch = some entry)
    (unheld : scene.held = Table.empty) :
    after.keeps = scene.keeps := by
  obtain ⟨subscriptions, now, _⟩ := listens.own
  funext key
  rw [Bool.eq_iff_iff, keeps_iff (listens.held.trans unheld), keeps_iff unheld]
  constructor
  · rintro ⟨other, known, there, held, member⟩
    by_cases own : other = watch
    · subst own
      cases there.symm.trans now
      exact ⟨other, entry, found, held, member⟩
    · exact ⟨other, known, (listens.others other own).symm.trans there, held, member⟩
  · rintro ⟨other, known, there, held, member⟩
    by_cases own : other = watch
    · subst own
      cases there.symm.trans found
      exact ⟨other, _, now, held, member⟩
    · exact ⟨other, known, (listens.others other own).trans there, held, member⟩

theorem Listens.tidy
    {watch : WatchId}
    {entry : Watch}
    {audience : Audience}
    (listens : scene.Listens after watch entry audience)
    (tidy : scene.Tidy) :
    after.Tidy := by
  have size : scene.monitors.size ≤ after.monitors.size := by
    have beyond := Table.get?_size after.monitors
    rw [listens.monitors, Option.map_eq_none_iff] at beyond
    exact (Table.get?_eq_none_iff _ _).mp beyond
  refine ⟨by rw [listens.visibility]; exact tidy.distinct, fun element key member => ?_⟩
  rw [listens.visibility] at member
  exact Nat.lt_of_lt_of_le (tidy.known element key member) size

namespace Alike

theorem plainKnown
    (alike : plain.Alike contrast links mixed)
    (pair : links.monitors key twin) :
    key < plain.monitors.size := by
  obtain ⟨_, found, _⟩ := alike.monitors key twin pair
  exact Table.lt_size_of_found found

theorem mixedKnown
    (alike : plain.Alike contrast links mixed)
    (pair : links.monitors key twin) :
    twin < mixed.monitors.size := by
  obtain ⟨_, _, found⟩ := alike.monitors key twin pair
  exact Table.lt_size_of_found found

theorem plainOld
    (alike : plain.Alike contrast links mixed)
    (key : MonitorId)
    (isKept : plain.keeps key) :
    key < plain.monitors.size := by
  obtain ⟨twin, pair⟩ := (alike.plainKept key).mp isKept
  exact alike.plainKnown pair

theorem mixedOld
    (alike : plain.Alike contrast links mixed)
    (twin : MonitorId)
    (isKept : mixed.keeps twin) :
    twin < mixed.monitors.size := by
  obtain ⟨key, pair⟩ := (alike.mixedKept twin).mp isKept
  exact alike.mixedKnown pair

theorem value_eq
    (alike : plain.Alike contrast links mixed)
    (pair : links.monitors key twin) :
    mixed.value twin = plain.value key := by
  obtain ⟨monitor, found, foundTwin⟩ := alike.monitors key twin pair
  rw [value, value, found, foundTwin]

theorem allHold_eq
    {keys twins : List MonitorId}
    (alike : plain.Alike contrast links mixed)
    (related : List.Forall₂ links.monitors keys twins) :
    mixed.allHold twins = plain.allHold keys := by
  induction related with
  | nil => rfl
  | cons first _ inductionHypothesis =>
      simp only [allHold, List.all_cons, alike.value_eq first] at inductionHypothesis ⊢
      rw [inductionHypothesis]

theorem listener?_eq
    (alike : plain.Alike contrast links mixed)
    (pair : links.monitors key twin) :
    mixed.listener? twin = plain.listener? key := by
  obtain ⟨monitor, found, foundTwin⟩ := alike.monitors key twin pair
  rw [listener?, listener?, found, foundTwin]

/-- Watches have the same keys on both scenes. -/
theorem watches_size (alike : plain.Alike contrast links mixed) :
    mixed.watches.size = plain.watches.size := by
  have same (watch : WatchId) : plain.watches.size ≤ watch ↔ mixed.watches.size ≤ watch := by
    rw [← Table.get?_eq_none_iff, ← Table.get?_eq_none_iff]
    have related := alike.watches watch
    generalize plain.watches.get? watch = entry, mixed.watches.get? watch = entryTwin at related
    cases related <;> simp
  have forth := same plain.watches.size
  have back := same mixed.watches.size
  omega

theorem heldValues_eq (alike : plain.Alike contrast links mixed) :
    mixed.heldValues = plain.heldValues := by
  simp [heldValues, alike.plainUnheld, alike.mixedUnheld, Table.empty]

/-- Monitors that nobody keeps may come and go. -/
theorem extend
    {plainPinned mixedPinned : List MonitorId}
    {plainAdded mixedAdded : List Monitor}
    (alike : plain.Alike contrast links mixed)
    (plainExtension : plain.Extends plainPinned plainAdded after)
    (mixedExtension : mixed.Extends mixedPinned mixedAdded afterTwin) :
    after.Alike contrast links afterTwin := by
  exact {
    plainTree := plainExtension.tree.trans alike.plainTree
    mixedTree := mixedExtension.tree.trans alike.mixedTree
    viewport := by rw [mixedExtension.viewport, alike.viewport, plainExtension.viewport]
    seen := fun element => by rw [mixedExtension.seen, alike.seen, plainExtension.seen]
    plainUnheld := plainExtension.held.trans alike.plainUnheld
    mixedUnheld := mixedExtension.held.trans alike.mixedUnheld
    plainTidy := plainExtension.tidy alike.plainTidy
    mixedTidy := mixedExtension.tidy alike.mixedTidy
    ordered := alike.ordered
    monitors := fun key twin pair => by
      obtain ⟨monitor, found, foundTwin⟩ := alike.monitors key twin pair
      exact ⟨monitor, plainExtension.get? found, mixedExtension.get? foundTwin⟩
    plainKept := fun key => by rw [plainExtension.keeps, alike.plainKept]
    mixedKept := fun twin => by rw [mixedExtension.keeps, alike.mixedKept]
    watches := fun watch => by
      rw [plainExtension.watches, mixedExtension.watches]
      exact alike.watches watch
    watchers := fun element => by
      rw [plainExtension.watchers_kept alike.plainTidy alike.plainOld,
        mixedExtension.watchers_kept alike.mixedTidy alike.mixedOld]
      exact alike.watchers element }

/-- A context is watched on both scenes with monitors that were added to both. -/
theorem addWatch
    {plainPinned mixedPinned : List MonitorId}
    {added : List Monitor}
    (alike : plain.Alike contrast links mixed)
    (plainExtension : plain.Extends plainPinned added after)
    (mixedExtension : mixed.Extends mixedPinned added afterTwin)
    (context : Context) :
    (after.addWatch context (List.range' plain.monitors.size added.length)).Alike contrast
      (links.watch plain mixed added.length)
      (afterTwin.addWatch context (List.range' mixed.monitors.size added.length)) := by
  have extended := alike.extend plainExtension mixedExtension
  have older (key twin : MonitorId) (pair : links.monitors key twin) :
      alongside links.monitors plain.monitors.size mixed.monitors.size added.length key twin :=
    .inl pair
  have pairs (index : Nat) (known : index < added.length) :
      alongside links.monitors plain.monitors.size mixed.monitors.size added.length
        (plain.monitors.size + index) (mixed.monitors.size + index) :=
    .inr ⟨index, known, rfl, rfl⟩
  have known (key twin : MonitorId) (pair : links.monitors key twin) :
      key < plain.monitors.size ∧ twin < mixed.monitors.size :=
    ⟨alike.plainKnown pair, alike.mixedKnown pair⟩
  refine {
    plainTree := extended.plainTree
    mixedTree := extended.mixedTree
    viewport := extended.viewport
    seen := extended.seen
    plainUnheld := extended.plainUnheld
    mixedUnheld := extended.mixedUnheld
    plainTidy := ⟨extended.plainTidy.1, extended.plainTidy.2⟩
    mixedTidy := ⟨extended.mixedTidy.1, extended.mixedTidy.2⟩
    ordered := alike.ordered.alongside known _
    monitors := ?_
    plainKept := fun key => ?_
    mixedKept := fun twin => ?_
    watches := fun watch => ?_
    watchers := fun element => ?_ }
  · rintro key twin (old | ⟨index, known, rfl, rfl⟩)
    · exact extended.monitors key twin old
    · exact ⟨added[index], (plainExtension.get?_added index).trans (List.getElem?_eq_getElem known),
        (mixedExtension.get?_added index).trans (List.getElem?_eq_getElem known)⟩
  · rw [keeps_addWatch, plainExtension.keeps, Bool.or_eq_true, alike.plainKept,
      List.contains_iff_mem]
    exact exists_alongside.symm
  · rw [keeps_addWatch, mixedExtension.keeps, Bool.or_eq_true, alike.mixedKept,
      List.contains_iff_mem]
    exact exists_alongside_twin.symm
  · simp only [Scene.addWatch, Table.get?_push, extended.watches_size]
    split
    · exact .some ⟨forall₂_alongside _ _ _ _, .inl ⟨rfl, rfl⟩, rfl, rfl⟩
    · exact Watch.rel_mono (extended.watches watch) (fun _ _ => id) older
  · rw [plainExtension.watchers_addWatch alike.plainTidy,
      mixedExtension.watchers_addWatch alike.mixedTidy]
    exact List.rel_append ((alike.watchers element).imp older) (forall₂_followers element pairs)

/-- A new watch begins to listen on both scenes. -/
theorem listen
    {watch : WatchId}
    {entry entryTwin : Watch}
    {binding bindingTwin : BindingId}
    (alike : plain.Alike contrast links mixed)
    (found : plain.watches.get? watch = some entry)
    (foundTwin : mixed.watches.get? watch = some entryTwin)
    (fresh : entry.subscriptions = [] ∧ entry.disposed = false)
    (freshTwin : entryTwin.subscriptions = [] ∧ entryTwin.disposed = false)
    (pair : links.bindings binding bindingTwin) :
    (plain.listen watch (.binding binding)).Alike contrast links
      (mixed.listen watch (.binding bindingTwin)) := by
  have listens := listens_listen found fresh.2 (.binding binding)
  have listensTwin := listens_listen foundTwin freshTwin.2 (.binding bindingTwin)
  have related : entry.Alike links entryTwin := by
    have both := alike.watches watch
    rw [found, foundTwin] at both
    cases both with
    | some alike => exact alike
  have keeps : (plain.listen watch (.binding binding)).keeps = plain.keeps :=
    listens.keeps found alike.plainUnheld
  have keepsTwin : (mixed.listen watch (.binding bindingTwin)).keeps = mixed.keeps :=
    listensTwin.keeps foundTwin alike.mixedUnheld
  refine {
    plainTree := (tree_listen _ _ _).trans alike.plainTree
    mixedTree := (tree_listen _ _ _).trans alike.mixedTree
    viewport := by rw [listensTwin.viewport, alike.viewport, listens.viewport]
    seen := fun element => ?_
    plainUnheld := listens.held.trans alike.plainUnheld
    mixedUnheld := listensTwin.held.trans alike.mixedUnheld
    plainTidy := listens.tidy alike.plainTidy
    mixedTidy := listensTwin.tidy alike.mixedTidy
    ordered := alike.ordered
    monitors := fun key twin pair => ?_
    plainKept := keeps ▸ alike.plainKept
    mixedKept := keepsTwin ▸ alike.mixedKept
    watches := fun other => ?_
    watchers := fun element => ?_ }
  · simp only [isVisible, listensTwin.visibility, listens.visibility]
    exact alike.seen element
  · obtain ⟨monitor, known, knownTwin⟩ := alike.monitors key twin pair
    refine ⟨_, (listens.monitors key).trans (congrArg _ known), ?_⟩
    simp only [listensTwin.monitors, knownTwin, Option.map_some, owns_of_fresh found fresh.1,
      owns_of_fresh foundTwin freshTwin.1, alike.ordered.count_eq related.monitors pair,
      alike.ordered.mem_iff related.monitors pair]
  · by_cases own : other = watch
    · subst own
      obtain ⟨_, now, _⟩ := listens.own
      obtain ⟨_, nowTwin, _⟩ := listensTwin.own
      rw [now, nowTwin]
      exact .some ⟨related.monitors, .inr ⟨binding, bindingTwin, rfl, rfl, pair⟩,
        related.plainHeld, related.mixedHeld⟩
    · rw [listens.others other own, listensTwin.others other own]
      exact alike.watches other
  · rw [keeps, keepsTwin, listens.visibility, listensTwin.visibility]
    exact alike.watchers element

end Alike

end Scene

end Hydration
