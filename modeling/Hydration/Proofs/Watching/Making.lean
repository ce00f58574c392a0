import Hydration.Proofs.Watching.Tracking

/-!
# Making the monitors of a context

Making monitors only adds to a scene: what was there before has the same source,
value and listener afterwards.  The monitors made for a context answer its
conditions, one each, and are up to date from the start.
-/

namespace Hydration

/-- What a condition asks of an element, if it asks the viewport or the element itself. -/
def Condition.source? (condition : Condition) (factories : Factories) (element : ElementId) :
    Option Source :=
  match factories.find? condition.monitor with
  | some .media => (MediaQuery.parse condition.query).toOption.map .media
  | some .visible => (Source.readVisibility condition.query).toOption.map (.visible element)
  | _ => none

/-- The toggle that a factory gives out for a query. -/
def Factory.toggle? (query : String) : Factory → Option String
  | .toggle => some query
  | .shared name => some name
  | _ => none

/-- The toggle that a condition asks. -/
def Condition.toggle? (condition : Condition) (factories : Factories) : Option String :=
  (factories.find? condition.monitor).bind (Factory.toggle? condition.query)

namespace Scene

/-- Nothing has changed but that monitors were added, to which nobody listens yet. -/
structure Grows (before after : Scene) : Prop where
  monitors :
    ∀ key monitor, before.monitors.get? key = some monitor →
      after.monitors.get? key = some monitor
  fresh :
    ∀ key monitor, after.monitors.get? key = some monitor →
      before.monitors.get? key = some monitor ∨ monitor.slot = Slot.empty
  size : before.monitors.size ≤ after.monitors.size
  watches : after.watches = before.watches
  held : after.held = before.held
  viewport : after.viewport = before.viewport
  visible : ∀ element, after.isVisible element = before.isVisible element
  tree : after.tree = before.tree
  subscriptions : after.subscriptions = before.subscriptions
  /-- A toggle that is used for the first time does not hold yet. -/
  toggles :
    ∀ name, Text.valueOf? name after.toggles = Text.valueOf? name before.toggles ∨
      Text.valueOf? name before.toggles = none ∧
        ∃ key, Text.valueOf? name after.toggles = some key ∧
          after.monitors.get? key = some ⟨.host, false, Slot.empty⟩

theorem Grows.refl (scene : Scene) : scene.Grows scene :=
  ⟨fun _ _ => id, fun _ _ => .inl, Nat.le_refl _, rfl, rfl, rfl, fun _ => rfl, rfl, rfl,
    fun _ => .inl rfl⟩

theorem Grows.trans
    {first second third : Scene}
    (earlier : first.Grows second)
    (later : second.Grows third) :
    first.Grows third where
  monitors key monitor found := later.monitors key monitor (earlier.monitors key monitor found)
  fresh key monitor found := (later.fresh key monitor found).elim (earlier.fresh key monitor) .inr
  size := Nat.le_trans earlier.size later.size
  watches := later.watches.trans earlier.watches
  held := later.held.trans earlier.held
  viewport := later.viewport.trans earlier.viewport
  visible element := (later.visible element).trans (earlier.visible element)
  tree := later.tree.trans earlier.tree
  subscriptions := later.subscriptions.trans earlier.subscriptions
  toggles name := by
    rcases earlier.toggles name with same | ⟨unused, key, named, found⟩
    · rw [← same]
      exact later.toggles name
    · refine .inr ⟨unused, key, ?_, later.monitors key _ found⟩
      rcases later.toggles name with same | ⟨unusedStill, _⟩
      · exact same.trans named
      · cases unusedStill.symm.trans named

theorem Grows.verdict?
    {before after : Scene}
    (grows : before.Grows after)
    (source : Source) :
    after.verdict? source = before.verdict? source := by
  cases source <;> simp [Scene.verdict?, grows.viewport, grows.visible]

/-- A toggle that was used keeps its monitor. -/
theorem Grows.named
    {before after : Scene}
    {name : String}
    {key : MonitorId}
    (grows : before.Grows after)
    (named : Text.valueOf? name before.toggles = some key) :
    Text.valueOf? name after.toggles = some key := by
  rcases grows.toggles name with same | ⟨unused, _⟩
  · exact same.trans named
  · cases unused.symm.trans named

/-- Monitors that are added are kept by nobody yet, and those that are kept stay so. -/
theorem Grows.isAlive
    {before after : Scene}
    (grows : before.Grows after)
    (pinned : List MonitorId)
    (key : MonitorId) :
    after.isAlive pinned key = before.isAlive pinned key := by
  simp only [Scene.isAlive, Scene.keeps, grows.watches, grows.held]

/-- Nobody listens to a monitor that was just made. -/
theorem Grows.listener?
    {before after : Scene}
    (grows : before.Grows after)
    (key : MonitorId) :
    after.listener? key = before.listener? key := by
  cases found : before.monitors.get? key with
  | some monitor => simp [Scene.listener?, found, grows.monitors key monitor found]
  | none =>
      cases now : after.monitors.get? key with
      | none => simp [Scene.listener?, found, now]
      | some monitor =>
          have fresh : monitor.slot = Slot.empty :=
            (grows.fresh key monitor now).resolve_left (by simp [found])
          simp [Scene.listener?, found, now, fresh, Slot.empty]

/-- The monitors that a watch keeps. -/
def Watched (scene : Scene) (key : MonitorId) : Prop :=
  ∃ watch entry,
    scene.watches.get? watch = some entry ∧ entry.dropped = false ∧ key ∈ entry.monitors

variable {scene after : Scene} {kept : MonitorId → Prop} {key : MonitorId}

theorem Watched.isAlive (watched : scene.Watched key) (pinned : List MonitorId) :
    scene.isAlive pinned key := by
  obtain ⟨watch, entry, found, living, keeps⟩ := watched
  have kept : scene.watches.entries.any (fun watch =>
      !watch.dropped && watch.monitors.contains key) = true := by
    rw [List.any_eq_true]
    exact ⟨entry, List.mem_of_getElem? found, by simp [living, keeps]⟩
  simp only [Scene.isAlive, Scene.keeps, kept, Bool.or_true, Bool.true_or]

/-- A monitor that lives while no call is under way and the host keeps none belongs to a watch. -/
theorem watched_of_isAlive
    (unheld : ∀ monitor, some monitor ∉ scene.held.entries)
    (alive : scene.isAlive [] key) :
    scene.Watched key := by
  have kept : scene.watches.entries.any (fun watch =>
      !watch.dropped && watch.monitors.contains key) = true := by
    simpa [isAlive, keeps, unheld] using alive
  obtain ⟨entry, member, holds⟩ := List.any_eq_true.mp kept
  obtain ⟨watch, found⟩ := List.mem_iff_getElem?.mp member
  rw [Bool.and_eq_true, Bool.not_eq_true', List.contains_iff_mem] at holds
  exact ⟨watch, entry, found, holds.1, holds.2⟩

theorem Grows.watched (grows : scene.Grows after) : after.Watched key ↔ scene.Watched key := by
  simp only [Watched, grows.watches]

/-- Pinning more monitors keeps more of them alive. -/
theorem isAlive_mono
    {fewer more : List MonitorId}
    (among : fewer ⊆ more)
    (alive : scene.isAlive fewer key) :
    scene.isAlive more key := by
  simp only [Scene.isAlive, Bool.or_eq_true, List.contains_iff_mem] at alive ⊢
  exact alive.imp_right fun member => among member

/-- A new monitor that is up to date and, if it follows an element, among its watchers. -/
theorem Tracks.grow
    {source : Source}
    {value : Bool}
    (tracks : scene.Tracks kept)
    (grows : scene.Grows after)
    (monitors : after.monitors = scene.monitors.push ⟨source, value, Slot.empty⟩)
    (current : ∀ verdict, scene.verdict? source = some verdict → value = verdict)
    (watched :
      ∀ key, kept key → ∀ element, key ∈ scene.visibility.watchers element →
        key ∈ after.visibility.watchers element)
    (newcomer :
      ∀ element wanted, source = .visible element wanted →
        scene.monitors.size ∈ after.visibility.watchers element)
    (listed :
      ∀ element, ∀ key ∈ after.visibility.watchers element,
        key ∈ scene.visibility.watchers element ∨
          key = scene.monitors.size ∧ ∃ wanted, source = .visible element wanted)
    (distinct : after.visibility.Distinct)
    (single : ∀ element, (after.visibility.watchers element).Nodup)
    (toggles :
      after.toggles = scene.toggles ∨
        source = .host ∧
          ∃ name, after.toggles = Text.assign name scene.monitors.size scene.toggles) :
    after.Tracks fun key => kept key ∨ key = scene.monitors.size := by
  have made : after.monitors.get? scene.monitors.size = some ⟨source, value, Slot.empty⟩ := by
    rw [monitors, Table.get?_push, if_pos rfl]
  have earlier {key : MonitorId} {monitor : Monitor}
      (found : after.monitors.get? key = some monitor) :
      scene.monitors.get? key = some monitor ∧ key ≠ scene.monitors.size ∨
        key = scene.monitors.size ∧ monitor = ⟨source, value, Slot.empty⟩ := by
    rw [monitors, Table.get?_push] at found
    split at found
    · next last => exact .inr ⟨last, (Option.some.inj found).symm⟩
    · next other => exact .inl ⟨found, other⟩
  -- A toggle that was used before has a monitor that was there before.
  have unused (name : String) :
      Text.valueOf? name scene.toggles ≠ some scene.monitors.size := by
    intro named
    obtain ⟨_, found, _⟩ := tracks.toggles name _ named
    cases (Table.get?_size _).symm.trans found
  refine ⟨?_, ?_, ?_, distinct, single, ?_, ?_⟩
  · intro key monitor isKept found verdict told
    rw [grows.verdict?] at told
    rcases earlier found with ⟨was, other⟩ | ⟨rfl, rfl⟩
    · exact tracks.current key monitor (isKept.resolve_right other) was verdict told
    · exact current verdict told
  · intro key monitor isKept found element wanted asks
    rcases earlier found with ⟨was, other⟩ | ⟨rfl, rfl⟩
    · have old := isKept.resolve_right other
      exact watched key old element (tracks.watched key monitor old was element wanted asks)
    · exact newcomer element wanted asks
  · intro element key member
    rcases listed element key member with old | ⟨rfl, wanted, asks⟩
    · obtain ⟨monitor, wanted, was, asks⟩ := tracks.listed element key old
      exact ⟨monitor, wanted, grows.monitors key monitor was, asks⟩
    · exact ⟨_, wanted, made, asks⟩
  · intro name key named
    have old (was : Text.valueOf? name scene.toggles = some key) :
        ∃ monitor, after.monitors.get? key = some monitor ∧ monitor.source = .host := by
      obtain ⟨monitor, there, host⟩ := tracks.toggles name key was
      exact ⟨monitor, grows.monitors key monitor there, host⟩
    rcases toggles with same | ⟨host, newcomer, same⟩
    · exact old (by rwa [← same])
    · rw [same, Text.valueOf?_assign] at named
      split at named
      · cases named
        exact ⟨_, made, host⟩
      · exact old named
  · intro name other key named isOther
    rcases toggles with same | ⟨_, newcomer, same⟩
    · rw [same] at named isOther
      exact tracks.unshared name other key named isOther
    · rw [same, Text.valueOf?_assign] at named isOther
      split at named <;> split at isOther
      · next first second => exact first.trans second.symm
      · exact (unused other (isOther.trans named.symm)).elim
      · exact (unused name (named.trans isOther.symm)).elim
      · exact tracks.unshared name other key named isOther

theorem grows_of_push
    {source : Source}
    {value : Bool}
    (monitors : after.monitors = scene.monitors.push ⟨source, value, Slot.empty⟩)
    (watches : after.watches = scene.watches)
    (held : after.held = scene.held)
    (viewport : after.viewport = scene.viewport)
    (visible : ∀ element, after.isVisible element = scene.isVisible element)
    (tree : after.tree = scene.tree)
    (subscriptions : after.subscriptions = scene.subscriptions)
    (toggles :
      ∀ name, Text.valueOf? name after.toggles = Text.valueOf? name scene.toggles ∨
        Text.valueOf? name scene.toggles = none ∧
          ∃ key, Text.valueOf? name after.toggles = some key ∧
            after.monitors.get? key = some ⟨.host, false, Slot.empty⟩) :
    scene.Grows after := by
  refine ⟨?_, ?_, ?_, watches, held, viewport, visible, tree, subscriptions, toggles⟩
  · intro key entry found
    rw [monitors]
    exact Table.get?_push_eq_some_iff.mpr (.inl found)
  · intro key entry found
    rw [monitors] at found
    rcases Table.get?_push_eq_some_iff.mp found with old | ⟨_, rfl⟩
    · exact .inl old
    · exact .inr rfl
  · rw [monitors, Table.size_push]
    exact Nat.le_succ _

/-- Whether a monitor follows more than the host. -/
def Follows (scene : Scene) (key : MonitorId) : Prop :=
  ∃ monitor, scene.monitors.get? key = some monitor ∧ monitor.source ≠ .host

/-- A monitor follows what it has followed before. -/
theorem Follows.earlier
    {monitor now : Monitor}
    (follows : after.Follows key)
    (there : after.monitors.get? key = some now)
    (was : scene.monitors.get? key = some monitor)
    (same : now.source = monitor.source) :
    scene.Follows key := by
  obtain ⟨known, found, away⟩ := follows
  cases there.symm.trans found
  exact ⟨monitor, was, by rwa [← same]⟩

/-- Whether a monitor is not lost and keeps its source. -/
def Keeps (before after : Scene) (key : MonitorId) : Prop :=
  ∀ monitor, before.monitors.get? key = some monitor →
    ∃ now, after.monitors.get? key = some now ∧ now.source = monitor.source

/-- A monitor goes on following what it follows as long as it keeps its source. -/
theorem Keeps.follows (keeps : scene.Keeps after key) (follows : scene.Follows key) :
    after.Follows key := by
  obtain ⟨monitor, was, away⟩ := follows
  obtain ⟨now, found, same⟩ := keeps monitor was
  exact ⟨now, found, by rwa [same]⟩

/-- Among some monitors none that follows more than the host comes twice. -/
def Apart (scene : Scene) (keys : List MonitorId) : Prop :=
  keys.Pairwise fun first second => scene.Follows second → first ≠ second

theorem Apart.imp
    {keys : List MonitorId}
    (apart : scene.Apart keys)
    (earlier : ∀ key ∈ keys, after.Follows key → scene.Follows key) :
    after.Apart keys :=
  List.Pairwise.imp_of_mem
    (fun _ member distinct follows => distinct (earlier _ member follows)) apart

/-- What is known of a monitor that was made for a condition. -/
def Answers (scene after : Scene) (factories : Factories) (element : ElementId)
    (condition : Condition) (key : MonitorId) : Prop :=
  ∃ monitor, after.monitors.get? key = some monitor ∧
    (∀ source, condition.source? factories element = some source → monitor.source = source) ∧
    (monitor.source ≠ .host → scene.monitors.size ≤ key) ∧
    ∀ name, condition.toggle? factories = some name →
      Text.valueOf? name after.toggles = some key

/-- A monitor that does not follow an element is added without more. -/
theorem Tracks.addMonitor
    (tracks : scene.Tracks kept)
    (source : Source)
    (value : Bool)
    (unseen : ∀ element wanted, source ≠ .visible element wanted)
    (current : ∀ verdict, scene.verdict? source = some verdict → value = verdict) :
    scene.Grows (scene.addMonitor source value) ∧
      (scene.addMonitor source value).Tracks fun key => kept key ∨ key = scene.monitors.size := by
  have grows : scene.Grows (scene.addMonitor source value) :=
    grows_of_push rfl rfl rfl rfl (fun _ => rfl) rfl rfl fun _ => .inl rfl
  refine ⟨grows, tracks.grow grows rfl current (fun _ _ _ => id) ?_ (fun _ _ => .inl)
    tracks.distinct tracks.single (.inl rfl)⟩
  intro element wanted asks
  exact (unseen element wanted asks).elim

/-- A monitor of an element is added to its watchers after those that have ended are forgotten. -/
theorem Tracks.addVisible
    {pinned : List MonitorId}
    (tracks : scene.Tracks kept)
    (alive : ∀ key, kept key → scene.isAlive pinned key)
    (element : ElementId)
    (wanted : Bool) :
    let pruned := scene.visibility.prune (scene.isAlive pinned)
    let made := scene.addMonitor (.visible element wanted) (pruned.isVisible element == wanted)
    let after : Scene := { made with visibility := pruned.watch element scene.monitors.size }
    scene.Grows after ∧ after.Tracks fun key => kept key ∨ key = scene.monitors.size := by
  intro pruned made after
  have distinct : pruned.Distinct := Visibility.distinct_prune tracks.distinct _
  have seen (other : ElementId) : after.isVisible other = scene.isVisible other := by
    have watching : after.isVisible other = pruned.isVisible other :=
      Visibility.isVisible_watch scene.monitors.size
    rw [watching]
    exact Visibility.isVisible_prune tracks.distinct _
  have watchers (other : ElementId) :
      after.visibility.watchers other =
        if other = element then
          (scene.visibility.watchers other).filter (scene.isAlive pinned) ++ [scene.monitors.size]
        else (scene.visibility.watchers other).filter (scene.isAlive pinned) := by
    have watching : after.visibility.watchers other = _ :=
      Visibility.watchers_watch scene.monitors.size
    rw [watching, Visibility.watchers_prune tracks.distinct]
  have grows : scene.Grows after :=
    grows_of_push rfl rfl rfl rfl seen rfl rfl fun _ => .inl rfl
  refine ⟨grows, tracks.grow grows rfl ?_ ?_ ?_ ?_ (Visibility.distinct_watch distinct _ _)
    ?_ (.inl rfl)⟩
  · intro verdict told
    rw [← Option.some.inj told]
    exact congrArg (· == wanted) (Visibility.isVisible_prune tracks.distinct _)
  · intro key isKept other member
    have stays := List.mem_filter.mpr ⟨member, alive key isKept⟩
    rw [watchers]
    split
    · exact List.mem_append_left _ stays
    · exact stays
  · intro other wanted asks
    cases asks
    rw [watchers, if_pos rfl]
    exact List.mem_append_right _ (List.mem_singleton.mpr rfl)
  · intro other key member
    rw [watchers] at member
    split at member
    · next same =>
        rcases List.mem_append.mp member with old | new
        · exact .inl (List.mem_of_mem_filter old)
        · exact .inr ⟨List.mem_singleton.mp new, wanted, by rw [same]⟩
    · exact .inl (List.mem_of_mem_filter member)
  · intro other
    have stays := (tracks.single other).filter (scene.isAlive pinned)
    rw [watchers]
    split
    · refine List.nodup_append.mpr ⟨stays, List.nodup_singleton _, ?_⟩
      intro key old new isNew same
      rw [List.mem_singleton.mp isNew] at same
      -- A watcher that is there already is the key of a monitor, and the new one is not yet.
      obtain ⟨monitor, _, found, _⟩ := tracks.listed other key (List.mem_of_mem_filter old)
      rw [same, Table.get?_size] at found
      cases found
    · exact stays

/-- A toggle that is used has its name from then on. -/
theorem named_toggle (scene : Scene) (name : String) :
    Text.valueOf? name (scene.toggle name).2.toggles = some (scene.toggle name).1 := by
  unfold Scene.toggle
  split
  · next named => exact named
  · exact (Text.valueOf?_assign ..).trans (if_pos rfl)

/-- A toggle is found or made. -/
theorem Tracks.toggle
    (tracks : scene.Tracks kept)
    (name : String) :
    scene.Grows (scene.toggle name).2 ∧
      ((scene.toggle name).2.Tracks fun key => kept key ∨ key = (scene.toggle name).1) ∧
      ∃ monitor, (scene.toggle name).2.monitors.get? (scene.toggle name).1 = some monitor ∧
        monitor.source = .host := by
  unfold Scene.toggle
  split
  · next key named =>
      obtain ⟨monitor, found, host⟩ := tracks.toggles name key named
      refine ⟨Grows.refl scene,
        ⟨?_, ?_, tracks.listed, tracks.distinct, tracks.single, tracks.toggles, tracks.unshared⟩,
        monitor, found, host⟩
      · intro other entry isKept now verdict told
        rcases isKept with old | rfl
        · exact tracks.current other entry old now verdict told
        · cases found.symm.trans now
          rw [host] at told
          cases told
      · intro other entry isKept now element wanted asks
        rcases isKept with old | rfl
        · exact tracks.watched other entry old now element wanted asks
        · cases found.symm.trans now
          cases host.symm.trans asks
  · next unnamed =>
      dsimp only
      have grows :
          scene.Grows { scene.addMonitor .host false with
            toggles := Text.assign name scene.monitors.size scene.toggles } := by
        refine grows_of_push rfl rfl rfl rfl (fun _ => rfl) rfl rfl fun other => ?_
        rw [Text.valueOf?_assign]
        split
        · next same =>
            subst same
            exact .inr ⟨unnamed, _, rfl, (Table.get?_push _ _ _).trans (if_pos rfl)⟩
        · exact .inl rfl
      refine ⟨grows, tracks.grow grows rfl (fun _ told => by cases told) (fun _ _ _ => id)
        (fun _ _ asks => by cases asks) (fun _ _ => .inl) tracks.distinct tracks.single
        (.inr ⟨rfl, name, rfl⟩), ?_⟩
      · refine ⟨⟨.host, false, Slot.empty⟩, ?_, rfl⟩
        exact (Table.get?_push _ _ _).trans (if_pos rfl)

theorem Answers.newest
    {factories : Factories}
    {element : ElementId}
    {condition : Condition}
    {monitor : Monitor}
    (monitors : after.monitors = scene.monitors.push monitor)
    (asks :
      ∀ source, condition.source? factories element = some source → monitor.source = source)
    (free : condition.toggle? factories = none) :
    scene.Answers after factories element condition scene.monitors.size := by
  refine ⟨monitor, ?_, asks, fun _ => Nat.le_refl _, by simp [free]⟩
  rw [monitors, Table.get?_push, if_pos rfl]

/-- A monitor that is made answers its condition, and all monitors are still up to date. -/
theorem Tracks.makeOf
    {pinned : List MonitorId}
    {factories : Factories}
    {element : ElementId}
    {condition : Condition}
    (tracks : scene.Tracks kept)
    (alive : ∀ key, kept key → scene.isAlive pinned key)
    (made :
      scene.makeOf pinned factories condition.monitor element condition.query =
        (after, .ok key)) :
    scene.Grows after ∧ (after.Tracks fun other => kept other ∨ other = key) ∧
      scene.Answers after factories element condition key := by
  have ofToggle
      (name : String)
      (unjudged : condition.source? factories element = none)
      (asked : condition.toggle? factories = some name) :
      let found := scene.toggle name
      scene.Grows found.2 ∧ (found.2.Tracks fun other => kept other ∨ other = found.1) ∧
        scene.Answers found.2 factories element condition found.1 := by
    obtain ⟨grows, tracks, monitor, found, host⟩ := tracks.toggle name
    refine ⟨grows, tracks, monitor, found, ?_, fun away => (away host).elim, ?_⟩
    · intro source asks
      cases unjudged.symm.trans asks
    · intro other isAsked
      cases asked.symm.trans isAsked
      exact named_toggle scene name
  have ofHost
      (value : Bool)
      (unjudged : condition.source? factories element = none)
      (free : condition.toggle? factories = none) :
      let found := scene.addMonitor .host value
      scene.Grows found ∧ (found.Tracks fun other => kept other ∨ other = scene.monitors.size) ∧
        scene.Answers found factories element condition scene.monitors.size := by
    obtain ⟨grows, tracks⟩ :=
      tracks.addMonitor .host value (by simp) fun _ told => by cases told
    refine ⟨grows, tracks, Answers.newest rfl ?_ free⟩
    intro source asks
    cases unjudged.symm.trans asks
  unfold Scene.makeOf at made
  split at made
  · cases made
  · next factory known =>
      have free (gives : factory.toggle? condition.query = none) :
          condition.toggle? factories = none := by
        rw [Condition.toggle?, known]
        exact gives
      cases factory with
      | media =>
          simp only [make] at made
          split at made
          · cases made
          · next parsed read =>
              cases made
              obtain ⟨grows, tracks⟩ :=
                tracks.addMonitor (.media parsed) (parsed.holds scene.viewport) (by simp)
                  fun _ => Option.some.inj
              refine ⟨grows, tracks, Answers.newest rfl ?_ (free rfl)⟩
              intro source asks
              simpa [Condition.source?, known, read, Except.toOption] using asks
      | visible =>
          simp only [make] at made
          split at made
          · cases made
          · next wanted read =>
              cases made
              obtain ⟨grows, tracks⟩ := tracks.addVisible alive element wanted
              refine ⟨grows, tracks, Answers.newest rfl ?_ (free rfl)⟩
              intro source asks
              simpa [Condition.source?, known, read, Except.toOption] using asks
      | toggle =>
          simp only [make] at made
          cases made
          exact ofToggle condition.query (by simp [Condition.source?, known])
            (by simp [Condition.toggle?, known, Factory.toggle?])
      | shared name =>
          simp only [make] at made
          cases made
          exact ofToggle name (by simp [Condition.source?, known])
            (by simp [Condition.toggle?, known, Factory.toggle?])
      | fixed value =>
          simp only [make] at made
          cases made
          exact ofHost value (by simp [Condition.source?, known]) (free rfl)
      | carried =>
          simp only [make] at made
          cases made
          exact ofHost (scene.tree.hasAttribute element condition.query)
            (by simp [Condition.source?, known]) (free rfl)
      | reject =>
          simp only [make] at made
          cases made

/-- A condition for which no monitor can be made changes nothing and asks for nothing. -/
theorem makeOf_error
    {pinned : List MonitorId}
    {factories : Factories}
    {element : ElementId}
    {condition : Condition}
    {fault : ContextFault}
    (refused :
      scene.makeOf pinned factories condition.monitor element condition.query =
        (after, .error fault)) :
    after = scene ∧ condition.source? factories element = none := by
  unfold makeOf at refused
  unfold Condition.source?
  split at refused
  · next unknown =>
      cases refused
      exact ⟨rfl, by rw [unknown]⟩
  · next factory known =>
      rw [known]
      unfold make at refused
      cases factory with
      | media =>
          dsimp only at refused ⊢
          split at refused
          · next parsed =>
              cases refused
              exact ⟨rfl, by rw [parsed]; rfl⟩
          · cases refused
      | visible =>
          dsimp only at refused ⊢
          split at refused
          · next parsed =>
              cases refused
              exact ⟨rfl, by rw [parsed]; rfl⟩
          · cases refused
      | reject =>
          cases refused
          exact ⟨rfl, rfl⟩
      | toggle | shared | fixed | carried => cases refused

theorem Answers.mono
    {start : Scene}
    {factories : Factories}
    {element : ElementId}
    {condition : Condition}
    (answers : start.Answers scene factories element condition key)
    (grows : scene.Grows after) :
    start.Answers after factories element condition key := by
  obtain ⟨monitor, found, asks, fresh, named⟩ := answers
  exact ⟨monitor, grows.monitors key monitor found, asks, fresh,
    fun name asked => grows.named (named name asked)⟩

theorem exists_answers
    {factories : Factories}
    {element : ElementId}
    {conditions : List Condition}
    {keys : List MonitorId}
    (answers : List.Forall₂ (scene.Answers after factories element) conditions keys)
    (member : key ∈ keys) :
    ∃ condition, scene.Answers after factories element condition key := by
  induction answers with
  | nil => cases member
  | cons first _ inductionHypothesis =>
      rcases List.mem_cons.mp member with rfl | later
      · exact ⟨_, first⟩
      · exact inductionHypothesis later

section MakeAll

variable
  {pinned made monitors : List MonitorId} {factories : Factories} {element : ElementId}
  {condition : Condition} {conditions : List Condition}

/-- After the first monitor of a list was made the others are made as before. -/
theorem Tracks.makeFirst
    (tracks : scene.Tracks fun key => kept key ∨ key ∈ made)
    (alive : ∀ key, kept key → scene.isAlive pinned key)
    (first :
      scene.makeOf (made ++ pinned) factories condition.monitor element condition.query =
        (after, .ok key)) :
    scene.Grows after ∧
      (after.Tracks fun other => kept other ∨ other ∈ made ++ [key]) ∧
      (∀ key, kept key → after.isAlive pinned key) ∧
      scene.Answers after factories element condition key := by
  have living (key : MonitorId) (isKept : kept key ∨ key ∈ made) :
      scene.isAlive (made ++ pinned) key := by
    rcases isKept with old | mine
    · exact isAlive_mono (List.subset_append_right made pinned) (alive key old)
    · simp [Scene.isAlive, mine]
  obtain ⟨grows, tracks, answers⟩ := tracks.makeOf living first
  refine ⟨grows, ?_, ?_, answers⟩
  · simpa [or_assoc] using tracks
  · intro key isKept
    rw [grows.isAlive]
    exact alive key isKept

/-- The monitors made for a list of conditions answer them one by one. -/
theorem Tracks.makeAll
    (tracks : scene.Tracks fun key => kept key ∨ key ∈ made)
    (alive : ∀ key, kept key → scene.isAlive pinned key)
    (result :
      Scene.makeAll pinned factories element made scene conditions = (after, .ok monitors)) :
    scene.Grows after ∧ (after.Tracks fun key => kept key ∨ key ∈ monitors) ∧
      ∃ added, monitors = made ++ added ∧ after.Apart added ∧
        List.Forall₂ (scene.Answers after factories element) conditions added := by
  induction conditions generalizing made scene with
  | nil =>
      cases result
      exact ⟨Grows.refl _, tracks, [], (List.append_nil _).symm, .nil, .nil⟩
  | cons condition rest inductionHypothesis =>
      simp only [Scene.makeAll] at result
      split at result
      · cases result
      · next next monitor first =>
          obtain ⟨grows, tracks, alive, answers⟩ := tracks.makeFirst alive first
          obtain ⟨grown, tracks, added, same, apart, others⟩ :=
            inductionHypothesis tracks alive result
          refine ⟨grows.trans grown, tracks, monitor :: added, ?_, ?_, ?_⟩
          · rw [same, List.append_assoc, List.singleton_append]
          · -- What is made later has a greater key.
            refine List.pairwise_cons.mpr ⟨?_, apart⟩
            rintro other member ⟨known, found, away⟩ rfl
            obtain ⟨_, later, isLater, _, fresh, _⟩ := exists_answers others member
            cases found.symm.trans isLater
            obtain ⟨_, isFirst, _⟩ := answers
            rw [(Table.get?_eq_none_iff _ _).mpr (fresh away)] at isFirst
            cases isFirst
          · refine .cons (answers.mono grown) (others.imp ?_)
            rintro condition key ⟨monitor, found, asks, fresh, named⟩
            exact ⟨monitor, found, asks, fun away => Nat.le_trans grows.size (fresh away), named⟩

/-- If the monitors of a context cannot be made, one of its conditions asks for nothing. -/
theorem Tracks.makeAll_error
    {fault : ContextFault}
    (tracks : scene.Tracks fun key => kept key ∨ key ∈ made)
    (alive : ∀ key, kept key → scene.isAlive pinned key)
    (result :
      Scene.makeAll pinned factories element made scene conditions = (after, .error fault)) :
    scene.Grows after ∧ after.Tracks kept ∧
      ∃ condition ∈ conditions, condition.source? factories element = none := by
  induction conditions generalizing made scene with
  | nil => cases result
  | cons condition rest inductionHypothesis =>
      simp only [Scene.makeAll] at result
      split at result
      · next refused =>
          cases result
          obtain ⟨same, asks⟩ := makeOf_error refused
          subst same
          exact ⟨Grows.refl _, tracks.mono fun _ => .inl, condition, List.mem_cons_self, asks⟩
      · next next monitor first =>
          obtain ⟨grows, tracks, alive, _⟩ := tracks.makeFirst alive first
          obtain ⟨grown, tracks, refused, member, asks⟩ := inductionHypothesis tracks alive result
          exact ⟨grows.trans grown, tracks, refused, List.mem_cons_of_mem _ member, asks⟩

/--
A context is watched by monitors that were made for its conditions, one for each.  If
they cannot all be made, one of the conditions asks for nothing, and those that were
made are kept by nobody.
-/
theorem Tracks.watch_cases
    (tracks : scene.Tracks kept)
    (alive : ∀ key, kept key → scene.isAlive pinned key)
    (factories : Factories)
    (element : ElementId)
    (context : Context) :
    (∃ after fault,
      scene.watch pinned factories element context = (after, .error fault) ∧
        scene.Grows after ∧ after.Tracks kept ∧
        ∃ condition ∈ context.conditions, condition.source? factories element = none) ∨
    ∃ made keys,
      scene.watch pinned factories element context =
          (made.addWatch context keys, .ok made.watches.size) ∧
        Scene.makeAll pinned factories element [] scene context.conditions = (made, .ok keys) ∧
        scene.Grows made ∧ (made.Tracks fun key => kept key ∨ key ∈ keys) ∧ made.Apart keys ∧
        List.Forall₂ (scene.Answers made factories element) context.conditions keys := by
  have tracks : scene.Tracks fun key => kept key ∨ key ∈ [] :=
    tracks.mono fun key => by simp
  unfold Scene.watch
  cases result : Scene.makeAll pinned factories element [] scene context.conditions with
  | mk made answer =>
      cases answer with
      | error fault =>
          obtain ⟨grows, tracks, unknown⟩ := tracks.makeAll_error alive result
          exact .inl ⟨made, fault, rfl, grows, tracks, unknown⟩
      | ok keys =>
          obtain ⟨grows, tracks, added, same, apart, answers⟩ := tracks.makeAll alive result
          rw [List.nil_append] at same
          subst same
          exact .inr ⟨made, keys, rfl, rfl, grows, tracks, apart, answers⟩

/-- If a context cannot be watched, one of its conditions asks for nothing. -/
theorem Tracks.watch_error
    {context : Context}
    {fault : ContextFault}
    (tracks : scene.Tracks scene.Watched)
    (refused : scene.watch pinned factories element context = (after, .error fault)) :
    scene.Grows after ∧ after.Tracks after.Watched ∧
      ∃ condition ∈ context.conditions, condition.source? factories element = none := by
  have alive (key : MonitorId) (watched : scene.Watched key) := watched.isAlive pinned
  rcases tracks.watch_cases alive factories element context with
    ⟨_, _, result, grows, tracks, unknown⟩ | ⟨_, _, result, _⟩
  · cases result.symm.trans refused
    exact ⟨grows, tracks.mono fun _ => grows.watched.mp, unknown⟩
  · cases result.symm.trans refused

/-- A context is watched by monitors that were made for its conditions, one for each. -/
theorem Tracks.watch_ok
    {context : Context}
    {watch : WatchId}
    (tracks : scene.Tracks scene.Watched)
    (watched : scene.watch pinned factories element context = (after, .ok watch)) :
    ∃ middle keys,
      Scene.makeAll pinned factories element [] scene context.conditions = (middle, .ok keys) ∧
        after = middle.addWatch context keys ∧ watch = middle.watches.size ∧
        scene.Grows middle ∧ (middle.Tracks fun key => middle.Watched key ∨ key ∈ keys) ∧
        middle.Apart keys ∧
        List.Forall₂ (scene.Answers middle factories element) context.conditions keys := by
  have alive (key : MonitorId) (watched : scene.Watched key) := watched.isAlive pinned
  rcases tracks.watch_cases alive factories element context with
    ⟨_, _, result, _⟩ | ⟨middle, keys, result, all, grows, tracks, apart, answers⟩
  · cases result.symm.trans watched
  · cases result.symm.trans watched
    exact ⟨middle, keys, all, rfl, rfl, grows,
      tracks.mono fun _ => Or.imp_left grows.watched.mp, apart, answers⟩

end MakeAll

end Scene

end Hydration
