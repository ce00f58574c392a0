import Hydration.Proofs.Watching.Making

/-!
# Every monitor of a media query has its place

On a scene whose monitors follow the viewport and visible elements alone, a watch
has a monitor of its own for each media query of its context.  So once nobody else
keeps monitors, as many of them live as there are media queries in the contexts
that are watched.
-/

namespace Hydration

/-- Whether the kinds of monitors are those of the scene, each under its own name. -/
def Factories.AreOfScene (factories : Factories) : Prop :=
  ∀ kind factory, factories.find? kind = some factory →
    kind = mediaName ∧ factory = .media ∨ kind = visibleName ∧ factory = .visible

theorem Factories.areOfScene_install : Factories.empty.install.AreOfScene := by
  intro kind factory known
  rw [find?, Factories.install, register, register, Text.valueOf?_assign, Text.valueOf?_assign]
    at known
  split at known
  · next same => exact .inr ⟨same, (Option.some.inj known).symm⟩
  · split at known
    · next same => exact .inl ⟨same, (Option.some.inj known).symm⟩
    · cases known

/-- Whether a condition is a media query. -/
def Condition.asksMedia (condition : Condition) : Bool :=
  condition.monitor = Factories.mediaName

/-- The media queries of a context. -/
def Context.mediaTerms (context : Context) : List Condition :=
  context.conditions.filter Condition.asksMedia

/-- A condition asks the viewport if and only if it is a media query. -/
theorem Condition.isMedia_source?
    {condition : Condition}
    {factories : Factories}
    {element : ElementId}
    {source : Source}
    (ofScene : factories.AreOfScene)
    (asks : condition.source? factories element = some source) :
    source.isMedia = condition.asksMedia := by
  unfold source? at asks
  split at asks
  · next known =>
      rcases ofScene _ _ known with ⟨name, _⟩ | ⟨_, other⟩
      · obtain ⟨query, _, rfl⟩ := Option.map_eq_some_iff.mp asks
        simp [Source.isMedia, asksMedia, name]
      · cases other
  · next known =>
      rcases ofScene _ _ known with ⟨_, other⟩ | ⟨name, _⟩
      · cases other
      · obtain ⟨wanted, _, rfl⟩ := Option.map_eq_some_iff.mp asks
        simp [Source.isMedia, asksMedia, name, Factories.mediaName, Factories.visibleName]
  · cases asks

/-- Lists that are of the same length part by part are so as a whole. -/
theorem length_flatMap_congr
    {α β γ : Type}
    {first : α → List β}
    {second : α → List γ}
    {parts : List α}
    (same : ∀ part ∈ parts, (first part).length = (second part).length) :
    (parts.flatMap first).length = (parts.flatMap second).length := by
  induction parts with
  | nil => rfl
  | cons part rest inductionHypothesis =>
      rw [List.flatMap_cons, List.flatMap_cons, List.length_append, List.length_append,
        same part List.mem_cons_self,
        inductionHypothesis fun other member => same other (List.mem_cons_of_mem _ member)]

namespace Scene

/-- Whether the monitor under a key judges a media query. -/
def judgesMedia (scene : Scene) (key : MonitorId) : Bool :=
  (scene.source? key).any Source.isMedia

/-- The monitors of a watch that judge media queries. -/
def mediaOf (scene : Scene) (entry : Watch) : List MonitorId :=
  entry.monitors.filter scene.judgesMedia

/-- The media queries of the context that a watch was made for. -/
def mediaTerms (scene : Scene) (watch : WatchId) : List Condition :=
  ((scene.watches.get? watch).map fun entry => entry.context.mediaTerms).getD []

/-- Each watch has a monitor of its own for each media query of its context. -/
structure Assigned (scene : Scene) : Prop where
  known :
    ∀ watch entry, scene.watches.get? watch = some entry →
      ∀ key ∈ entry.monitors, (scene.source? key).isSome
  terms :
    ∀ watch entry, scene.watches.get? watch = some entry →
      (scene.mediaOf entry).length = entry.context.mediaTerms.length
  distinct :
    ∀ watch entry, scene.watches.get? watch = some entry → (scene.mediaOf entry).Nodup
  apart :
    ∀ watch other entry known key, scene.watches.get? watch = some entry →
      scene.watches.get? other = some known → key ∈ scene.mediaOf entry →
        key ∈ scene.mediaOf known → watch = other

/-- Monitors follow what they did, and watches have the contexts and monitors they had. -/
structure Sustains (before after : Scene) : Prop where
  sources : ∀ key source, before.source? key = some source → after.source? key = some source
  watches :
    ∀ watch entry, after.watches.get? watch = some entry →
      ∃ was, before.watches.get? watch = some was ∧ entry.context = was.context ∧
        entry.monitors = was.monitors

variable {scene after : Scene} {entry : Watch} {key : MonitorId}

theorem Assigned.empty (tree : Tree) (viewport : Viewport) :
    ({ Scene.empty viewport with tree } : Scene).Assigned := by
  have absent (watch : WatchId) (entry : Watch) :
      ({ Scene.empty viewport with tree } : Scene).watches.get? watch ≠ some entry := by
    intro found
    cases found
  exact ⟨fun watch entry found => (absent watch entry found).elim,
    fun watch entry found => (absent watch entry found).elim,
    fun watch entry found => (absent watch entry found).elim,
    fun watch _ entry _ _ found => (absent watch entry found).elim⟩

theorem judgesMedia_iff :
    scene.judgesMedia key ↔
      ∃ monitor, scene.monitors.get? key = some monitor ∧ monitor.source.isMedia := by
  simp [judgesMedia, source?, Option.any_eq_true]

theorem mem_mediaOf : key ∈ scene.mediaOf entry ↔ key ∈ entry.monitors ∧ scene.judgesMedia key :=
  List.mem_filter

theorem Grows.source?
    {source : Source}
    (grows : scene.Grows after)
    (follows : scene.source? key = some source) :
    after.source? key = some source := by
  obtain ⟨monitor, found, rfl⟩ := Option.map_eq_some_iff.mp follows
  rw [Scene.source?, grows.monitors key monitor found, Option.map_some]

theorem Grows.sustains (grows : scene.Grows after) : scene.Sustains after where
  sources _ _ := grows.source?
  watches watch entry found := ⟨entry, by rwa [← grows.watches], rfl, rfl⟩

/-- A scene with the same watches and sources sustains what was there. -/
theorem sustains_of_eq
    (sources : ∀ key, after.source? key = scene.source? key)
    (watches : after.watches = scene.watches) :
    scene.Sustains after where
  sources key source follows := (sources key).trans follows
  watches watch entry found := ⟨entry, by rwa [← watches], rfl, rfl⟩

/-- The monitors of a watch judge what they did before. -/
theorem Assigned.mediaOf_sustained
    {watch : WatchId}
    {was : Watch}
    (assigned : scene.Assigned)
    (sustains : scene.Sustains after)
    (found : scene.watches.get? watch = some was)
    (same : entry.monitors = was.monitors) :
    after.mediaOf entry = scene.mediaOf was := by
  rw [mediaOf, mediaOf, same]
  refine List.filter_congr fun key member => ?_
  obtain ⟨source, follows⟩ := Option.isSome_iff_exists.mp (assigned.known watch was found key member)
  rw [judgesMedia, judgesMedia, sustains.sources key source follows, follows]

theorem Assigned.sustain (assigned : scene.Assigned) (sustains : scene.Sustains after) :
    after.Assigned := by
  refine ⟨?_, ?_, ?_, ?_⟩
  · intro watch entry now key member
    obtain ⟨was, found, _, same⟩ := sustains.watches watch entry now
    rw [same] at member
    obtain ⟨source, follows⟩ :=
      Option.isSome_iff_exists.mp (assigned.known watch was found key member)
    rw [sustains.sources key source follows]
    rfl
  · intro watch entry now
    obtain ⟨was, found, context, same⟩ := sustains.watches watch entry now
    rw [assigned.mediaOf_sustained sustains found same, context]
    exact assigned.terms watch was found
  · intro watch entry now
    obtain ⟨was, found, _, same⟩ := sustains.watches watch entry now
    rw [assigned.mediaOf_sustained sustains found same]
    exact assigned.distinct watch was found
  · intro watch other entry known key now isKnown mine theirs
    obtain ⟨was, found, _, same⟩ := sustains.watches watch entry now
    obtain ⟨before, there, _, alike⟩ := sustains.watches other known isKnown
    rw [assigned.mediaOf_sustained sustains found same] at mine
    rw [assigned.mediaOf_sustained sustains there alike] at theirs
    exact assigned.apart watch other was before key found there mine theirs

section Making

variable {factories : Factories} {element : ElementId} {pinned made keys : List MonitorId}
variable {conditions : List Condition} {context : Context}

/-- Something is asked by each condition for which a monitor was made. -/
theorem source?_of_makeOf
    {condition : Condition}
    (ofScene : factories.AreOfScene)
    (result :
      scene.makeOf pinned factories condition.monitor element condition.query =
        (after, .ok key)) :
    (condition.source? factories element).isSome := by
  unfold makeOf at result
  unfold Condition.source?
  cases known : factories.find? condition.monitor with
  | none =>
      rw [known] at result
      cases result
  | some factory =>
      rw [known] at result
      rcases ofScene _ _ known with ⟨_, rfl⟩ | ⟨_, rfl⟩
      · cases read : MediaQuery.parse condition.query with
        | error => simp [make, read] at result
        | ok parsed => rfl
      · cases read : Source.readVisibility condition.query with
        | error => simp [make, read] at result
        | ok wanted => rfl

/-- Something is asked by every condition once monitors were made for all of them. -/
theorem source?_of_makeAll
    (ofScene : factories.AreOfScene)
    (result : makeAll pinned factories element made scene conditions = (after, .ok keys)) :
    ∀ condition ∈ conditions, (condition.source? factories element).isSome := by
  induction conditions generalizing made scene with
  | nil =>
      intro condition absent
      cases absent
  | cons first rest inductionHypothesis =>
      simp only [makeAll] at result
      split at result
      · cases result
      · next asked =>
          exact List.forall_mem_cons.mpr
            ⟨source?_of_makeOf ofScene asked, inductionHypothesis result⟩

/-- What answers a condition judges a media query if and only if the condition is one. -/
theorem Answers.judgesMedia
    {condition : Condition}
    (ofScene : factories.AreOfScene)
    (asks : (condition.source? factories element).isSome)
    (answers : scene.Answers after factories element condition key) :
    after.judgesMedia key = condition.asksMedia := by
  obtain ⟨monitor, found, follows, _⟩ := answers
  obtain ⟨source, asked⟩ := Option.isSome_iff_exists.mp asks
  rw [Scene.judgesMedia, Scene.source?, found, Option.map_some, Option.any_some,
    follows source asked, Condition.isMedia_source? ofScene asked]

/-- As many monitors judge media queries as there are among the conditions they were made for. -/
theorem length_filter_judgesMedia
    (ofScene : factories.AreOfScene)
    (asks : ∀ condition ∈ conditions, (condition.source? factories element).isSome)
    (answers : List.Forall₂ (scene.Answers after factories element) conditions keys) :
    (keys.filter after.judgesMedia).length = (conditions.filter Condition.asksMedia).length := by
  induction answers with
  | nil => rfl
  | cons first rest inductionHypothesis =>
      obtain ⟨asksFirst, asksRest⟩ := List.forall_mem_cons.mp asks
      have same := first.judgesMedia ofScene asksFirst
      rw [List.filter_cons, List.filter_cons, same]
      split <;> simp [inductionHypothesis asksRest]

/-- A watch that is made has monitors of its own. -/
theorem Assigned.addWatch
    (assigned : scene.Assigned)
    (ofScene : factories.AreOfScene)
    (grows : scene.Grows after)
    (asks : ∀ condition ∈ context.conditions, (condition.source? factories element).isSome)
    (apart : after.Apart keys)
    (answers : List.Forall₂ (scene.Answers after factories element) context.conditions keys) :
    (after.addWatch context keys).Assigned := by
  have grown : after.Assigned := assigned.sustain grows.sustains
  have same (entry : Watch) : (after.addWatch context keys).mediaOf entry = after.mediaOf entry :=
    rfl
  have mine {entry : Watch} {other : WatchId}
      (found : (after.addWatch context keys).watches.get? other = some entry) :
      after.watches.get? other = some entry ∨
        other = after.watches.size ∧ entry = ⟨context, keys, [], none, false, false⟩ :=
    Table.get?_push_eq_some_iff.mp found
  -- What was made for the new watch has a key that no monitor had before.
  have newer {key : MonitorId} (member : key ∈ keys) (judges : after.judgesMedia key) :
      scene.source? key = none := by
    obtain ⟨monitor, found, isMedia⟩ := judgesMedia_iff.mp judges
    obtain ⟨_, known, isKnown, _, fresh, _⟩ := exists_answers answers member
    cases found.symm.trans isKnown
    have away : monitor.source ≠ .host := by
      intro host
      simp [host, Source.isMedia] at isMedia
    rw [Scene.source?, (Table.get?_eq_none_iff _ _).mpr (fresh away), Option.map_none]
  have foreign {key : MonitorId} {other : WatchId} {entry : Watch}
      (member : key ∈ keys)
      (found : after.watches.get? other = some entry)
      (judged : key ∈ after.mediaOf entry) : False := by
    obtain ⟨there, judges⟩ := mem_mediaOf.mp judged
    rw [grows.watches] at found
    have known := assigned.known other entry found key there
    rw [newer member judges] at known
    cases known
  refine ⟨?_, ?_, ?_, ?_⟩
  · intro other entry found key member
    rcases mine found with old | ⟨_, rfl⟩
    · exact grown.known other entry old key member
    · obtain ⟨_, monitor, there, _⟩ := exists_answers answers member
      change (after.source? key).isSome
      rw [Scene.source?, there]
      rfl
  · intro other entry found
    rw [same]
    rcases mine found with old | ⟨_, rfl⟩
    · exact grown.terms other entry old
    · exact length_filter_judgesMedia ofScene asks answers
  · intro other entry found
    rw [same]
    rcases mine found with old | ⟨_, rfl⟩
    · exact grown.distinct other entry old
    · refine (List.Pairwise.filter _ apart).imp_of_mem ?_
      intro first second _ isSecond different
      obtain ⟨_, judges⟩ := List.mem_filter.mp isSecond
      obtain ⟨monitor, there, isMedia⟩ := judgesMedia_iff.mp judges
      refine different ⟨monitor, there, ?_⟩
      intro host
      simp [host, Source.isMedia] at isMedia
  · intro first second entry known key found isKnown judged too
    rw [same] at judged too
    rcases mine found with old | ⟨last, rfl⟩ <;> rcases mine isKnown with older | ⟨lastToo, rfl⟩
    · exact grown.apart first second entry known key old older judged too
    · exact (foreign (mem_mediaOf.mp too).1 old judged).elim
    · exact (foreign (mem_mediaOf.mp judged).1 older too).elim
    · rw [last, lastToo]

/-- Whatever comes of the attempt to watch a context, watches have monitors of their own. -/
theorem Assigned.watch
    (assigned : scene.Assigned)
    (tracks : scene.Tracks scene.Watched)
    (ofScene : factories.AreOfScene)
    (pinned : List MonitorId)
    (element : ElementId)
    (context : Context) :
    (scene.watch pinned factories element context).1.Assigned := by
  cases result : scene.watch pinned factories element context with
  | mk after outcome =>
      cases outcome with
      | error fault =>
          obtain ⟨grows, _⟩ := tracks.watch_error result
          exact assigned.sustain grows.sustains
      | ok watch =>
          obtain ⟨made, keys, all, rfl, _, grows, _, apart, answers⟩ := tracks.watch_ok result
          exact assigned.addWatch ofScene grows (source?_of_makeAll ofScene all) apart answers

end Making

/-- The monitors of a watch that judge media queries, by the key of the watch. -/
def mediaAt (scene : Scene) (watch : WatchId) : List MonitorId :=
  ((scene.watches.get? watch).map scene.mediaOf).getD []

theorem mem_mediaAt {watch : WatchId} :
    key ∈ scene.mediaAt watch ↔
      ∃ entry, scene.watches.get? watch = some entry ∧ key ∈ scene.mediaOf entry := by
  cases found : scene.watches.get? watch <;> simp [mediaAt, found]

/--
As long as nobody but watches keeps monitors, those of media queries that live
are those of the watches that were not dropped.
-/
theorem Assigned.perm_mediaMonitors
    {watches : List WatchId}
    (assigned : scene.Assigned)
    (unheld : ∀ monitor, some monitor ∉ scene.held.entries)
    (once : watches.Nodup)
    (undropped :
      ∀ watch, watch ∈ watches ↔
        ∃ entry, scene.watches.get? watch = some entry ∧ entry.dropped = false) :
    (scene.mediaMonitors []).Perm (watches.flatMap scene.mediaAt) := by
  have listed : (scene.mediaMonitors []).Nodup := List.nodup_range.filter _
  have parts : (watches.flatMap scene.mediaAt).Nodup := by
    refine List.nodup_flatMap.mpr ⟨?_, once.imp ?_⟩
    · intro watch _
      cases found : scene.watches.get? watch with
      | none => simp [mediaAt, found]
      | some entry => simpa [mediaAt, found] using assigned.distinct watch entry found
    · intro first second different key mine theirs
      obtain ⟨entry, found, isMine⟩ := mem_mediaAt.mp mine
      obtain ⟨known, isKnown, isTheirs⟩ := mem_mediaAt.mp theirs
      exact different (assigned.apart first second entry known key found isKnown isMine isTheirs)
  refine (List.perm_ext_iff_of_nodup listed parts).mpr fun key => ?_
  rw [mem_mediaMonitors, List.mem_flatMap]
  constructor
  · rintro ⟨monitor, found, isMedia, alive⟩
    obtain ⟨watch, entry, there, living, keeps⟩ := watched_of_isAlive unheld alive
    exact ⟨watch, (undropped watch).mpr ⟨entry, there, living⟩,
      mem_mediaAt.mpr
        ⟨entry, there, mem_mediaOf.mpr ⟨keeps, judgesMedia_iff.mpr ⟨monitor, found, isMedia⟩⟩⟩⟩
  · rintro ⟨watch, member, judged⟩
    obtain ⟨entry, there, mine⟩ := mem_mediaAt.mp judged
    obtain ⟨keeps, judges⟩ := mem_mediaOf.mp mine
    obtain ⟨known, isKnown, living⟩ := (undropped watch).mp member
    cases there.symm.trans isKnown
    obtain ⟨monitor, found, isMedia⟩ := judgesMedia_iff.mp judges
    exact ⟨monitor, found, isMedia, Watched.isAlive ⟨watch, entry, there, living, keeps⟩ []⟩

/-- There are as many of them as there are media queries in the contexts that are watched. -/
theorem Assigned.length_mediaMonitors
    {watches : List WatchId}
    (assigned : scene.Assigned)
    (unheld : ∀ monitor, some monitor ∉ scene.held.entries)
    (once : watches.Nodup)
    (undropped :
      ∀ watch, watch ∈ watches ↔
        ∃ entry, scene.watches.get? watch = some entry ∧ entry.dropped = false) :
    (scene.mediaMonitors []).length = (watches.flatMap scene.mediaTerms).length := by
  rw [(assigned.perm_mediaMonitors unheld once undropped).length_eq]
  refine length_flatMap_congr fun watch _ => ?_
  cases found : scene.watches.get? watch with
  | none => simp [mediaAt, mediaTerms, found]
  | some entry => simpa [mediaAt, mediaTerms, found] using assigned.terms watch entry found

end Scene

end Hydration
