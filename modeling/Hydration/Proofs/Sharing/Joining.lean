import Hydration.Proofs.Watching.Refusing

/-!
# Watches on toggles

A watch on a context that asks toggles alone has the monitors of these toggles, so it
holds just if all of them do.  A toggle that is set has the value it was set to, and
all others keep theirs; nothing that is done with watches changes a toggle.
-/

namespace Hydration

/-- A context asks these toggles, one with each of its conditions, and nothing else. -/
def Context.AsksToggles (context : Context) (factories : Factories) (names : List String) : Prop :=
  context.conditions.map (·.toggle? factories) = names.map some

namespace Scene

/-- The monitors of a watch. -/
def monitorsOf? (scene : Scene) (watch : WatchId) : Option (List MonitorId) :=
  (scene.watches.get? watch).map Watch.monitors

/-- If a condition asks a toggle, the monitor is that of the toggle. -/
def Lends (scene : Scene) (factories : Factories) (condition : Condition) (key : MonitorId) :
    Prop :=
  ∀ name, condition.toggle? factories = some name → Text.valueOf? name scene.toggles = some key

/-- The watches are on these contexts, with one monitor for each condition of theirs. -/
def Lent (scene : Scene) (known : WatchId → Option (Factories × Context)) : Prop :=
  ∀ watch,
    Option.Rel
      (fun origin keys => List.Forall₂ (scene.Lends origin.1) origin.2.conditions keys)
      (known watch) (scene.monitorsOf? watch)

/-- What a watch is on after a chore, with the factories its monitors were made by. -/
def origin? (scene : Scene) (known : WatchId → Option (Factories × Context)) (watch : WatchId) :
    Chore → Option (Factories × Context)
  | .watch factories element context =>
      if (scene.watch [] factories element context).2.toOption = some watch then
        some (factories, context)
      else known watch
  | _ => known watch

/-- A watch has one monitor for each of some toggles, that of the toggle, and holds with them. -/
structure Joins (scene : Scene) (watch : WatchId) (names : List String) : Prop where
  monitors :
    (scene.monitorsOf? watch).map (List.map some) =
      some (names.map fun name => Text.valueOf? name scene.toggles)
  value : scene.watchValue watch = names.all scene.toggleValue

variable
  {scene after : Scene} {known : WatchId → Option (Factories × Context)}
  {watch : WatchId} {key : MonitorId} {keys : List MonitorId}
  {factories : Factories} {conditions : List Condition} {names : List String} {name : String}

/-- A change of a watch that leaves its monitors. -/
theorem monitorsOf?_of_modify
    {change : Watch → Watch}
    (watches : after.watches = scene.watches.modify watch change)
    (kept : ∀ entry, (change entry).monitors = entry.monitors)
    (other : WatchId) :
    after.monitorsOf? other = scene.monitorsOf? other := by
  rw [monitorsOf?, monitorsOf?, watches, Table.get?_modify]
  split
  · rw [Option.map_map]
    exact congrArg (Option.map · _) (funext kept)
  · rfl

theorem monitorsOf?_silence (scene : Scene) (watch other : WatchId) :
    (scene.silence watch).monitorsOf? other = scene.monitorsOf? other := by
  refine monitorsOf?_of_modify rfl ?_ other
  exact fun _ => rfl

theorem monitorsOf?_listen (scene : Scene) (watch : WatchId) (audience : Audience)
    (other : WatchId) :
    (scene.listen watch audience).monitorsOf? other = scene.monitorsOf? other := by
  rw [← monitorsOf?_silence scene watch other]
  unfold listen
  dsimp only
  split
  · rfl
  · next entry _ =>
      split
      · rfl
      · obtain ⟨_, _, attached, _⟩ := attachAll_eq watch entry.monitors (scene.silence watch)
        rw [attached]
        refine monitorsOf?_of_modify rfl ?_ other
        exact fun _ => rfl

theorem monitorsOf?_disposeWatch (scene : Scene) (watch other : WatchId) :
    (scene.disposeWatch watch).monitorsOf? other = scene.monitorsOf? other := by
  rw [← monitorsOf?_silence scene watch other]
  refine monitorsOf?_of_modify rfl ?_ other
  exact fun _ => rfl

theorem monitorsOf?_dropWatch (scene : Scene) (watch other : WatchId) :
    (scene.dropWatch watch).monitorsOf? other = scene.monitorsOf? other := by
  rw [← monitorsOf?_disposeWatch scene watch other]
  refine monitorsOf?_of_modify rfl ?_ other
  exact fun _ => rfl

theorem monitorsOf?_addWatch (scene : Scene) (context : Context) (keys : List MonitorId)
    (watch : WatchId) :
    (scene.addWatch context keys).monitorsOf? watch =
      if watch = scene.watches.size then some keys else scene.monitorsOf? watch := by
  rw [monitorsOf?, addWatch, Table.get?_push]
  split <;> rfl

/-- Watches that keep their monitors are on what they were on, as toggles keep theirs. -/
theorem Lent.congr
    (lent : scene.Lent known)
    (monitors : ∀ watch, after.monitorsOf? watch = scene.monitorsOf? watch)
    (named :
      ∀ name key, Text.valueOf? name scene.toggles = some key →
        Text.valueOf? name after.toggles = some key) :
    after.Lent known := by
  intro watch
  have related := lent watch
  rw [monitors]
  generalize known watch = origin, scene.monitorsOf? watch = keys at related
  cases related with
  | none => exact .none
  | some lends =>
      exact .some (lends.imp fun condition key lends name asked =>
        named name key (lends name asked))

theorem Lent.grow (lent : scene.Lent known) (grows : scene.Grows after) : after.Lent known := by
  refine lent.congr (fun watch => ?_) fun _ _ => grows.named
  rw [monitorsOf?, monitorsOf?, grows.watches]

/-- After a chore the watches are those that were there and the one that was made. -/
theorem Lent.run (lent : scene.Lent known) (vital : scene.Vital []) (chore : Chore) :
    (scene.run [] chore).Lent fun watch => scene.origin? known watch chore := by
  cases chore with
  | watch factories element context =>
      rcases vital.tracks.watch_cases (fun _ => id) factories element context with
        ⟨_, _, result, grows, _⟩ | ⟨made, keys, result, _, grows, _, _, answers⟩
      · simp only [Scene.run, origin?, result, Except.toOption, reduceCtorEq, if_false]
        exact lent.grow grows
      · intro watch
        simp only [Scene.run, origin?, result, Except.toOption, Option.some.injEq,
          monitorsOf?_addWatch, @eq_comm _ watch]
        split
        · refine .some (answers.imp ?_)
          rintro condition key ⟨_, _, _, _, named⟩
          exact named
        · exact lent.grow grows watch
  | listen watch handle round =>
      refine lent.congr (monitorsOf?_listen scene watch _) fun name key named => ?_
      rwa [Scene.run, toggles_listen]
  | dispose watch =>
      refine lent.congr (monitorsOf?_disposeWatch scene watch) fun name key named => ?_
      rwa [Scene.run, (silences_disposeWatch scene watch).toggles]
  | drop watch =>
      refine lent.congr (monitorsOf?_dropWatch scene watch) fun name key named => ?_
      rwa [Scene.run, (silences_dropWatch scene watch).toggles]

theorem Lent.setToggle
    {pinned : List MonitorId}
    (lent : scene.Lent known)
    (vital : scene.Vital pinned)
    (name : String)
    (value : Bool) :
    (scene.setToggle name value).1.Lent known := by
  obtain ⟨grows, _⟩ := vital.tracks.toggle name
  exact (lent.grow grows).congr (fun _ => rfl) fun _ _ => id

/-- Conditions that ask toggles alone have the monitors of these toggles. -/
theorem monitors_of_lends
    (lends : List.Forall₂ (scene.Lends factories) conditions keys)
    (asks : conditions.map (·.toggle? factories) = names.map some) :
    keys.map some = names.map fun name => Text.valueOf? name scene.toggles := by
  induction lends generalizing names with
  | nil =>
      cases names with
      | nil => rfl
      | cons => cases asks
  | @cons condition key conditions keys first _ inductionHypothesis =>
      cases names with
      | nil => cases asks
      | cons name rest =>
          obtain ⟨asked, others⟩ := List.cons.inj asks
          rw [List.map_cons, List.map_cons, first name asked, inductionHypothesis others]

/-- The monitors of toggles hold just if the toggles do. -/
theorem allHold_of_monitors
    (monitors : keys.map some = names.map fun name => Text.valueOf? name scene.toggles) :
    scene.allHold keys = names.all scene.toggleValue :=
  calc
    scene.allHold keys = (keys.map some).all fun key => key.elim false scene.value := by
      rw [List.all_map]
      rfl
    _ = (names.map fun name => Text.valueOf? name scene.toggles).all
          fun key => key.elim false scene.value := by rw [monitors]
    _ = names.all scene.toggleValue := by
      rw [List.all_map]
      rfl

theorem Lent.joins
    {context : Context}
    (lent : scene.Lent known)
    (origin : known watch = some (factories, context))
    (asks : context.AsksToggles factories names) :
    scene.Joins watch names := by
  have related := lent watch
  rw [origin] at related
  cases kept : scene.monitorsOf? watch with
  | none =>
      rw [kept] at related
      cases related
  | some keys =>
      rw [kept] at related
      cases related with
      | some lends =>
          have monitors := monitors_of_lends lends asks
          obtain ⟨entry, there, rfl⟩ := Option.map_eq_some_iff.mp kept
          refine ⟨by rw [kept, Option.map_some, monitors], ?_⟩
          simp only [watchValue, there, allHold_of_monitors monitors]

/-- A watch that has the monitor of a toggle asks the toggle. -/
theorem Joins.mem
    {kept : MonitorId → Prop}
    {entry : Watch}
    (joins : scene.Joins watch names)
    (tracks : scene.Tracks kept)
    (found : scene.watches.get? watch = some entry)
    (named : Text.valueOf? name scene.toggles = some key)
    (member : key ∈ entry.monitors) :
    name ∈ names := by
  have monitors := joins.monitors
  rw [monitorsOf?, found, Option.map_some, Option.map_some, Option.some.injEq] at monitors
  have among : some key ∈ names.map fun name => Text.valueOf? name scene.toggles := by
    rw [← monitors]
    exact List.mem_map_of_mem member
  obtain ⟨other, isAsked, isNamed⟩ := List.mem_map.mp among
  rwa [tracks.unshared name other key named isNamed]

/-- Toggles keep their values as long as they keep their monitors, and these theirs. -/
theorem Vital.toggleValue_of_kept
    {pinned : List MonitorId}
    (vital : scene.Vital pinned)
    (toggles : after.toggles = scene.toggles)
    (keeps : scene.KeepsValues after)
    (name : String) :
    after.toggleValue name = scene.toggleValue name := by
  rw [toggleValue, toggleValue, toggles]
  cases named : Text.valueOf? name scene.toggles with
  | none => rfl
  | some key =>
      obtain ⟨monitor, found, _⟩ := vital.tracks.toggles name key named
      obtain ⟨now, there, same⟩ := keeps key monitor found
      simp [value, found, there, same]

/-- What the host does with its watches changes no toggle. -/
theorem Vital.toggleValue_run
    {pinned : List MonitorId}
    (vital : scene.Vital pinned)
    (chore : Chore)
    (name : String) :
    (scene.run pinned chore).toggleValue name = scene.toggleValue name := by
  cases chore with
  | watch factories element context =>
      rw [Scene.run]
      rcases vital.tracks.watch_cases (fun _ => id) factories element context with
        ⟨_, _, result, grows, _⟩ | ⟨_, _, result, _, grows, _⟩
      all_goals
        rw [result]
        exact (vital.toggles_grow grows name).1
  | listen watch handle round =>
      exact vital.toggleValue_of_kept (toggles_listen scene watch _)
        (keepsValues_listen scene watch _) name
  | dispose watch =>
      have silences := silences_disposeWatch scene watch
      exact vital.toggleValue_of_kept silences.toggles silences.keepsValues name
  | drop watch =>
      have silences := silences_dropWatch scene watch
      exact vital.toggleValue_of_kept silences.toggles silences.keepsValues name

/-- A toggle that is used for the first time does not hold, like a monitor that is not there. -/
theorem value_toggle (scene : Scene) (name : String) (key : MonitorId) :
    (scene.toggle name).2.value key = scene.value key := by
  unfold toggle
  split
  · rfl
  · simp only [value, addMonitor, Table.get?_push]
    split
    · next last =>
        rw [last, Table.get?_size]
        rfl
    · rfl

/-- Setting a toggle gives its monitor the value, and all others keep theirs. -/
theorem Tracks.value_setToggle
    {kept : MonitorId → Prop}
    (tracks : scene.Tracks kept)
    (name : String)
    (value : Bool)
    (key : MonitorId) :
    (scene.setToggle name value).1.value key =
      if key = (scene.toggle name).1 then value else scene.value key := by
  obtain ⟨_, _, monitor, found, _⟩ := tracks.toggle name
  have now : (scene.setToggle name value).1.monitors.get? key = _ :=
    get?_store (fun _ => value) [(scene.toggle name).1] key
  rw [Scene.value, now]
  simp only [List.mem_singleton]
  split
  · next same =>
      rw [same, found]
      rfl
  · exact value_toggle scene name key

/-- A toggle that is set has the value it was set to, and all others keep theirs. -/
theorem Vital.toggleValue_setToggle
    {pinned : List MonitorId}
    (vital : scene.Vital pinned)
    (name : String)
    (value : Bool)
    (other : String) :
    (scene.setToggle name value).1.toggleValue other =
      if other = name then value else scene.toggleValue other := by
  obtain ⟨grows, tracks, _⟩ := vital.tracks.toggle name
  have named := named_toggle scene name
  have toggles : (scene.setToggle name value).1.toggles = (scene.toggle name).2.toggles := rfl
  split
  · next same =>
      subst same
      rw [toggleValue, toggles, named, Option.elim_some, vital.tracks.value_setToggle,
        if_pos rfl]
  · next differs =>
      rw [← (vital.toggles_grow grows other).1, toggleValue, toggleValue, toggles]
      cases isNamed : Text.valueOf? other (scene.toggle name).2.toggles with
      | none => rfl
      | some key =>
          have apart : key ≠ (scene.toggle name).1 := by
            rintro rfl
            exact differs (tracks.unshared other name _ isNamed named)
          rw [Option.elim_some, Option.elim_some, vital.tracks.value_setToggle, if_neg apart,
            value_toggle]

end Scene

end Hydration
