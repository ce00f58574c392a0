import Hydration.Proofs.Watching.Making

/-!
# Watches listen to their monitors

In a sound scene every monitor that a watch keeps is up to date, and those that
follow the viewport or an element report to that watch and to no other.  A watch
that is made and given an audience leaves the scene sound and all other watches
as they were.
-/

namespace Hydration

namespace Scene

/--
The monitors of watches that were not dropped are up to date and report to them,
and a watch subscribes to no monitors but its own.
-/
structure Wired (scene : Scene) : Prop where
  tracks : scene.Tracks scene.Watched
  wired :
    ∀ key watch, scene.watches.get? key = some watch → watch.dropped = false →
      ∀ member ∈ watch.monitors,
        ∃ monitor, scene.monitors.get? member = some monitor ∧
          (monitor.source ≠ .host → monitor.slot.listener = some (.watch key))
  owned :
    ∀ key watch, scene.watches.get? key = some watch →
      ∀ subscription ∈ watch.subscriptions, ∀ attachment,
        subscription.pending = some attachment → attachment.monitor ∈ watch.monitors
  apart :
    ∀ key watch, scene.watches.get? key = some watch → watch.dropped = false →
      scene.Apart watch.monitors

/-- Watches live, their monitors are up to date and report to them. -/
structure Sound (scene : Scene) : Prop extends scene.Wired where
  living : ∀ key watch, scene.watches.get? key = some watch → watch.dropped = false

variable {scene after : Scene} {key : MonitorId} {watch : WatchId}

/-- Attaching a watch to monitors gives each of their slots a new generation for each time. -/
theorem get?_attachAll (watch : WatchId) (keys : List MonitorId) (scene : Scene) (key : MonitorId) :
    (attachAll watch keys scene).1.monitors.get? key =
      (scene.monitors.get? key).map fun monitor =>
        { monitor with
          slot :=
            if key ∈ keys then ⟨monitor.slot.generation + keys.count key, some (.watch watch)⟩
            else monitor.slot } := by
  induction keys generalizing scene with
  | nil => simp [attachAll]
  | cons first rest inductionHypothesis =>
      simp only [attachAll, inductionHypothesis, attach, Table.get?_modify]
      by_cases here : key = first
      · subst here
        rw [if_pos rfl, Option.map_map]
        congr 1
        funext monitor
        by_cases again : key ∈ rest
        · simp [Slot.attach, again, Nat.add_assoc, Nat.add_comm 1]
        · simp [Slot.attach, again, List.count_eq_zero_of_not_mem again]
      · rw [if_neg here]
        congr 1
        funext monitor
        simp [here, List.count_cons_of_ne (Ne.symm here)]

/-- Attaching a watch to monitors changes their listeners and nothing else. -/
theorem attachAll_eq (watch : WatchId) (keys : List MonitorId) (scene : Scene) :
    ∃ monitors, ∃ rewire : MonitorId → Slot Listener → Slot Listener,
      (attachAll watch keys scene).1 = { scene with monitors } ∧
        (∀ key, monitors.get? key =
          (scene.monitors.get? key).map fun monitor =>
            { monitor with slot := rewire key monitor.slot }) ∧
        (∀ key ∈ keys, ∀ slot, (rewire key slot).listener = some (.watch watch)) ∧
        ∀ key ∉ keys, ∀ slot, rewire key slot = slot := by
  have same : (attachAll watch keys scene).1 =
      { scene with monitors := (attachAll watch keys scene).1.monitors } := by
    induction keys generalizing scene with
    | nil => rfl
    | cons first rest inductionHypothesis =>
        exact inductionHypothesis (scene.attach first (.watch watch)).1
  exact ⟨_,
    fun key slot =>
      if key ∈ keys then ⟨slot.generation + keys.count key, some (.watch watch)⟩ else slot,
    same, get?_attachAll watch keys scene,
    fun _ member _ => congrArg Slot.listener (if_pos member), fun _ absent _ => if_neg absent⟩

/-- Attaching a watch to monitors gives subscriptions to these monitors. -/
theorem mem_attachAll
    {keys : List MonitorId}
    {subscription : Subscription Attachment}
    {attachment : Attachment}
    (member : subscription ∈ (attachAll watch keys scene).2)
    (pending : subscription.pending = some attachment) :
    attachment.monitor ∈ keys := by
  induction keys generalizing scene with
  | nil => cases member
  | cons first rest inductionHypothesis =>
      rcases List.mem_cons.mp member with rfl | later
      · cases pending
        exact List.mem_cons_self
      · exact List.mem_cons_of_mem _ (inductionHypothesis later)

/-- A watch was added and attached to its monitors, whose slots were changed by `rewire`. -/
structure Installs
    (made after : Scene)
    (entry : Watch)
    (rewire : MonitorId → Slot Listener → Slot Listener) : Prop where
  monitors :
    ∀ key, after.monitors.get? key =
      (made.monitors.get? key).map fun monitor =>
        { monitor with slot := rewire key monitor.slot }
  wired :
    ∀ key ∈ entry.monitors, ∀ slot, (rewire key slot).listener = some (.watch made.watches.size)
  untouched : ∀ key ∉ entry.monitors, ∀ slot, rewire key slot = slot
  watches :
    ∀ watch, after.watches.get? watch =
      if watch = made.watches.size then some entry else made.watches.get? watch
  visibility : after.visibility = made.visibility
  viewport : after.viewport = made.viewport
  toggles : after.toggles = made.toggles
  held : after.held = made.held

/-- A new watch that is given an audience attaches to its monitors. -/
theorem installs_addWatch
    (made : Scene)
    (context : Context)
    (keys : List MonitorId)
    (audience : Audience) :
    ∃ subscriptions rewire,
      (∀ subscription ∈ subscriptions, ∀ attachment,
        subscription.pending = some attachment → attachment.monitor ∈ keys) ∧
      made.Installs ((made.addWatch context keys).listen made.watches.size audience)
        ⟨context, keys, subscriptions, some audience, false, false⟩ rewire := by
  have added : (made.addWatch context keys).watches.get? made.watches.size =
      some ⟨context, keys, [], none, false, false⟩ :=
    (Table.get?_push _ _ _).trans (if_pos rfl)
  -- A new watch has no subscription that would have to be cancelled.
  have silenced :
      (made.addWatch context keys).silence made.watches.size =
        { made with
          watches := (made.addWatch context keys).watches.modify made.watches.size fun entry =>
            { entry with subscriptions := [] } } := by
    simp only [silence, added]
    rfl
  have entry :
      ((made.addWatch context keys).silence made.watches.size).watches.get? made.watches.size =
        some ⟨context, keys, [], none, false, false⟩ := by
    rw [silenced, Table.get?_modify, if_pos rfl, added]
    rfl
  obtain ⟨monitors, rewire, same, found, wired, others⟩ :=
    attachAll_eq made.watches.size keys
      ((made.addWatch context keys).silence made.watches.size)
  have listened :
      (made.addWatch context keys).listen made.watches.size audience =
        { made with
          monitors
          watches :=
            ((made.addWatch context keys).silence made.watches.size).watches.modify
              made.watches.size fun entry =>
                { entry with
                  subscriptions :=
                    (attachAll made.watches.size keys
                      ((made.addWatch context keys).silence made.watches.size)).2
                  audience := some audience } } := by
    simp only [listen, entry, same]
    rw [silenced]
    rfl
  rw [listened]
  refine ⟨(attachAll made.watches.size keys
      ((made.addWatch context keys).silence made.watches.size)).2,
    rewire, fun _ member _ => mem_attachAll member, ?_, wired, others, ?_, rfl, rfl, rfl, rfl⟩
  · intro key
    rw [found, silenced]
  · intro watch
    rw [Table.get?_modify]
    split
    · next last =>
        rw [last, entry]
        rfl
    · next other =>
        rw [silenced, Table.get?_modify, if_neg other]
        exact (Table.get?_push _ _ _).trans (if_neg other)

/-- Listeners have no part in whether monitors are up to date. -/
theorem Tracks.rewire
    {kept : MonitorId → Prop}
    {rewire : MonitorId → Slot Listener → Slot Listener}
    (tracks : scene.Tracks kept)
    (monitors :
      ∀ key, after.monitors.get? key =
        (scene.monitors.get? key).map fun monitor =>
          { monitor with slot := rewire key monitor.slot })
    (visibility : after.visibility = scene.visibility)
    (viewport : after.viewport = scene.viewport)
    (toggles : after.toggles = scene.toggles) :
    after.Tracks kept := by
  have verdict (source : Source) : after.verdict? source = scene.verdict? source := by
    cases source <;> simp [verdict?, isVisible, viewport, visibility]
  have found {key : MonitorId} {monitor : Monitor}
      (was : scene.monitors.get? key = some monitor) :
      after.monitors.get? key = some { monitor with slot := rewire key monitor.slot } := by
    rw [monitors, was, Option.map_some]
  have earlier {key : MonitorId} {monitor : Monitor}
      (now : after.monitors.get? key = some monitor) :
      ∃ before, scene.monitors.get? key = some before ∧
        monitor.source = before.source ∧ monitor.value = before.value := by
    rw [monitors] at now
    obtain ⟨before, was, rfl⟩ := Option.map_eq_some_iff.mp now
    exact ⟨before, was, rfl, rfl⟩
  refine ⟨?_, ?_, ?_, ?_, ?_, ?_, by rw [toggles]; exact tracks.unshared⟩
  · intro key monitor isKept now known told
    obtain ⟨before, was, source, value⟩ := earlier now
    rw [verdict, source] at told
    rw [value]
    exact tracks.current key before isKept was known told
  · intro key monitor isKept now element wanted asks
    obtain ⟨before, was, source, _⟩ := earlier now
    rw [visibility]
    exact tracks.watched key before isKept was element wanted (source.symm.trans asks)
  · intro element key member
    rw [visibility] at member
    obtain ⟨before, wanted, was, asks⟩ := tracks.listed element key member
    exact ⟨_, wanted, found was, asks⟩
  · rw [visibility]
    exact tracks.distinct
  · rw [visibility]
    exact tracks.single
  · intro name key named
    rw [toggles] at named
    obtain ⟨before, was, host⟩ := tracks.toggles name key named
    exact ⟨_, found was, host⟩

section Installs

variable {made : Scene} {entry : Watch} {rewire : MonitorId → Slot Listener → Slot Listener}

theorem Installs.found
    {monitor : Monitor}
    (installs : made.Installs after entry rewire)
    (was : made.monitors.get? key = some monitor) :
    after.monitors.get? key = some { monitor with slot := rewire key monitor.slot } := by
  rw [installs.monitors, was, Option.map_some]

theorem Installs.tracks
    {kept : MonitorId → Prop}
    (installs : made.Installs after entry rewire)
    (tracks : made.Tracks kept) :
    after.Tracks kept :=
  tracks.rewire installs.monitors installs.visibility installs.viewport installs.toggles

end Installs

/-- A watch that is there keeps its monitors, and its monitors keep what they follow. -/
structure Spares (before after : Scene) : Prop where
  watches :
    ∀ key watch, before.watches.get? key = some watch → after.watches.get? key = some watch
  sources :
    ∀ key monitor, before.monitors.get? key = some monitor →
      ∃ now, after.monitors.get? key = some now ∧ now.source = monitor.source

theorem Grows.spares (grows : scene.Grows after) : scene.Spares after := by
  refine ⟨?_, ?_⟩
  · intro key watch found
    rwa [grows.watches]
  · intro key monitor found
    exact ⟨monitor, grows.monitors key monitor found, rfl⟩

theorem Wired.grow
    (wired : scene.Wired)
    (grows : scene.Grows after)
    (tracks : after.Tracks after.Watched) :
    after.Wired := by
  refine ⟨tracks, ?_, ?_, ?_⟩
  · intro key watch found living member among
    rw [grows.watches] at found
    obtain ⟨monitor, was, listens⟩ := wired.wired key watch found living member among
    exact ⟨monitor, grows.monitors member monitor was, listens⟩
  · rw [grows.watches]
    exact wired.owned
  · intro key watch found living
    rw [grows.watches] at found
    refine (wired.apart key watch found living).imp fun member among follows => ?_
    obtain ⟨monitor, was, _⟩ := wired.wired key watch found living member among
    exact follows.earlier (grows.monitors member monitor was) was rfl

/-- A watch has the same value as long as its monitors have. -/
theorem watchValue_congr
    {entry : Watch}
    (before : scene.watches.get? watch = some entry)
    (now : after.watches.get? watch = some entry)
    (values : ∀ key ∈ entry.monitors, after.value key = scene.value key) :
    after.watchValue watch = scene.watchValue watch := by
  simp only [watchValue, before, now, allHold]
  rw [Bool.eq_iff_iff, List.all_eq_true, List.all_eq_true]
  exact forall₂_congr fun key member => by rw [values key member]

/-- Monitors that are added change the value of no watch. -/
theorem Wired.watchValue_grows
    {entry : Watch}
    (wired : scene.Wired)
    (grows : scene.Grows after)
    (found : scene.watches.get? watch = some entry)
    (living : entry.dropped = false) :
    after.watchValue watch = scene.watchValue watch := by
  refine watchValue_congr found (by rwa [grows.watches]) ?_
  intro key member
  obtain ⟨monitor, there, _⟩ := wired.wired watch entry found living key member
  simp only [value, there, grows.monitors key monitor there]

theorem Sound.watchValue_grows
    {entry : Watch}
    (sound : scene.Sound)
    (grows : scene.Grows after)
    (found : scene.watches.get? watch = some entry) :
    after.watchValue watch = scene.watchValue watch :=
  sound.toWired.watchValue_grows grows found (sound.living watch entry found)

section Watch

variable
  {pinned : List MonitorId} {factories : Factories} {element : ElementId} {context : Context}

/-- A context that cannot be watched asks for something unknown; monitors may have been added. -/
theorem Wired.watch_error
    {fault : ContextFault}
    (wired : scene.Wired)
    (refused : scene.watch pinned factories element context = (after, .error fault)) :
    scene.Grows after ∧ after.Wired ∧
      ∃ condition ∈ context.conditions, condition.source? factories element = none := by
  obtain ⟨grows, tracks, unknown⟩ := wired.tracks.watch_error refused
  exact ⟨grows, wired.grow grows tracks, unknown⟩

theorem Sound.watch_error
    {fault : ContextFault}
    (sound : scene.Sound)
    (refused : scene.watch pinned factories element context = (after, .error fault)) :
    scene.Grows after ∧ after.Sound ∧
      ∃ condition ∈ context.conditions, condition.source? factories element = none := by
  obtain ⟨grows, wired, unknown⟩ := sound.toWired.watch_error refused
  refine ⟨grows, ⟨wired, ?_⟩, unknown⟩
  rw [grows.watches]
  exact sound.living

/-- Whether a monitor has the source that a condition asks for. -/
def Serves (scene : Scene) (factories : Factories) (element : ElementId) (condition : Condition)
    (key : MonitorId) : Prop :=
  ∃ monitor, scene.monitors.get? key = some monitor ∧
    ∀ source, condition.source? factories element = some source → monitor.source = source

/-- A monitor serves a condition as long as it keeps its source. -/
theorem Keeps.serves
    {factories : Factories}
    {element : ElementId}
    {condition : Condition}
    (keeps : scene.Keeps after key)
    (serves : scene.Serves factories element condition key) :
    after.Serves factories element condition key := by
  obtain ⟨monitor, was, asks⟩ := serves
  obtain ⟨now, found, same⟩ := keeps monitor was
  exact ⟨now, found, fun source asked => same.trans (asks source asked)⟩

section Installs

variable
  {made : Scene} {entry : Watch} {rewire : MonitorId → Slot Listener → Slot Listener}

/-- Watches that are there before a new one is installed are other watches, and they stay. -/
theorem Installs.watches_spared
    {known : Watch}
    (installs : made.Installs after entry rewire)
    (grows : scene.Grows made)
    (was : scene.watches.get? watch = some known) :
    watch ≠ made.watches.size ∧ after.watches.get? watch = some known := by
  have different : watch ≠ made.watches.size := by
    rw [grows.watches]
    exact Nat.ne_of_lt (Table.lt_size_of_found was)
  refine ⟨different, ?_⟩
  rw [installs.watches, if_neg different, grows.watches]
  exact was

theorem Installs.spares
    (installs : made.Installs after entry rewire)
    (grows : scene.Grows made) :
    scene.Spares after := by
  refine ⟨?_, ?_⟩
  · intro watch known was
    exact (installs.watches_spared grows was).2
  · intro key monitor was
    exact ⟨_, installs.found (grows.monitors key monitor was), rfl⟩

/-- A watch on monitors that were made for it reports as all others do. -/
theorem Wired.install
    {conditions : List Condition}
    (before : scene.Wired)
    (grows : scene.Grows made)
    (tracks : made.Tracks fun key => made.Watched key ∨ key ∈ entry.monitors)
    (answers : List.Forall₂ (scene.Answers made factories element) conditions entry.monitors)
    (apart : made.Apart entry.monitors)
    (installs : made.Installs after entry rewire)
    (owned :
      ∀ subscription ∈ entry.subscriptions, ∀ attachment,
        subscription.pending = some attachment → attachment.monitor ∈ entry.monitors) :
    after.Wired := by
  refine ⟨(installs.tracks tracks).mono ?_, ?_, ?_, ?_⟩
  · rintro key ⟨other, known, now, holds, member⟩
    rw [installs.watches] at now
    split at now
    · cases now
      exact .inr member
    · exact .inl ⟨other, known, now, holds, member⟩
  · intro other known now living member among
    rw [installs.watches] at now
    split at now
    · next last =>
        cases now
        obtain ⟨_, monitor, was, _⟩ := exists_answers answers among
        refine ⟨_, installs.found was, ?_⟩
        intro _
        rw [last]
        exact installs.wired member among _
    · rw [grows.watches] at now
      obtain ⟨monitor, was, listens⟩ := before.wired other known now living member among
      refine ⟨_, installs.found (grows.monitors member monitor was), ?_⟩
      intro away
      -- A monitor that was there before is not among the new ones.
      have absent : member ∉ entry.monitors := by
        intro new
        obtain ⟨_, other, isOther, _, fresh, _⟩ := exists_answers answers new
        cases (grows.monitors member monitor was).symm.trans isOther
        have below : scene.monitors.get? member = none :=
          (Table.get?_eq_none_iff _ _).mpr (fresh away)
        cases below.symm.trans was
      rw [installs.untouched member absent]
      exact listens away
  · intro other known now
    rw [installs.watches] at now
    split at now
    · cases now
      exact owned
    · rw [grows.watches] at now
      exact before.owned other known now
  · intro other known now living
    rw [installs.watches] at now
    split at now
    · cases now
      refine apart.imp fun member among follows => ?_
      obtain ⟨_, monitor, was, _⟩ := exists_answers answers among
      exact follows.earlier (installs.found was) was rfl
    · rw [grows.watches] at now
      refine (before.apart other known now living).imp fun member among follows => ?_
      obtain ⟨monitor, was, _⟩ := before.wired other known now living member among
      exact follows.earlier (installs.found (grows.monitors member monitor was)) was rfl

end Installs

/-- A watch that was made and given an audience serves its context; all others stay as they were. -/
theorem Wired.watch_ok
    (wired : scene.Wired)
    (watched : scene.watch pinned factories element context = (after, .ok watch))
    (audience : Audience) :
    let final := after.listen watch audience
    final.Wired ∧ scene.Spares final ∧ final.held = scene.held ∧
      (∀ other, other ≠ watch → final.watches.get? other = scene.watches.get? other) ∧
      (∀ other entry, scene.watches.get? other = some entry → entry.dropped = false →
        final.watchValue other = scene.watchValue other) ∧
      ∃ entry, final.watches.get? watch = some entry ∧ entry.dropped = false ∧
        entry.audience = some audience ∧
        List.Forall₂ (final.Serves factories element) context.conditions entry.monitors := by
  obtain ⟨made, keys, _, rfl, rfl, grows, tracks, apart, answers⟩ := wired.tracks.watch_ok watched
  obtain ⟨subscriptions, rewire, owned, installs⟩ := installs_addWatch made context keys audience
  intro final
  refine ⟨wired.install grows tracks answers apart installs owned, installs.spares grows,
    installs.held.trans grows.held, ?_, ?_, _, (installs.watches _).trans (if_pos rfl), rfl,
    rfl, ?_⟩
  · intro other different
    exact (installs.watches other).trans (by rw [if_neg different, grows.watches])
  · intro other entry was living
    refine watchValue_congr was (installs.watches_spared grows was).2 ?_
    intro key member
    obtain ⟨monitor, there, _⟩ := wired.wired other entry was living key member
    have here : final.monitors.get? key =
        some { monitor with slot := rewire key monitor.slot } :=
      installs.found (grows.monitors key monitor there)
    simp only [value, there, here, Option.map_some, Option.getD_some]
  · refine answers.imp ?_
    rintro condition key ⟨monitor, was, asks, _⟩
    exact ⟨_, installs.found was, asks⟩

theorem Sound.watch_ok
    (sound : scene.Sound)
    (watched : scene.watch pinned factories element context = (after, .ok watch))
    (audience : Audience) :
    let final := after.listen watch audience
    final.Sound ∧ scene.Spares final ∧
      (∀ other, other ≠ watch → final.watches.get? other = scene.watches.get? other) ∧
      (∀ other entry, scene.watches.get? other = some entry →
        final.watchValue other = scene.watchValue other) ∧
      ∃ entry, final.watches.get? watch = some entry ∧ entry.audience = some audience ∧
        List.Forall₂ (final.Serves factories element) context.conditions entry.monitors := by
  obtain ⟨wired, spares, _, others, values, entry, there, living, tells, serves⟩ :=
    sound.toWired.watch_ok watched audience
  refine ⟨⟨wired, ?_⟩, spares, others, ?_, entry, there, tells, serves⟩
  · intro other known now
    by_cases same : other = watch
    · subst same
      cases there.symm.trans now
      exact living
    · exact sound.living other known ((others other same).symm.trans now)
  · intro other known was
    exact values other known was (sound.living other known was)

end Watch

theorem Spares.follows (spares : scene.Spares after) (follows : scene.Follows key) :
    after.Follows key :=
  Keeps.follows (spares.sources key) follows

/-- Monitors that were refreshed have flipped if the value of a watch has changed. -/
structure Refreshes (before after : Scene) (flipped : List MonitorId) : Prop where
  wired : after.Wired
  watches : after.watches = before.watches
  sources :
    ∀ key monitor, before.monitors.get? key = some monitor →
      ∃ now, after.monitors.get? key = some now ∧ now.source = monitor.source
  reported :
    ∀ watch entry, before.watches.get? watch = some entry →
      after.watchValue watch ≠ before.watchValue watch →
        ∃ key ∈ flipped, key ∈ entry.monitors ∧ before.Follows key

theorem Refreshes.sound
    {flipped : List MonitorId}
    (refreshes : scene.Refreshes after flipped)
    (sound : scene.Sound) :
    after.Sound := by
  refine ⟨refreshes.wired, ?_⟩
  rw [refreshes.watches]
  exact sound.living

theorem Refreshes.spares
    {flipped : List MonitorId}
    (refreshes : scene.Refreshes after flipped) :
    scene.Spares after := by
  refine ⟨?_, refreshes.sources⟩
  intro key watch found
  rwa [refreshes.watches]

/-- Monitors do not look at the element tree. -/
theorem Wired.changeTree
    (wired : scene.Wired)
    (change : Tree → Tree) :
    (scene.changeTree change).Wired :=
  have tracks := wired.tracks
  ⟨⟨tracks.current, tracks.watched, tracks.listed, tracks.distinct, tracks.single,
    tracks.toggles, tracks.unshared⟩, wired.wired, wired.owned, wired.apart⟩

theorem Wired.refresh
    {judge : Source → Bool}
    {keys : List MonitorId}
    (wired : scene.Wired)
    (monitors : after.monitors = (scene.store judge keys).monitors)
    (watches : after.watches = scene.watches)
    (tracks : after.Tracks scene.Watched)
    (follow : ∀ key ∈ keys, scene.Follows key) :
    scene.Refreshes after (scene.flipped judge keys) := by
  have later {key : MonitorId} {monitor : Monitor}
      (was : scene.monitors.get? key = some monitor) :
      ∃ now, after.monitors.get? key = some now ∧ now.source = monitor.source ∧
        now.slot = monitor.slot := by
    rw [monitors, get?_store, was]
    split
    · exact ⟨_, rfl, rfl, rfl⟩
    · exact ⟨monitor, rfl, rfl, rfl⟩
  refine ⟨⟨?_, ?_, ?_, ?_⟩, watches, ?_, ?_⟩
  · refine tracks.mono ?_
    rintro key ⟨watch, entry, found, kept⟩
    exact ⟨watch, entry, by rwa [← watches], kept⟩
  · intro key watch found living member among
    rw [watches] at found
    obtain ⟨monitor, was, listens⟩ := wired.wired key watch found living member among
    obtain ⟨now, there, source, slot⟩ := later was
    exact ⟨now, there, by rwa [source, slot]⟩
  · rw [watches]
    exact wired.owned
  · intro key watch found living
    rw [watches] at found
    refine (wired.apart key watch found living).imp fun member among follows => ?_
    obtain ⟨monitor, was, _⟩ := wired.wired key watch found living member among
    obtain ⟨now, there, source, _⟩ := later was
    exact follows.earlier there was source
  · intro key monitor was
    obtain ⟨now, there, source, _⟩ := later was
    exact ⟨now, there, source⟩
  · intro watch entry found differs
    by_contra quiet
    apply differs
    refine watchValue_congr found (by rwa [watches]) ?_
    intro key member
    by_contra changed
    have changed : (scene.store judge keys).value key ≠ scene.value key := by
      rwa [value, ← monitors]
    have flips := mem_flipped_of_value_ne changed
    exact quiet ⟨key, flips, member, follow key (List.mem_of_mem_filter flips)⟩

/-- A monitor of a media query follows the viewport. -/
theorem follows_of_mem_mediaMonitors
    {pinned : List MonitorId}
    (member : key ∈ scene.mediaMonitors pinned) :
    scene.Follows key := by
  obtain ⟨monitor, found, media, _⟩ := mem_mediaMonitors.mp member
  refine ⟨monitor, found, ?_⟩
  intro host
  simp [host, Source.isMedia] at media

/-- A watcher of an element follows the element. -/
theorem Tracks.follows_of_watching
    {kept : MonitorId → Prop}
    {element : ElementId}
    (tracks : scene.Tracks kept)
    (watching : key ∈ scene.visibility.watchers element) :
    scene.Follows key := by
  obtain ⟨monitor, wanted, found, asks⟩ := tracks.listed element key watching
  refine ⟨monitor, found, ?_⟩
  rw [asks]
  simp

theorem Wired.resize
    (wired : scene.Wired)
    (pinned : List MonitorId)
    (viewport : Viewport) :
    scene.Refreshes (scene.resize pinned viewport).1 (scene.resize pinned viewport).2 := by
  refine wired.refresh rfl rfl ?_ fun key => follows_of_mem_mediaMonitors
  exact wired.tracks.resize (fun key watched => watched.isAlive pinned) viewport

theorem Wired.reveal
    (wired : scene.Wired)
    (pinned : List MonitorId)
    (element : ElementId)
    (visible : Bool) :
    scene.Refreshes (scene.reveal pinned element visible).1
      (scene.reveal pinned element visible).2 := by
  refine wired.refresh rfl rfl ?_ ?_
  · exact wired.tracks.reveal (fun key watched => watched.isAlive pinned) element visible
  · intro key member
    have watching := List.mem_of_mem_filter member
    rw [Visibility.watchers_set] at watching
    exact wired.tracks.follows_of_watching watching

end Scene

end Hydration
