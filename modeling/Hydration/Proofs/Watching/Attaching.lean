import Hydration.Proofs.Watching.Dropping

/-!
# Watches attach to monitors

Each attachment to a monitor has a generation of its own, and a subscription can
undo the attachment that it was made for and no other.  A watch that goes silent
empties the slots whose latest attachment it can undo; a watch that begins to
listen is the latest attachment to each of its monitors.  Whoever comes and goes,
no monitor changes its value.
-/

namespace Hydration

/-- What a watch can still undo. -/
def Watch.attachments (watch : Watch) : List Attachment :=
  watch.subscriptions.filterMap Subscription.pending

namespace Scene

variable {scene after : Scene} {watch other : WatchId} {key : MonitorId} {monitor : Monitor}
variable {entry : Watch} {attachment : Attachment} {audience : Audience}

/-- Whether a watch can undo an attachment. -/
def owns (scene : Scene) (watch : WatchId) (attachment : Attachment) : Bool :=
  (scene.watches.get? watch).any fun entry => entry.attachments.contains attachment

theorem owns_iff :
    scene.owns watch attachment ↔
      ∃ entry, scene.watches.get? watch = some entry ∧ attachment ∈ entry.attachments := by
  simp [owns, Option.any_eq_true]

/-- Each generation that a watch was attached with is one of its attachments. -/
theorem mem_attachments_attachAll
    {keys : List MonitorId}
    {generation : Nat}
    (found : scene.monitors.get? key = some monitor) :
    ⟨key, generation⟩ ∈ (attachAll watch keys scene).2.filterMap Subscription.pending ↔
      monitor.slot.generation < generation ∧
        generation ≤ monitor.slot.generation + keys.count key := by
  induction keys generalizing scene monitor with
  | nil =>
      simp only [attachAll, List.filterMap_nil, List.not_mem_nil, List.count_nil, false_iff]
      omega
  | cons first rest inductionHypothesis =>
      simp only [attachAll, attach, Subscription.undoing, List.filterMap_cons, List.mem_cons]
      by_cases here : key = first
      · subst here
        have now : (scene.attach key (.watch watch)).1.monitors.get? key =
            some { monitor with slot := monitor.slot.attach (.watch watch) } := by
          simp [attach, Table.get?_modify, found]
        have later := inductionHypothesis now
        simp only [attach, found] at later
        simp only [found, Option.map_some, Option.getD_some, Attachment.mk.injEq, true_and, later,
          Slot.generation_attach, List.count_cons_self]
        omega
      · have now : (scene.attach first (.watch watch)).1.monitors.get? key = some monitor := by
          simp [attach, Table.get?_modify, here, found]
        have later := inductionHypothesis now
        simp only [attach] at later
        simp [later, here, List.count_cons_of_ne (Ne.symm here)]

/-- A watch that goes silent empties the slots whose latest attachment it owns. -/
theorem get?_silence (scene : Scene) (watch : WatchId) (key : MonitorId) :
    (scene.silence watch).monitors.get? key =
      (scene.monitors.get? key).map fun monitor =>
        { monitor with
          slot :=
            if scene.owns watch ⟨key, monitor.slot.generation⟩ then emptied monitor.slot
            else monitor.slot } := by
  simp only [silence, get?_foldl_cancel]
  congr 1
  funext monitor
  cases found : scene.watches.get? watch with
  | none => simp [owns, found]
  | some entry => simp [owns, found, Watch.attachments]

/-- Nothing else changes but that the watch has no subscriptions any more. -/
theorem silence_eq (scene : Scene) (watch : WatchId) :
    scene.silence watch =
      { scene with
        monitors := (scene.silence watch).monitors
        watches :=
          scene.watches.modify watch fun entry => { entry with subscriptions := [] } } := by
  obtain ⟨monitors, _, same, _⟩ :=
    foldl_cancel_eq (((scene.watches.get? watch).map Watch.subscriptions).getD []) scene
  simp only [silence, same]

/-- A watch went silent, and no more was done to it than to dispose it or drop it. -/
structure Silences (before after : Scene) (watch : WatchId) : Prop where
  monitors :
    ∀ key, after.monitors.get? key =
      (before.monitors.get? key).map fun monitor =>
        { monitor with
          slot :=
            if before.owns watch ⟨key, monitor.slot.generation⟩ then emptied monitor.slot
            else monitor.slot }
  others : ∀ other, other ≠ watch → after.watches.get? other = before.watches.get? other
  own :
    ∀ entry, after.watches.get? watch = some entry →
      entry.subscriptions = [] ∧ entry.disposed ∧
        ∃ was, before.watches.get? watch = some was ∧ entry.monitors = was.monitors ∧
          (was.dropped → entry.dropped)
  visibility : after.visibility = before.visibility
  viewport : after.viewport = before.viewport
  toggles : after.toggles = before.toggles
  held : after.held = before.held

theorem silences_of_change
    (scene : Scene)
    (watch : WatchId)
    (change : Watch → Watch)
    (changed :
      ∀ was, scene.watches.get? watch = some was →
        let entry := change { was with subscriptions := [] }
        entry.subscriptions = [] ∧ entry.disposed ∧ entry.monitors = was.monitors ∧
          (was.dropped → entry.dropped)) :
    scene.Silences
      { scene.silence watch with
        watches := (scene.silence watch).watches.modify watch change } watch := by
  rw [silence_eq]
  refine ⟨get?_silence scene watch, ?_, ?_, rfl, rfl, rfl, rfl⟩
  · intro other different
    simp only [Table.get?_modify, if_neg different]
  · intro entry found
    simp only [Table.get?_modify, if_true, Option.map_map] at found
    obtain ⟨was, there, rfl⟩ := Option.map_eq_some_iff.mp found
    obtain ⟨silent, disposed, same, dropped⟩ := changed was there
    exact ⟨silent, disposed, was, there, same, dropped⟩

theorem silences_disposeWatch (scene : Scene) (watch : WatchId) :
    scene.Silences (scene.disposeWatch watch) watch :=
  silences_of_change scene watch _ fun _ _ => ⟨rfl, rfl, rfl, id⟩

theorem silences_dropWatch (scene : Scene) (watch : WatchId) :
    scene.Silences (scene.dropWatch watch) watch := by
  have dropped := silences_of_change scene watch
    (fun entry => { entry with disposed := true, dropped := true })
    fun _ _ => ⟨rfl, rfl, rfl, fun _ => rfl⟩
  simpa [dropWatch, disposeWatch, Table.modify, List.modify_modify_eq, Function.comp_def]
    using dropped

/-- A watch was attached to its monitors and given an audience. -/
structure Listens (before after : Scene) (watch : WatchId) (entry : Watch) (audience : Audience) :
    Prop where
  monitors :
    ∀ key, after.monitors.get? key =
      (before.monitors.get? key).map fun monitor =>
        { monitor with
          slot :=
            if key ∈ entry.monitors then
              ⟨monitor.slot.generation + entry.monitors.count key, some (.watch watch)⟩
            else if before.owns watch ⟨key, monitor.slot.generation⟩ then emptied monitor.slot
            else monitor.slot }
  others : ∀ other, other ≠ watch → after.watches.get? other = before.watches.get? other
  own :
    ∃ subscriptions,
      after.watches.get? watch = some { entry with subscriptions, audience := some audience } ∧
        (∀ attachment ∈ subscriptions.filterMap Subscription.pending,
          attachment.monitor ∈ entry.monitors) ∧
        ∀ key monitor generation, before.monitors.get? key = some monitor →
          (⟨key, generation⟩ ∈ subscriptions.filterMap Subscription.pending ↔
            monitor.slot.generation < generation ∧
              generation ≤ monitor.slot.generation + entry.monitors.count key)
  visibility : after.visibility = before.visibility
  viewport : after.viewport = before.viewport
  toggles : after.toggles = before.toggles
  held : after.held = before.held

/-- A watch that was disposed, or is not there, only goes silent instead of listening. -/
theorem silences_listen
    (ended : ∀ entry, scene.watches.get? watch = some entry → entry.disposed)
    (audience : Audience) :
    scene.Silences (scene.listen watch audience) watch := by
  have unchanged : scene.Silences
      { scene.silence watch with watches := (scene.silence watch).watches.modify watch id } watch :=
    silences_of_change scene watch id fun was found => ⟨rfl, ended was found, rfl, id⟩
  have same : scene.listen watch audience = scene.silence watch := by
    have now : (scene.silence watch).watches.get? watch =
        (scene.watches.get? watch).map fun entry => { entry with subscriptions := [] } := by
      rw [silence_eq]
      simp [Table.get?_modify]
    cases found : scene.watches.get? watch with
    | none => simp [listen, now, found]
    | some entry => simp [listen, now, found, ended entry found]
  rw [same]
  simpa [Table.modify, List.modify_id] using unchanged

/-- A watch that was not disposed listens to its monitors. -/
theorem listens_listen
    (found : scene.watches.get? watch = some entry)
    (living : entry.disposed = false)
    (audience : Audience) :
    scene.Listens (scene.listen watch audience) watch entry audience := by
  have now : (scene.silence watch).watches.get? watch =
      some { entry with subscriptions := [] } := by
    rw [silence_eq]
    simp [Table.get?_modify, found]
  obtain ⟨monitors, _, same, _⟩ := attachAll_eq watch entry.monitors (scene.silence watch)
  have kept : monitors = (attachAll watch entry.monitors (scene.silence watch)).1.monitors := by
    rw [same]
  have listened :
      scene.listen watch audience =
        { scene.silence watch with
          monitors
          watches := (scene.silence watch).watches.modify watch fun entry' =>
            { entry' with
              subscriptions := (attachAll watch entry.monitors (scene.silence watch)).2
              audience := some audience } } := by
    simp only [listen, now, living, same]
    rfl
  have field {α : Type} (get : Scene → α) :
      get (scene.silence watch) = get { scene with
        monitors := (scene.silence watch).monitors
        watches := scene.watches.modify watch fun entry => { entry with subscriptions := [] } } :=
    congrArg get (silence_eq scene watch)
  rw [listened]
  refine ⟨?_, ?_, ⟨(attachAll watch entry.monitors (scene.silence watch)).2, ?_, ?_, ?_⟩,
    field Scene.visibility, field Scene.viewport, field Scene.toggles, field Scene.held⟩
  · intro key
    dsimp only
    rw [kept, get?_attachAll, get?_silence, Option.map_map]
    congr 1
    funext monitor
    by_cases mine : key ∈ entry.monitors
    · by_cases latest : scene.owns watch ⟨key, monitor.slot.generation⟩ <;>
        simp [mine, latest, emptied]
    · simp [mine]
  · intro other different
    rw [Table.get?_modify, if_neg different, field Scene.watches, Table.get?_modify,
      if_neg different]
  · rw [Table.get?_modify, if_pos rfl, now]
    rfl
  · intro attachment member
    obtain ⟨subscription, among, pending⟩ := List.mem_filterMap.mp member
    exact mem_attachAll among pending
  · intro key monitor generation there
    have silenced := get?_silence scene watch key
    rw [there, Option.map_some] at silenced
    rw [mem_attachments_attachAll silenced]
    dsimp only
    split <;> rfl

/-- A watch that is given an audience listens to its monitors, or goes silent as it has ended. -/
theorem listen_cases (scene : Scene) (watch : WatchId) (audience : Audience) :
    ((∀ entry, scene.watches.get? watch = some entry → entry.disposed) ∧
      scene.Silences (scene.listen watch audience) watch) ∨
    ∃ entry, scene.watches.get? watch = some entry ∧ entry.disposed = false ∧
      scene.Listens (scene.listen watch audience) watch entry audience := by
  by_cases ended : ∀ entry, scene.watches.get? watch = some entry → entry.disposed
  · exact .inl ⟨ended, silences_listen ended audience⟩
  · push Not at ended
    obtain ⟨entry, found, living⟩ := ended
    have living : entry.disposed = false := by simpa using living
    exact .inr ⟨entry, found, living, listens_listen found living audience⟩

theorem toggles_listen (scene : Scene) (watch : WatchId) (audience : Audience) :
    (scene.listen watch audience).toggles = scene.toggles := by
  rcases listen_cases scene watch audience with ⟨_, silences⟩ | ⟨_, _, _, listens⟩
  · exact silences.toggles
  · exact listens.toggles

theorem owns_congr (same : after.watches.get? watch = scene.watches.get? watch) :
    after.owns watch attachment = scene.owns watch attachment := by
  rw [owns, same, owns]

/-- A watch that is made has nothing to undo yet. -/
theorem owns_addWatch (context : Context) (keys : List MonitorId) :
    (scene.addWatch context keys).owns watch attachment = scene.owns watch attachment := by
  by_cases new : watch = scene.watches.size
  · have absent : scene.watches.get? watch = none :=
      (Table.get?_eq_none_iff _ _).mpr (Nat.le_of_eq new.symm)
    rw [owns, owns, absent]
    simp [addWatch, Table.get?_push, new, Watch.attachments]
  · exact owns_congr ((Table.get?_push _ _ _).trans (if_neg new))

/-- A watch that went silent has nothing to undo any more. -/
theorem Silences.owns_iff (silences : scene.Silences after watch) :
    after.owns other attachment ↔ other ≠ watch ∧ scene.owns other attachment := by
  by_cases same : other = watch
  · subst same
    rw [Scene.owns_iff]
    refine ⟨?_, fun both => (both.1 rfl).elim⟩
    rintro ⟨entry, found, member⟩
    rw [Watch.attachments, (silences.own entry found).1] at member
    cases member
  · rw [owns_congr (silences.others other same)]
    exact (and_iff_right same).symm

/-- What a watch can undo that has begun to listen is what it was attached with just now. -/
theorem Listens.owns_self
    {generation : Nat}
    (listens : scene.Listens after watch entry audience)
    (found : scene.monitors.get? key = some monitor) :
    after.owns watch ⟨key, generation⟩ ↔
      monitor.slot.generation < generation ∧
        generation ≤ monitor.slot.generation + entry.monitors.count key := by
  obtain ⟨subscriptions, there, _, attached⟩ := listens.own
  rw [← attached key monitor generation found]
  simp [owns, there, Watch.attachments]

/-- A watch is attached to its own monitors. -/
theorem Listens.mem_monitors
    (listens : scene.Listens after watch entry audience)
    (owned : after.owns watch attachment) :
    attachment.monitor ∈ entry.monitors := by
  obtain ⟨subscriptions, there, mine, _⟩ := listens.own
  obtain ⟨known, found, member⟩ := owns_iff.mp owned
  cases there.symm.trans found
  exact mine attachment member

theorem Listens.owns_other
    (listens : scene.Listens after watch entry audience)
    (different : other ≠ watch) :
    after.owns other attachment = scene.owns other attachment :=
  owns_congr (listens.others other different)

/-- Watches keep their monitors, and none is held again that was dropped. -/
def Ages (before after : Scene) : Prop :=
  ∀ watch entry, after.watches.get? watch = some entry →
    ∃ was, before.watches.get? watch = some was ∧ entry.monitors = was.monitors ∧
      (was.dropped → entry.dropped)

theorem Silences.ages (silences : scene.Silences after watch) : scene.Ages after := by
  intro other entry found
  by_cases same : other = watch
  · subst same
    exact (silences.own entry found).2.2
  · exact ⟨entry, (silences.others other same).symm.trans found, rfl, id⟩

theorem Listens.ages
    (found : scene.watches.get? watch = some entry)
    (listens : scene.Listens after watch entry audience) :
    scene.Ages after := by
  intro other known now
  by_cases same : other = watch
  · subst same
    obtain ⟨_, there, _⟩ := listens.own
    cases there.symm.trans now
    exact ⟨entry, found, rfl, id⟩
  · exact ⟨known, (listens.others other same).symm.trans now, rfl, id⟩

/-- No monitor is lost, and none changes its value. -/
def KeepsValues (before after : Scene) : Prop :=
  ∀ key monitor, before.monitors.get? key = some monitor →
    ∃ now, after.monitors.get? key = some now ∧ now.value = monitor.value

theorem KeepsValues.of_eq (monitors : after.monitors = scene.monitors) :
    scene.KeepsValues after :=
  fun _ monitor found => ⟨monitor, by rw [monitors, found], rfl⟩

theorem KeepsValues.trans
    {middle : Scene}
    (earlier : scene.KeepsValues middle)
    (later : middle.KeepsValues after) :
    scene.KeepsValues after := by
  intro key monitor found
  obtain ⟨between, there, same⟩ := earlier key monitor found
  obtain ⟨now, here, sameToo⟩ := later key between there
  exact ⟨now, here, sameToo.trans same⟩

theorem Grows.keepsValues (grows : scene.Grows after) : scene.KeepsValues after :=
  fun key monitor found => ⟨monitor, grows.monitors key monitor found, rfl⟩

/-- Listeners that come and go change no value. -/
theorem KeepsValues.rewire
    (slots : MonitorId → Monitor → Slot Listener)
    (monitors :
      ∀ key, after.monitors.get? key =
        (scene.monitors.get? key).map fun monitor =>
          { monitor with slot := slots key monitor }) :
    scene.KeepsValues after :=
  fun key monitor found =>
    ⟨{ monitor with slot := slots key monitor }, (monitors key).trans (by rw [found]; rfl), rfl⟩

theorem Silences.keepsValues (silences : scene.Silences after watch) : scene.KeepsValues after :=
  .rewire _ silences.monitors

theorem keepsValues_listen (scene : Scene) (watch : WatchId) (audience : Audience) :
    scene.KeepsValues (scene.listen watch audience) := by
  rcases listen_cases scene watch audience with ⟨_, silences⟩ | ⟨_, _, _, listens⟩
  · exact silences.keepsValues
  · exact .rewire _ listens.monitors

/-- A change of one monitor that leaves its value. -/
theorem KeepsValues.modify
    {monitor : MonitorId}
    {change : Monitor → Monitor}
    (monitors : after.monitors = scene.monitors.modify monitor change)
    (kept : ∀ entry, (change entry).value = entry.value) :
    scene.KeepsValues after := by
  intro key entry found
  rw [monitors, Table.get?_modify, found]
  split
  · exact ⟨change entry, rfl, kept entry⟩
  · exact ⟨entry, rfl, rfl⟩

theorem keepsValues_subscribe (scene : Scene) (monitor : MonitorId) (script : Nat) :
    scene.KeepsValues (scene.subscribe monitor script) :=
  .modify rfl fun _ => rfl

theorem keepsValues_cancel (scene : Scene) (subscription : Subscription Attachment) :
    scene.KeepsValues (scene.cancel subscription) := by
  unfold cancel
  split
  · exact .of_eq rfl
  · exact .modify rfl fun _ => rfl

theorem keepsValues_unsubscribe (scene : Scene) (subscription : Nat) :
    scene.KeepsValues (scene.unsubscribe subscription) := by
  unfold unsubscribe
  split
  · exact .of_eq rfl
  · exact (keepsValues_cancel scene _).trans (.of_eq rfl)

theorem keepsValues_dropSubscription (scene : Scene) (subscription : Nat) :
    scene.KeepsValues (scene.dropSubscription subscription) :=
  (keepsValues_unsubscribe scene subscription).trans (.of_eq rfl)

end Scene

end Hydration
