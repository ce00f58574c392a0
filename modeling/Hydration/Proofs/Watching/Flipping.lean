import Hydration.Proofs.ContextConvergence

/-!
# Monitors that flip

When the viewport or the visible elements change, the monitors that are reported
as flipped are exactly those whose value has changed, each of them once.  So the
watch of a context is told of a change as often as conditions of the context
have another verdict than before.
-/

namespace Hydration

namespace Scene

/-- Whether a condition holds right now, asked afresh. -/
def meets (scene : Scene) (factories : Factories) (element : ElementId) (condition : Condition) :
    Bool :=
  (condition.source? factories element).bind scene.verdict? = some true

/-- How many conditions of a context have another verdict in one scene than in the other. -/
def flips (before after : Scene) (factories : Factories) (element : ElementId)
    (context : Context) : Nat :=
  context.conditions.countP fun condition =>
    before.meets factories element condition != after.meets factories element condition

variable
  {scene after : Scene} {key : MonitorId} {pinned flipped : List MonitorId}
  {factories : Factories} {element : ElementId} {context : Context}

theorem satisfies_eq_all :
    scene.satisfies factories element context =
      context.conditions.all (scene.meets factories element) :=
  rfl

/-- If a context holds both before and after a change then none of its conditions has flipped. -/
theorem flips_of_satisfies
    (before : scene.satisfies factories element context = true)
    (now : after.satisfies factories element context = true) :
    scene.flips after factories element context = 0 := by
  rw [satisfies_eq_all, List.all_eq_true] at before now
  refine List.countP_eq_zero.mpr fun condition member => ?_
  simp [before condition member, now condition member]

/-- If a context holds no longer, or holds now, then one of its conditions has flipped. -/
theorem flips_pos
    (differs : after.satisfies factories element context ≠
      scene.satisfies factories element context) :
    0 < scene.flips after factories element context := by
  by_contra none
  have none : scene.flips after factories element context = 0 := by omega
  have same : ∀ condition ∈ context.conditions,
      after.meets factories element condition = scene.meets factories element condition := by
    intro condition member
    simpa using Eq.symm (by simpa using List.countP_eq_zero.mp none condition member)
  apply differs
  rw [satisfies_eq_all, satisfies_eq_all, Bool.eq_iff_iff, List.all_eq_true, List.all_eq_true]
  exact forall₂_congr fun condition member => by rw [same condition member]

/-- A monitor is reported as flipped exactly if storing changes its value. -/
theorem mem_flipped_iff {judge : Source → Bool} {keys : List MonitorId} :
    key ∈ scene.flipped judge keys ↔ (scene.store judge keys).value key ≠ scene.value key := by
  refine ⟨?_, mem_flipped_of_value_ne⟩
  intro member
  obtain ⟨among, differs⟩ := List.mem_filter.mp member
  obtain ⟨monitor, found, away⟩ := (Option.any_eq_true ..).mp differs
  rw [value, value, get?_store, if_pos among, found]
  simpa using Ne.symm (by simpa using away)

/-- The monitors that flipped are living ones, each once, and just those with another value. -/
structure Reports
    (pinned : List MonitorId)
    (before after : Scene)
    (flipped : List MonitorId) : Prop
    extends before.Refreshes after flipped where
  changed : ∀ key, key ∈ flipped ↔ after.value key ≠ before.value key
  distinct : flipped.Nodup
  alive : ∀ key ∈ flipped, before.isAlive pinned key
  follows : ∀ key ∈ flipped, before.Follows key

theorem Refreshes.reports
    {judge : Source → Bool}
    {keys : List MonitorId}
    (refreshes : scene.Refreshes after (scene.flipped judge keys))
    (monitors : after.monitors = (scene.store judge keys).monitors)
    (distinct : keys.Nodup)
    (alive : ∀ key ∈ keys, scene.isAlive pinned key)
    (follows : ∀ key ∈ keys, scene.Follows key) :
    scene.Reports pinned after (scene.flipped judge keys) := by
  refine ⟨refreshes, ?_, distinct.filter _, ?_, ?_⟩
  · intro key
    have now : after.value key = (scene.store judge keys).value key := by
      rw [value, monitors, value]
    rw [mem_flipped_iff, now]
  · exact fun key member => alive key (List.mem_of_mem_filter member)
  · exact fun key member => follows key (List.mem_of_mem_filter member)

theorem Wired.reports_resize
    (wired : scene.Wired)
    (pinned : List MonitorId)
    (viewport : Viewport) :
    scene.Reports pinned (scene.resize pinned viewport).1 (scene.resize pinned viewport).2 := by
  refine (wired.resize pinned viewport).reports rfl ?_ ?_ fun key => follows_of_mem_mediaMonitors
  · exact List.nodup_range.filter _
  · intro key member
    obtain ⟨_, _, _, alive⟩ := mem_mediaMonitors.mp member
    exact alive

theorem Wired.reports_reveal
    (wired : scene.Wired)
    (pinned : List MonitorId)
    (element : ElementId)
    (visible : Bool) :
    scene.Reports pinned (scene.reveal pinned element visible).1
      (scene.reveal pinned element visible).2 := by
  have watchers : (scene.visibility.set element visible).watchers element =
      scene.visibility.watchers element := Visibility.watchers_set ..
  refine (wired.reveal pinned element visible).reports rfl ?_ ?_ ?_
  · rw [watchers]
    exact (wired.tracks.single element).filter _
  · intro key member
    exact (List.mem_filter.mp member).2
  · intro key member
    rw [watchers] at member
    exact wired.tracks.follows_of_watching (List.mem_of_mem_filter member)

section Watch

variable {watch : WatchId} {entry : Watch}

/-- As many of a watch's monitors are reported as have another value than before. -/
theorem Reports.countP_monitors
    (reports : scene.Reports pinned after flipped)
    (wired : scene.Wired)
    (found : scene.watches.get? watch = some entry)
    (living : entry.dropped = false) :
    flipped.countP (fun key => key ∈ entry.monitors) =
      entry.monitors.countP fun key => scene.value key != after.value key := by
  rw [List.countP_eq_length_filter, List.countP_eq_length_filter]
  refine List.Perm.length_eq ((List.perm_ext_iff_of_nodup (reports.distinct.filter _) ?_).mpr ?_)
  · -- A monitor that follows the host may serve two conditions, but it has not flipped.
    refine List.Pairwise.imp_of_mem ?_ ((wired.apart watch entry found living).filter _)
    intro first second _ member distinct
    have differs : scene.value second ≠ after.value second := by
      simpa using (List.mem_filter.mp member).2
    exact distinct (reports.follows second ((reports.changed second).mpr (Ne.symm differs)))
  · intro key
    simp only [List.mem_filter, reports.changed, decide_eq_true_eq, bne_iff_ne]
    exact ⟨fun both => ⟨both.2, Ne.symm both.1⟩, fun both => ⟨Ne.symm both.2, both.1⟩⟩

/-- A monitor that flipped and that belongs to a watch reports to it. -/
theorem Reports.listener
    (reports : scene.Reports pinned after flipped)
    (found : scene.watches.get? watch = some entry)
    (living : entry.dropped = false)
    (mine : key ∈ entry.monitors)
    (member : key ∈ flipped) :
    after.listener? key = some (.watch watch) := by
  obtain ⟨now, there, listens⟩ :=
    reports.wired.wired watch entry (by rwa [reports.watches]) living key mine
  obtain ⟨same, isSame, away⟩ := reports.spares.follows (reports.follows key member)
  cases there.symm.trans isSame
  rw [listener?, there, Option.bind_some, listens away]

/-- As many of a watch's monitors are reported as conditions of its context have flipped. -/
theorem Reports.countP_eq_flips
    (reports : scene.Reports pinned after flipped)
    (wired : scene.Wired)
    (found : scene.watches.get? watch = some entry)
    (living : entry.dropped = false)
    (serves : List.Forall₂ (scene.Serves factories element) context.conditions entry.monitors)
    (known :
      ∀ condition ∈ context.conditions, (condition.source? factories element).isSome) :
    flipped.countP (fun key => key ∈ entry.monitors) =
      scene.flips after factories element context := by
  rw [reports.countP_monitors wired found living, flips]
  have now : after.watches.get? watch = some entry := by rwa [reports.watches]
  have watched : ∀ key ∈ entry.monitors, scene.Watched key ∧ after.Watched key :=
    fun key member => ⟨⟨watch, entry, found, living, member⟩, watch, entry, now, living, member⟩
  generalize context.conditions = conditions at serves known
  generalize entry.monitors = keys at serves watched
  induction serves with
  | nil => rfl
  | @cons condition key conditions keys first _ inductionHypothesis =>
      obtain ⟨was, isNow⟩ := watched key List.mem_cons_self
      have asks := known condition List.mem_cons_self
      have before : scene.value key = scene.meets factories element condition :=
        wired.value_eq was first asks
      obtain ⟨monitor, there, source⟩ := first
      obtain ⟨later, isLater, same⟩ := reports.sources key monitor there
      have after : after.value key = after.meets factories element condition :=
        reports.wired.value_eq isNow
          ⟨later, isLater, fun asked known => same.trans (source asked known)⟩ asks
      have others := inductionHypothesis
        (fun condition member => known condition (List.mem_cons_of_mem _ member))
        (fun key member => watched key (List.mem_cons_of_mem _ member))
      rw [List.countP_cons, List.countP_cons, others, before, after]

end Watch

end Scene

end Hydration
