import Hydration.Proofs.Sharing.Toggle
import Hydration.Proofs.Watching.Living

/-!
# Contexts that are refused

Whether a monitor can be made for a condition depends on the kinds of monitors that
are known and on the query alone.  The first condition for which there is none ends
the making of the others.  The monitors that were made before it are kept by nobody,
so the scene looks to everybody as it did.
-/

namespace Hydration

/-- Why no monitor can be made for a condition, if none can. -/
def Condition.fault? (condition : Condition) (factories : Factories) : Option ContextFault :=
  match factories.find? condition.monitor with
  | none => some (.unknownMonitor condition.monitor)
  | some .media =>
      match MediaQuery.parse condition.query with
      | .error fault =>
          some (.invalidQuery Factories.mediaName condition.query fault.message)
      | .ok _ => none
  | some .visible =>
      match Source.readVisibility condition.query with
      | .error fault => some fault
      | .ok _ => none
  | some (.reject name reason) => some (.invalidQuery name condition.query reason)
  | some _ => none

/-- A condition without a fault asks a kind of monitor that is known. -/
theorem Condition.contains_of_readable
    {condition : Condition}
    {factories : Factories}
    (readable : condition.fault? factories = none) :
    factories.contains condition.monitor = true := by
  unfold fault? at readable
  unfold Factories.contains
  cases known : factories.find? condition.monitor with
  | none => rw [known] at readable; cases readable
  | some factory => rfl

namespace Scene

variable {scene after : Scene} {pinned made : List MonitorId} {factories : Factories}
variable {element : ElementId} {condition : Condition} {earlier : List Condition}
variable {fault : ContextFault} {key : MonitorId}

/-- Makes the monitor of a condition, and notes the condition if a factory is called for it. -/
def makeOfNoting
    (scene : Scene)
    (pinned : List MonitorId)
    (factories : Factories)
    (element : ElementId)
    (condition : Condition) :
    List Condition × Scene × Except ContextFault MonitorId :=
  match factories.find? condition.monitor with
  | none => ([], scene, .error (.unknownMonitor condition.monitor))
  | some factory => ([condition], scene.make pinned factory element condition.query)

/-- Makes the monitors of all conditions, and notes those for which a factory is called. -/
def makeAllNoting
    (pinned : List MonitorId)
    (factories : Factories)
    (element : ElementId)
    (made : List MonitorId)
    (scene : Scene) :
    List Condition → List Condition × Scene × Except ContextFault (List MonitorId)
  | [] => ([], scene, .ok made)
  | condition :: rest =>
      match scene.makeOfNoting (made ++ pinned) factories element condition with
      | (noted, after, .error fault) => (noted, after, .error fault)
      | (noted, after, .ok monitor) =>
          let others := makeAllNoting pinned factories element (made ++ [monitor]) after rest
          (noted ++ others.1, others.2)

theorem makeOfNoting_eq :
    scene.makeOfNoting pinned factories element condition =
      ([condition].filter (factories.contains ·.monitor),
        scene.makeOf pinned factories condition.monitor element condition.query) := by
  unfold makeOfNoting makeOf
  cases known : factories.find? condition.monitor <;> simp [Factories.contains, known]

/-- Taking notes makes no difference to what is made. -/
theorem makeAllNoting_snd (conditions : List Condition) :
    (makeAllNoting pinned factories element made scene conditions).2 =
      makeAll pinned factories element made scene conditions := by
  induction conditions generalizing made scene with
  | nil => rfl
  | cons condition rest inductionHypothesis =>
      rw [makeAllNoting, makeAll, makeOfNoting_eq]
      generalize scene.makeOf (made ++ pinned) factories condition.monitor element
        condition.query = result
      obtain ⟨after, fault | monitor⟩ := result
      · rfl
      · exact inductionHypothesis

/-- A monitor is made for a condition unless there is a fault in it. -/
theorem makeOf_cases (scene : Scene) (pinned : List MonitorId) (element : ElementId) :
    (∃ fault, condition.fault? factories = some fault ∧
      scene.makeOf pinned factories condition.monitor element condition.query =
        (scene, .error fault)) ∨
    (condition.fault? factories = none ∧ ∃ after monitor,
      scene.makeOf pinned factories condition.monitor element condition.query =
        (after, .ok monitor)) := by
  unfold Condition.fault? makeOf
  cases factories.find? condition.monitor with
  | none => exact .inl ⟨_, rfl, rfl⟩
  | some factory =>
      cases factory with
      | media =>
          dsimp only [make]
          cases MediaQuery.parse condition.query with
          | error fault => exact .inl ⟨_, rfl, rfl⟩
          | ok parsed => exact .inr ⟨rfl, _, _, rfl⟩
      | visible =>
          dsimp only [make]
          cases Source.readVisibility condition.query with
          | error fault => exact .inl ⟨_, rfl, rfl⟩
          | ok wanted => exact .inr ⟨rfl, _, _, rfl⟩
      | reject name reason => exact .inl ⟨_, rfl, rfl⟩
      | toggle | shared | fixed | carried => exact .inr ⟨rfl, _, _, rfl⟩

/--
Conditions are made in turn until the first that has a fault, which ends it: no
factory is called for those behind it, and the scene is what the others have made of it.
-/
theorem makeAllNoting_of_fault
    (readable : ∀ other ∈ earlier, other.fault? factories = none)
    (amiss : condition.fault? factories = some fault)
    (later : List Condition) :
    makeAllNoting pinned factories element made scene (earlier ++ condition :: later) =
      (earlier ++ [condition].filter (factories.contains ·.monitor),
        (makeAll pinned factories element made scene earlier).1, .error fault) := by
  induction earlier generalizing made scene with
  | nil =>
      rw [List.nil_append, makeAllNoting, makeOfNoting_eq]
      rcases scene.makeOf_cases (made ++ pinned) element with ⟨cause, has, result⟩ | ⟨none, _⟩
      · cases amiss.symm.trans has
        rw [result]
        rfl
      · cases amiss.symm.trans none
  | cons first rest inductionHypothesis =>
      obtain ⟨fine, others⟩ := List.forall_mem_cons.mp readable
      rw [List.cons_append, makeAllNoting, makeAll, makeOfNoting_eq]
      rcases scene.makeOf_cases (made ++ pinned) element with ⟨cause, has, _⟩ | ⟨_, _, _, result⟩
      · cases fine.symm.trans has
      · rw [result]
        have known : [first].filter (factories.contains ·.monitor) = [first] :=
          List.filter_cons_of_pos (Condition.contains_of_readable fine)
        dsimp only
        rw [inductionHypothesis others, known]
        rfl

/-- The first condition with a fault says why a context is refused. -/
theorem watch_of_fault
    {context : Context}
    {later : List Condition}
    (split : context.conditions = earlier ++ condition :: later)
    (readable : ∀ other ∈ earlier, other.fault? factories = none)
    (amiss : condition.fault? factories = some fault) :
    scene.watch pinned factories element context =
      ((makeAll pinned factories element [] scene earlier).1, .error fault) := by
  rw [Scene.watch, split, ← makeAllNoting_snd, makeAllNoting_of_fault readable amiss]

/-- The listener of a toggle; nobody listens to a toggle that nobody has used. -/
def toggleListener? (scene : Scene) (name : String) : Option Listener :=
  (Text.valueOf? name scene.toggles).bind scene.listener?

/-- Monitors may have been added, but whoever looks at the scene finds it as it was. -/
structure Resembles (before after : Scene) (pinned : List MonitorId) : Prop where
  media : after.mediaMonitors pinned = before.mediaMonitors pinned
  monitors :
    ∀ key monitor, before.monitors.get? key = some monitor →
      after.monitors.get? key = some monitor
  toggles :
    ∀ name, after.toggleValue name = before.toggleValue name ∧
      after.toggleListener? name = before.toggleListener? name
  visible : ∀ element, after.isVisible element = before.isVisible element
  tree : after.tree = before.tree
  viewport : after.viewport = before.viewport
  watches : after.watches = before.watches
  held : after.held = before.held
  subscriptions : after.subscriptions = before.subscriptions

/-- Monitors that nobody keeps are not counted. -/
theorem Vital.mediaMonitors_grow (vital : scene.Vital pinned) (grows : scene.Grows after) :
    after.mediaMonitors pinned = scene.mediaMonitors pinned := by
  obtain ⟨more, size⟩ := Nat.exists_eq_add_of_le grows.size
  -- a living monitor was there before, so none of the new ones counts
  have same (key : MonitorId) :
      (after.monitors.get? key).any
          (fun monitor => monitor.source.isMedia && after.isAlive pinned key) =
        (scene.monitors.get? key).any
          (fun monitor => monitor.source.isMedia && scene.isAlive pinned key) := by
    rw [grows.isAlive]
    cases alive : scene.isAlive pinned key with
    | false => simp
    | true =>
        obtain ⟨monitor, found⟩ := vital.known key alive
        rw [found, grows.monitors key monitor found]
  have absent (offset : Nat) : scene.monitors.get? (scene.monitors.size + offset) = none :=
    (Table.get?_eq_none_iff _ _).mpr (Nat.le_add_right _ _)
  simp only [mediaMonitors, Table.keysWhere, same]
  rw [size, List.range_add, List.filter_append, List.append_right_eq_self]
  refine List.filter_eq_nil_iff.mpr fun key member => ?_
  obtain ⟨offset, _, rfl⟩ := List.mem_map.mp member
  rw [absent]
  exact Bool.false_ne_true

/-- A toggle that is used for the first time is like one that nobody has used. -/
theorem Vital.toggles_grow
    (vital : scene.Vital pinned)
    (grows : scene.Grows after)
    (name : String) :
    after.toggleValue name = scene.toggleValue name ∧
      after.toggleListener? name = scene.toggleListener? name := by
  unfold toggleValue toggleListener?
  rcases grows.toggles name with same | ⟨unused, key, named, found⟩
  · rw [same]
    cases named : Text.valueOf? name scene.toggles with
    | none => exact ⟨rfl, rfl⟩
    | some key =>
        obtain ⟨monitor, found, _⟩ := vital.tracks.toggles name key named
        refine ⟨?_, grows.listener? key⟩
        simp [value, found, grows.monitors key monitor found]
  · rw [unused, named]
    exact ⟨by simp [value, found], by simp [Scene.listener?, found, Slot.empty]⟩

theorem Vital.resembles (vital : scene.Vital pinned) (grows : scene.Grows after) :
    scene.Resembles after pinned where
  media := vital.mediaMonitors_grow grows
  monitors := grows.monitors
  toggles := vital.toggles_grow grows
  visible := grows.visible
  tree := grows.tree
  viewport := grows.viewport
  watches := grows.watches
  held := grows.held
  subscriptions := grows.subscriptions

/-- A context that is refused leaves everything as it was. -/
theorem Vital.resembles_of_refused
    {context : Context}
    (vital : scene.Vital pinned)
    (refused : scene.watch pinned factories element context = (after, .error fault)) :
    scene.Resembles after pinned := by
  rcases vital.tracks.watch_cases (fun _ => id) factories element context with
    ⟨_, _, result, grows, _⟩ | ⟨_, _, result, _⟩
  · cases result.symm.trans refused
    exact vital.resembles grows
  · cases result.symm.trans refused

end Scene

end Hydration
