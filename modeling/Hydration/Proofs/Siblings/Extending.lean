import Hydration.Proofs.Watching.Making

/-!
# What making the monitors of a context adds

As long as monitors follow the viewport and visible elements alone, what is made
for a context depends on these and on nothing else of the scene: a new monitor
for each condition, up to the first one that asks for nothing.  Nobody keeps the
monitors that were made by then, and nothing else has changed that those who are
kept could see.
-/

namespace Hydration

/-- Whether all kinds of monitors follow the viewport or the visibility of an element. -/
def Factories.IsHeadless (factories : Factories) : Prop :=
  ∀ kind factory, factories.find? kind = some factory → factory = .media ∨ factory = .visible

/-- The kinds of monitors of the scene follow nothing else. -/
theorem Factories.IsHeadless.install : Factories.empty.install.IsHeadless := by
  intro kind factory known
  rw [find?, Factories.install, register, register, Text.valueOf?_assign, Text.valueOf?_assign]
    at known
  split at known
  · exact .inr (Option.some.inj known).symm
  · split at known
    · exact .inl (Option.some.inj known).symm
    · cases known

/-- The monitor that a condition asks for on a scene, or why there is none. -/
def Condition.monitor? (condition : Condition) (factories : Factories) (scene : Scene)
    (element : ElementId) : Except ContextFault Monitor :=
  match factories.find? condition.monitor with
  | some .media =>
      match MediaQuery.parse condition.query with
      | .error fault =>
          .error (.invalidQuery Factories.mediaName condition.query fault.message)
      | .ok parsed => .ok ⟨.media parsed, parsed.holds scene.viewport, Slot.empty⟩
  | some .visible =>
      match Source.readVisibility condition.query with
      | .error fault => .error fault
      | .ok wanted =>
          .ok ⟨.visible element wanted, scene.isVisible element == wanted, Slot.empty⟩
  | _ => .error (.unknownMonitor condition.monitor)

/-- A condition asks for a monitor of its source, on whatever scene. -/
theorem Condition.source?_eq
    (condition : Condition)
    (factories : Factories)
    (scene : Scene)
    (element : ElementId) :
    condition.source? factories element =
      (condition.monitor? factories scene element).toOption.map Monitor.source := by
  unfold source? monitor?
  generalize factories.find? condition.monitor = found
  cases found with
  | none => rfl
  | some factory =>
      cases factory with
      | media => cases MediaQuery.parse condition.query <;> rfl
      | visible => cases Source.readVisibility condition.query <;> rfl
      | _ => rfl

/-- What conditions ask for up to the first that asks for nothing, and its fault. -/
def Scene.plan (scene : Scene) (factories : Factories) (element : ElementId) :
    List Condition → List Monitor × Option ContextFault
  | [] => ([], none)
  | condition :: rest =>
      match condition.monitor? factories scene element with
      | .error fault => ([], some fault)
      | .ok entry =>
          let later := scene.plan factories element rest
          (entry :: later.1, later.2)

/-- Whether a source is the visibility of an element. -/
def Source.isOf (element : ElementId) : Source → Bool
  | visible other _ => other = element
  | _ => false

/-- The keys of those among new monitors that follow an element. -/
def followers (element : ElementId) : MonitorId → List Monitor → List MonitorId
  | _, [] => []
  | key, entry :: rest =>
      if entry.source.isOf element then key :: followers element (key + 1) rest
      else followers element (key + 1) rest

theorem followers_append (element : ElementId) (key : MonitorId) (first second : List Monitor) :
    followers element key (first ++ second) =
      followers element key first ++ followers element (key + first.length) second := by
  induction first generalizing key with
  | nil => rfl
  | cons entry rest inductionHypothesis =>
      have later := inductionHypothesis (key + 1)
      rw [Nat.add_assoc, Nat.add_comm 1] at later
      simp only [List.cons_append, followers, later, List.length_cons]
      split <;> rfl

namespace Scene

variable {scene after : Scene} {factories : Factories} {element : ElementId}

/-- The plan depends on the viewport and on what can be seen. -/
theorem plan_congr
    (viewport : after.viewport = scene.viewport)
    (seen : ∀ element, after.isVisible element = scene.isVisible element)
    (conditions : List Condition) :
    after.plan factories element conditions = scene.plan factories element conditions := by
  have same (condition : Condition) :
      condition.monitor? factories after element = condition.monitor? factories scene element := by
    simp only [Condition.monitor?, viewport, seen]
  induction conditions with
  | nil => rfl
  | cons condition rest inductionHypothesis =>
      simp only [plan, same, inductionHypothesis]

/-- Elements have one entry each, and those who watch them are monitors. -/
structure Tidy (scene : Scene) : Prop where
  distinct : scene.visibility.Distinct
  known : ∀ element, ∀ key ∈ scene.visibility.watchers element, key < scene.monitors.size

/-- Monitors were added, and nothing has changed for those that are alive. -/
structure Extends (pinned : List MonitorId) (added : List Monitor) (before after : Scene) :
    Prop where
  tree : after.tree = before.tree
  viewport : after.viewport = before.viewport
  watches : after.watches = before.watches
  held : after.held = before.held
  monitors : after.monitors.entries = before.monitors.entries ++ added
  seen : ∀ element, after.isVisible element = before.isVisible element
  tidy : before.Tidy → after.Tidy
  watchers :
    before.Tidy → ∀ (element : ElementId) (among : MonitorId → Bool),
      (∀ key < before.monitors.size, among key → before.isAlive pinned key) →
        (after.visibility.watchers element).filter among =
          (before.visibility.watchers element ++
            followers element before.monitors.size added).filter among

theorem Extends.refl (pinned : List MonitorId) (scene : Scene) : scene.Extends pinned [] scene :=
  ⟨rfl, rfl, rfl, rfl, (List.append_nil _).symm, fun _ => rfl, id,
    fun _ _ _ _ => by rw [followers, List.append_nil]⟩

theorem Extends.size
    {pinned : List MonitorId}
    {added : List Monitor}
    (extension : scene.Extends pinned added after) :
    after.monitors.size = scene.monitors.size + added.length := by
  rw [Table.size, extension.monitors, List.length_append]
  rfl

theorem Extends.keeps
    {pinned : List MonitorId}
    {added : List Monitor}
    (extension : scene.Extends pinned added after) :
    after.keeps = scene.keeps := by
  funext key
  simp only [Scene.keeps, extension.watches, extension.held]

/-- One more monitor may be followed by others, as long as it is pinned meanwhile. -/
theorem Extends.trans
    {first second third : Scene}
    {pinned more : List MonitorId}
    {added others : List Monitor}
    (earlier : first.Extends pinned added second)
    (later : second.Extends more others third)
    (among : pinned ⊆ more)
    (pins : ∀ key, first.monitors.size ≤ key → key < second.monitors.size → key ∈ more) :
    first.Extends pinned (added ++ others) third := by
  refine ⟨later.tree.trans earlier.tree, later.viewport.trans earlier.viewport,
    later.watches.trans earlier.watches, later.held.trans earlier.held, ?_,
    fun element => (later.seen element).trans (earlier.seen element),
    fun tidy => later.tidy (earlier.tidy tidy), ?_⟩
  · rw [later.monitors, earlier.monitors, List.append_assoc]
  · intro tidy element wanted living
    have stays (key : MonitorId) (known : key < second.monitors.size) (isWanted : wanted key) :
        second.isAlive more key := by
      by_cases old : key < first.monitors.size
      · have alive := isAlive_mono among (living key old isWanted)
        rwa [isAlive, ← earlier.keeps] at alive
      · have pinned := pins key (Nat.le_of_not_lt old) known
        rw [isAlive, List.contains_iff_mem.mpr pinned, Bool.or_true]
    rw [later.watchers (earlier.tidy tidy) element wanted stays, List.filter_append,
      earlier.watchers tidy element wanted living, ← List.filter_append, List.append_assoc,
      followers_append, earlier.size]

/-- A monitor that follows no element is added without more. -/
theorem extends_addMonitor
    {source : Source}
    (pinned : List MonitorId)
    (value : Bool)
    (unseen : ∀ element, source.isOf element = false) :
    scene.Extends pinned [⟨source, value, Slot.empty⟩] (scene.addMonitor source value) := by
  refine ⟨rfl, rfl, rfl, rfl, rfl, fun _ => rfl, fun tidy => ⟨tidy.distinct, ?_⟩,
    fun _ element among _ => ?_⟩
  · intro element key member
    exact Nat.lt_of_lt_of_le (tidy.known element key member) (by simp [addMonitor])
  have none : followers element scene.monitors.size [⟨source, value, Slot.empty⟩] = [] := by
    simp [followers, unseen]
  rw [none, List.append_nil]
  rfl

/-- A monitor of an element is added after watchers that have ended were forgotten. -/
theorem extends_addVisible
    (tidy : scene.Tidy)
    (pinned : List MonitorId)
    (element : ElementId)
    (wanted : Bool) :
    let pruned := scene.visibility.prune (scene.isAlive pinned)
    let made := scene.addMonitor (.visible element wanted) (pruned.isVisible element == wanted)
    scene.Extends pinned
      [⟨.visible element wanted, scene.isVisible element == wanted, Slot.empty⟩]
      { made with visibility := pruned.watch element scene.monitors.size } := by
  intro pruned made
  have seen (other : ElementId) : pruned.isVisible other = scene.isVisible other :=
    Visibility.isVisible_prune tidy.distinct _
  have watchers (other : ElementId) :
      (pruned.watch element scene.monitors.size).watchers other =
        (scene.visibility.watchers other).filter (scene.isAlive pinned) ++
          followers other scene.monitors.size
            [⟨.visible element wanted, scene.isVisible element == wanted, Slot.empty⟩] := by
    rw [Visibility.watchers_watch, Visibility.watchers_prune tidy.distinct]
    by_cases same : other = element
    · simp [followers, Source.isOf, same]
    · simp [followers, Source.isOf, same, Ne.symm same]
  refine ⟨rfl, rfl, rfl, rfl, ?_, ?_, fun _ => ⟨?_, ?_⟩, ?_⟩
  · change scene.monitors.entries ++ [_] = _
    rw [seen]
  · intro other
    have watching : (pruned.watch element scene.monitors.size).isVisible other =
        pruned.isVisible other := Visibility.isVisible_watch _
    exact watching.trans (seen other)
  · exact Visibility.distinct_watch (Visibility.distinct_prune tidy.distinct _) _ _
  · intro other key member
    have size : (scene.addMonitor (.visible element wanted) (pruned.isVisible element == wanted)
        ).monitors.size = scene.monitors.size + 1 := Table.size_push _ _
    change key < made.monitors.size
    rw [size]
    change key ∈ (pruned.watch element scene.monitors.size).watchers other at member
    rw [watchers, List.mem_append] at member
    rcases member with old | new
    · exact Nat.lt_succ_of_lt (tidy.known other key (List.mem_of_mem_filter old))
    · simp only [followers] at new
      split at new
      · rw [List.mem_singleton.mp new]
        exact Nat.lt_succ_self _
      · cases new
  · intro _ other among living
    change ((pruned.watch element scene.monitors.size).watchers other).filter among = _
    rw [watchers, List.filter_append, List.filter_append, List.filter_filter]
    congr 1
    refine List.filter_congr fun key member => ?_
    cases wanted : among key with
    | false => rfl
    | true => rw [living key (tidy.known other key member) wanted, Bool.and_true]

/-- What is made for a condition is the monitor it asks for, or nothing. -/
theorem makeOf_eq
    (headless : factories.IsHeadless)
    (tidy : scene.Tidy)
    (pinned : List MonitorId)
    (element : ElementId)
    (condition : Condition) :
    match condition.monitor? factories scene element with
    | .error fault =>
        scene.makeOf pinned factories condition.monitor element condition.query =
          (scene, .error fault)
    | .ok entry =>
        ∃ after, scene.Extends pinned [entry] after ∧
          scene.makeOf pinned factories condition.monitor element condition.query =
            (after, .ok scene.monitors.size) := by
  unfold Condition.monitor? makeOf
  cases found : factories.find? condition.monitor with
  | none => rfl
  | some factory =>
      rcases headless _ factory found with rfl | rfl
      · dsimp only [make]
        cases MediaQuery.parse condition.query with
        | error => rfl
        | ok parsed => exact ⟨_, extends_addMonitor pinned _ fun _ => rfl, rfl⟩
      · dsimp only [make]
        cases Source.readVisibility condition.query with
        | error => rfl
        | ok wanted => exact ⟨_, extends_addVisible tidy pinned element wanted, rfl⟩

/-- What is made for the conditions of a context is what was planned. -/
theorem makeAll_eq
    (headless : factories.IsHeadless)
    (tidy : scene.Tidy)
    (pinned made : List MonitorId)
    (element : ElementId)
    (conditions : List Condition) :
    ∃ after,
      scene.Extends (made ++ pinned) (scene.plan factories element conditions).1 after ∧
        makeAll pinned factories element made scene conditions =
          (after,
            match (scene.plan factories element conditions).2 with
            | some fault => .error fault
            | none =>
                .ok (made ++ List.range' scene.monitors.size
                  (scene.plan factories element conditions).1.length)) := by
  induction conditions generalizing scene made with
  | nil => exact ⟨scene, .refl _ scene, by simp [makeAll, plan]⟩
  | cons condition rest inductionHypothesis =>
      have first := makeOf_eq headless tidy (made ++ pinned) element condition
      cases asked : condition.monitor? factories scene element with
      | error fault =>
          rw [asked] at first
          refine ⟨scene, ?_, ?_⟩
          · simp only [plan, asked]
            exact .refl _ scene
          · simp only [makeAll, plan, asked, first]
      | ok entry =>
          rw [asked] at first
          obtain ⟨middle, extension, result⟩ := first
          obtain ⟨after, others, results⟩ :=
            inductionHypothesis (extension.tidy tidy) (made ++ [scene.monitors.size])
          have same : middle.plan factories element rest = scene.plan factories element rest :=
            plan_congr extension.viewport extension.seen rest
          rw [same] at others results
          refine ⟨after, ?_, ?_⟩
          · simp only [plan, asked]
            refine extension.trans others (by simp) fun key least most => ?_
            rw [extension.size] at most
            simp only [List.length_singleton] at most
            simp [Nat.le_antisymm (Nat.le_of_lt_succ most) least]
          · simp only [makeAll, plan, asked, result, results]
            congr 1
            cases (scene.plan factories element rest).2 with
            | some => rfl
            | none =>
                have next : middle.monitors.size = scene.monitors.size + 1 := extension.size
                simp only [next, List.length_cons, List.range'_succ, List.append_assoc,
                  List.singleton_append]

/-- A context is watched by what was planned for it, unless something was amiss. -/
theorem watch_eq
    (headless : factories.IsHeadless)
    (tidy : scene.Tidy)
    (pinned : List MonitorId)
    (element : ElementId)
    (context : Context) :
    ∃ after,
      scene.Extends pinned (scene.plan factories element context.conditions).1 after ∧
        scene.watch pinned factories element context =
          match (scene.plan factories element context.conditions).2 with
          | some fault => (after, .error fault)
          | none =>
              (after.addWatch context
                  (List.range' scene.monitors.size
                    (scene.plan factories element context.conditions).1.length),
                .ok scene.watches.size) := by
  obtain ⟨after, extension, result⟩ :=
    makeAll_eq headless tidy pinned [] element context.conditions
  refine ⟨after, extension, ?_⟩
  rw [watch, result]
  cases (scene.plan factories element context.conditions).2 with
  | some => rfl
  | none => simp only [extension.watches, List.nil_append]

/-- A condition that asks for nothing is amiss wherever it stands. -/
theorem exists_fault
    {condition : Condition}
    {conditions : List Condition}
    (scene : Scene)
    (member : condition ∈ conditions)
    (asksNothing : condition.source? factories element = none) :
    ∃ fault, (scene.plan factories element conditions).2 = some fault := by
  have refused : ∃ fault, condition.monitor? factories scene element = .error fault := by
    rw [Condition.source?_eq condition factories scene] at asksNothing
    cases asked : condition.monitor? factories scene element with
    | error fault => exact ⟨fault, rfl⟩
    | ok entry => simp [asked, Except.toOption] at asksNothing
  induction conditions with
  | nil => cases member
  | cons first rest inductionHypothesis =>
      cases asked : first.monitor? factories scene element with
      | error fault => exact ⟨fault, by simp only [plan, asked]⟩
      | ok entry =>
          have other : condition ≠ first := by
            rintro rfl
            obtain ⟨fault, same⟩ := refused
            cases same.symm.trans asked
          obtain ⟨fault, found⟩ :=
            inductionHypothesis ((List.mem_cons.mp member).resolve_left other)
          exact ⟨fault, by simp only [plan, asked, found]⟩

end Scene

end Hydration
