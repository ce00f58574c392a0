import Hydration.Proofs.Passive.Belonging
import Hydration.Proofs.Passive.Remembering

/-!
# Visits of a host that watches contexts itself

A visit is a run of a page in which the host may also make watches of its own,
dispose them and drop them whenever the page is at rest.  All along a visit
bindings have the watches that belong to them, whatever the host does with the
others.
-/

namespace Hydration

/-- A watch that was just made has no audience yet. -/
theorem Scene.audience_watch
    {scene after : Scene}
    {pinned : List MonitorId}
    {factories : Factories}
    {element : ElementId}
    {context : Context}
    {watch : WatchId}
    {entry : Watch}
    (result : scene.watch pinned factories element context = (after, .ok watch))
    (found : after.watches.get? watch = some entry) :
    entry.audience = none := by
  unfold Scene.watch at result
  split at result
  · cases result
  · cases result
    rw [addWatch, Table.get?_push, if_pos rfl] at found
    cases found
    rfl

namespace Page

/-- Whether the host may do something with watches: those it has made are its own. -/
def Permits (page : Page) : Scene.Chore → Prop
  | .watch factories _ _ => factories = page.hooks.factories
  | .listen watch _ _ | .dispose watch | .drop watch =>
      ∀ entry, page.scene.watches.get? watch = some entry → entry.isStandalone

/-- A page after the host has done something with watches. -/
def tend (page : Page) (chore : Scene.Chore) : Page :=
  { page with scene := page.scene.run page.pinned chore }

end Page

/--
The pages that a visit reaches: at rest the host asks for plain things, leaves
the plugins as they are, and looks after watches of its own.
-/
inductive Visit (start : Page) : Page → Prop where
  | begin :
      Visit start start
  | move
      {page : Page}
      (move : Move)
      (earlier : Visit start page)
      (rest : page.isAtRest)
      (plain : move.IsPlain)
      (unplugged : ∀ plugin, move ≠ .plugin plugin) :
      Visit start (page.move move)
  | tend
      {page : Page}
      (chore : Scene.Chore)
      (earlier : Visit start page)
      (rest : page.isAtRest)
      (permitted : page.Permits chore) :
      Visit start (page.tend chore)
  | step
      {page : Page}
      (earlier : Visit start page) :
      Visit start page.step

namespace Visit

variable {start page : Page}

/-- A visit goes on step by step. -/
theorem onward (earlier : Visit start page) (limit : Nat) : Visit start (page.run limit) := by
  induction limit generalizing page with
  | zero => exact earlier
  | succ limit inductionHypothesis =>
      rw [Page.run]
      split
      · exact earlier
      · exact inductionHypothesis earlier.step

/-- The host may watch a context and listen to the watch. -/
theorem watchFor
    (earlier : Visit start page)
    (rest : page.isAtRest)
    (handle : Nat)
    (source : String)
    (element : ElementId) :
    Visit start (page.watchFor handle source element).1 := by
  unfold Page.watchFor
  split
  · exact earlier
  · next context _ =>
      have made := earlier.tend (.watch page.hooks.factories element context) rest rfl
      split
      · next scene fault result =>
          simpa only [Page.tend, Scene.run, result] using made
      · next scene watch result =>
          simp only [Page.tend, Scene.run, result] at made
          refine made.tend (.listen watch handle 1) rest fun entry found => ?_
          rw [Watch.isStandalone, Scene.audience_watch result found]
          rfl

end Visit

namespace Page

variable {page after : Page} {key : BindingId} {call : Call} {outer : List Call}

theorem Equipped.ofScene
    {outlook : Outlook}
    (equipped : page.Equipped)
    (found : page.outlook? key = some outlook) :
    outlook.IsOfScene := by
  obtain ⟨binding, there, rfl⟩ := Option.map_eq_some_iff.mp found
  exact equipped.bonds key binding.bond (bond?_of_found there)

/-- A binding that has a watch had it before the step, or is given it while it has not ended. -/
theorem Turn.watch?_earlier
    {watch : WatchId}
    (turn : page.Turn after call)
    (watched : after.watch? key = some watch) :
    (page.watch? key = some watch ∨ page.phase key ≠ .destroyed) ∧ call ≠ .bury key := by
  cases turn with
  | aside frames gentle =>
      rw [frames.watch?] at watched
      refine ⟨.inl watched, ?_⟩
      rintro rfl
      cases gentle
  | declined frames | silent _ frames | told _ _ _ frames | retired frames =>
      rw [frames.watch?] at watched
      exact ⟨.inl watched, by simp⟩
  | refused _ _ _ frames =>
      rw [frames.watch?] at watched
      exact ⟨.inl watched, by simp⟩
  | refreshed _ _ changed | replanted _ changed =>
      obtain rfl := changed
      exact ⟨.inl watched, by simp⟩
  | @watched other _ _ _ _ _ _ _ _ _ _ outlooks _ living =>
      refine ⟨?_, by simp⟩
      by_cases same : key = other
      · rw [same]
        exact .inr living
      · rw [watch?, outlooks, if_neg same] at watched
        exact .inl watched
  | @buried other _ _ outlooks =>
      rw [watch?_buried outlooks] at watched
      split at watched
      · cases watched
      · next different =>
          exact ⟨.inl watched, fun same => different (Call.bury.inj same).symm⟩
  | born fresh absent _ _ bindings =>
      rw [watch?_born fresh absent bindings] at watched
      exact ⟨.inl watched, by simp⟩

/-- What is kept up all along a visit. -/
structure Upkeep (page : Page) : Prop where
  belongs : page.Belongs
  started : page.Started
  vital : page.scene.Vital page.pinned
  equipped : page.Equipped
  remembers : page.Remembers
  living :
    ∀ key watch, page.watch? key = some watch → (page.life key).phase ≠ .destroyed

theorem Upkeep.step
    (upkeep : page.Upkeep)
    (planned : ∀ key, (page.life key).Planned key) :
    page.step.Upkeep := by
  have tracks : page.scene.Tracks page.scene.Watched :=
    upkeep.vital.tracks.mono fun _ watched => watched.isAlive page.pinned
  refine ⟨?_, upkeep.started.step upkeep.belongs.idle tracks planned,
    (attends_step page).vital upkeep.vital,
    upkeep.equipped.step upkeep.belongs.idle.isTame, upkeep.remembers.step planned, ?_⟩
  · cases stack : page.stack with
    | nil =>
        rw [step_of_nil stack]
        exact upkeep.belongs
    | cons call outer =>
        have popped : ({ page with stack := outer } : Page).Belongs :=
          upkeep.belongs.frame ⟨rfl, rfl, fun _ => rfl⟩
        exact popped.turn tracks (fun _ _ => upkeep.equipped.ofScene)
          (turn_step upkeep.belongs.idle upkeep.started.calls stack)
  · intro key watch watched
    cases stack : page.stack with
    | nil =>
        rw [step_of_nil stack] at watched ⊢
        exact upkeep.living key watch watched
    | cons call outer =>
        have turn := turn_step upkeep.belongs.idle upkeep.started.calls stack
        obtain ⟨earlier, gentle⟩ := turn.watch?_earlier watched
        have before : (page.life key).present ∧ (page.life key).phase ≠ .destroyed := by
          rcases earlier with had | alive
          · obtain ⟨outlook, found, _⟩ := watch?_eq_some_iff.mp had
            exact ⟨present_of_outlook found, upkeep.living key watch had⟩
          · have alive : page.phase key ≠ .destroyed := alive
            cases found : page.binding? key with
            | none => simp [phase, found] at alive
            | some binding =>
                have present := (life_of_found found).1
                exact ⟨present, by rwa [← phase_life present]⟩
        exact living_step stack gentle before.1 before.2

/-- What the host does with no binding leaves every binding in its phase. -/
theorem life_move
    {move : Move}
    (plain : move.IsPlain)
    (key : BindingId) :
    ((page.move move).life key).present = (page.life key).present ∧
      ((page.move move).life key).phase = (page.life key).phase := by
  cases move with
  | scene | bind => exact plain.elim
  | callback other notice script =>
      have same : (page.setCallback other notice script).life key = page.life key := by
        by_cases own : other = key
        · subst own
          exact life_setCallback page notice script
        · exact life_changeBinding_other page _ own
      rw [Page.move, same]
      exact ⟨rfl, rfl⟩
  | ask | script | constructor | plugin | catalog | registry => exact ⟨rfl, rfl⟩

/-- What the host does at rest upsets nothing, as long as it leaves the plugins alone. -/
theorem Upkeep.move
    {move : Move}
    (upkeep : page.Upkeep)
    (rest : page.isAtRest)
    (plain : move.IsPlain)
    (unplugged : ∀ plugin, move ≠ .plugin plugin) :
    (page.move move).Upkeep := by
  have grown : page.modules = (page.move move).modules ∧ page.stack ⊆ (page.move move).stack := by
    cases move with
    | ask request => exact ⟨rfl, List.subset_cons_self _ _⟩
    | _ => exact ⟨rfl, List.Subset.refl _⟩
  refine ⟨?_, upkeep.started.move plain rest, ?_, ?_, ?_, ?_⟩
  · cases move with
    | scene | bind => exact plain.elim
    | script actions =>
        obtain rfl : actions = [] := plain
        have belongs := upkeep.belongs
        exact ⟨belongs.idle.addScript, belongs.unheld, belongs.assigned, belongs.owners,
          belongs.served⟩
    | ask | callback | constructor | plugin | catalog | registry =>
        exact upkeep.belongs.frame ⟨rfl, rfl, outlook?_move plain⟩
  · cases move with
    | scene | bind => exact plain.elim
    | ask | callback | script | constructor | plugin | catalog | registry => exact upkeep.vital
  · have equipped := upkeep.equipped
    cases move with
    | scene | bind => exact plain.elim
    | plugin plugin => exact (unplugged plugin rfl).elim
    | ask request => exact equipped.push (by simp)
    | callback other notice script =>
        have proceeds := Proceeds.setCallback page other notice script
        exact equipped.of_remains upkeep.belongs.idle.isTame (.of_proceeds proceeds)
    | script | constructor | catalog | registry =>
        exact ⟨equipped.hooks, equipped.bonds, equipped.calls⟩
  · intro key present living
    rw [(life_move plain key).1] at present
    rw [(life_move plain key).2] at living
    rw [← grown.1]
    exact (upkeep.remembers key present living).imp_right
      (Exists.imp fun _ doomed => ⟨grown.2 doomed.1, doomed.2⟩)
  · intro key watch watched
    rw [watch?, outlook?_move plain] at watched
    rw [(life_move plain key).2]
    exact upkeep.living key watch watched

/-- What the host does with watches of its own upsets nothing. -/
theorem Upkeep.tend
    {chore : Scene.Chore}
    (upkeep : page.Upkeep)
    (permitted : page.Permits chore) :
    (page.tend chore).Upkeep := by
  have tracks : page.scene.Tracks page.scene.Watched :=
    upkeep.vital.tracks.mono fun _ watched => watched.isAlive page.pinned
  have vital : (page.tend chore).scene.Vital (page.tend chore).pinned := upkeep.vital.run chore
  have started : (page.tend chore).Started := ⟨upkeep.started.calls, upkeep.started.started⟩
  have equipped : (page.tend chore).Equipped :=
    ⟨upkeep.equipped.hooks, upkeep.equipped.bonds, upkeep.equipped.calls⟩
  refine ⟨?_, started, vital, equipped, upkeep.remembers, upkeep.living⟩
  cases chore with
  | watch factories element context =>
      obtain rfl : factories = page.hooks.factories := permitted
      have assigned := upkeep.belongs.assigned.watch tracks upkeep.equipped.hooks page.pinned element
        context
      cases result :
          page.scene.watch page.pinned page.hooks.factories element context with
      | mk scene outcome =>
          rw [result] at assigned
          have tended : page.tend (.watch page.hooks.factories element context) =
              { page with scene } := by
            rw [Page.tend, Scene.run, result]
          rw [tended]
          cases outcome with
          | error fault =>
              obtain ⟨grows, _⟩ := tracks.watch_error result
              exact upkeep.belongs.sustain grows.sustains grows.held
                fun _ => Scene.owner?_congr grows.watches
          | ok watch =>
              obtain ⟨made, keys, _, rfl, rfl, grows, _⟩ := tracks.watch_ok result
              have owners (other : WatchId) :
                  (made.addWatch context keys).owner? other = page.scene.owner? other := by
                rw [Scene.owner?_addWatch, Scene.owner?_congr grows.watches]
              refine upkeep.belongs.rescene assigned grows.held owners ?_
              intro other entry key owned now
              rcases Table.get?_push_eq_some_iff.mp now with old | ⟨last, _⟩
              · exact ⟨entry, grows.watches ▸ old, rfl⟩
              · have absent : page.scene.watches.get? other = none := by
                  rw [last, grows.watches, Table.get?_eq_none_iff]
                rw [Scene.owner?, absent] at owned
                cases owned
  | listen watch handle round =>
      obtain ⟨subscriptions, alters⟩ := Scene.alters_listen page.scene watch (.host handle round)
      exact upkeep.belongs.sustain (Scene.sustains_listen _ _ _) alters.held
        fun _ => Scene.owner?_listen permitted
  | dispose watch =>
      exact upkeep.belongs.sustain (Scene.sustains_disposeWatch _ _)
        (Scene.alters_disposeWatch _ _).held fun _ => Scene.owner?_disposeWatch
  | drop watch =>
      refine upkeep.belongs.sustain (Scene.sustains_dropWatch _ _)
        (Scene.alters_dropWatch _ _).held fun other => ?_
      rw [Scene.run, Scene.owner?_dropWatch]
      split
      · next same => rw [same, Scene.owner?_of_standalone permitted]
      · rfl

theorem Begins.upkeep
    (begins : page.Begins)
    (bare : page.IsBare)
    (idle : page.HasIdleScripts)
    (ofScene : page.hooks.factories.AreOfScene) :
    page.Upkeep := by
  obtain ⟨tree, viewport, scene⟩ := bare.scene
  have unbound (key : BindingId) : page.binding? key = none := by
    rw [binding?, bare.bindings]
    rfl
  have unlooked (key : BindingId) : page.outlook? key = none := by
    rw [outlook?, unbound, Option.map_none]
  have unwatched (key : BindingId) : page.watch? key = none := by
    rw [watch?, unlooked, Option.bind_none]
  have opens : page.Opens := ⟨bare.scene, begins.rest, begins.history⟩
  refine ⟨⟨idle, ?_, ?_, ?_, ?_⟩, begins.started bare, opens.vital, ⟨ofScene, ?_, ?_⟩, ?_, ?_⟩
  · intro monitor member
    rw [scene] at member
    cases member
  · rw [scene]
    exact .empty tree viewport
  · intro key watch
    have absent : page.scene.watches.get? watch = none := by
      rw [scene]
      rfl
    rw [unwatched, Scene.owner?, absent, Option.bind_none]
    simp
  · intro key outlook watch entry found
    cases (unlooked key).symm.trans found
  · intro key bond found
    rw [bond?, unbound] at found
    cases found
  · intro hooks elements member
    rw [begins.rest] at member
    cases member
  · intro key present
    rw [Page.life, unbound] at present
    cases present
  · intro key watch watched
    cases (unwatched key).symm.trans watched

end Page

namespace Visit

variable {start page : Page}

/-- A visit is a run in which all scripts are idle. -/
theorem exists_run
    (begins : start.Begins)
    (bare : start.IsBare)
    (idle : start.HasIdleScripts)
    (ofScene : start.hooks.factories.AreOfScene)
    (visit : Visit start page) :
    page.Upkeep ∧
      ∃ passed, Run (fun _ => True) start passed page ∧
        ∀ earlier ∈ passed, earlier.HasIdleScripts := by
  have more {passed : List Page} {page : Page}
      (upkeep : page.Upkeep)
      (idle : ∀ earlier ∈ passed, earlier.HasIdleScripts) :
      ∀ earlier ∈ page :: passed, earlier.HasIdleScripts :=
    List.forall_mem_cons.mpr ⟨upkeep.belongs.idle, idle⟩
  induction visit with
  | begin => exact ⟨begins.upkeep bare idle ofScene, [], .begin, by simp⟩
  | move move _ rest plain unplugged inductionHypothesis =>
      obtain ⟨upkeep, passed, run, idle⟩ := inductionHypothesis
      exact ⟨upkeep.move rest plain unplugged, _, run.move move rest trivial, more upkeep idle⟩
  | tend chore _ rest permitted inductionHypothesis =>
      obtain ⟨upkeep, passed, run, idle⟩ := inductionHypothesis
      exact ⟨upkeep.tend permitted, _, run.move (.scene _) rest trivial, more upkeep idle⟩
  | step _ inductionHypothesis =>
      obtain ⟨upkeep, passed, run, idle⟩ := inductionHypothesis
      have planned (key : BindingId) : (Page.life key _).Planned key :=
        (run.undisturbed begins fun earlier member =>
          Page.not_acts_of_idle (idle earlier member)).planned
      exact ⟨upkeep.step planned, _, run.step, more upkeep idle⟩

end Visit

end Hydration
