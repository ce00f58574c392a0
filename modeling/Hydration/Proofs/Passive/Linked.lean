import Hydration.Proofs.ContextConvergence
import Hydration.Proofs.OrderlyCourse
import Hydration.Proofs.Passive.Relaying
import Hydration.Proofs.Passive.Turning

/-!
# Bindings and watches belong together

While scripts are idle and the host asks for plain things only, every watch that
is not dropped tells one binding, and that binding has this watch.  A binding
without a watch that could have one has ended or is about to be started.
-/

namespace Hydration

/-- Whether a context was read that asks for media queries and for visibility alone. -/
def Outlook.Observes (outlook : Outlook) (context : Context) : Prop :=
  outlook.context = .ok context ∧
    ∀ condition ∈ context.conditions,
      (condition.source? outlook.hooks.factories outlook.element).isSome

namespace Page

variable {page after : Page} {key : BindingId} {outlook : Outlook} {context : Context}

/-- Watches and bindings belong together, and nobody else keeps monitors. -/
structure Linked (page : Page) : Prop where
  idle : page.HasIdleScripts
  wired : page.scene.Wired
  unheld : ∀ monitor, some monitor ∉ page.scene.held.entries
  audience :
    ∀ watch entry, page.scene.watches.get? watch = some entry → entry.dropped = false →
      ∃ key, entry.audience = some (.binding key) ∧ page.watch? key = some watch
  served :
    ∀ key outlook watch, page.outlook? key = some outlook → outlook.watch = some watch →
      ∃ entry, page.scene.watches.get? watch = some entry ∧ entry.dropped = false ∧
        entry.audience = some (.binding key) ∧
        ∀ context, outlook.context = .ok context →
          List.Forall₂ (page.scene.Serves outlook.hooks.factories outlook.element)
            context.conditions entry.monitors

theorem watch?_eq_some_iff {watch : WatchId} :
    page.watch? key = some watch ↔
      ∃ outlook, page.outlook? key = some outlook ∧ outlook.watch = some watch := by
  rw [watch?, Option.bind_eq_some_iff]

/-- A watch has one binding only. -/
theorem Linked.watch?_inj
    {other : BindingId}
    {watch : WatchId}
    (linked : page.Linked)
    (mine : page.watch? key = some watch)
    (theirs : page.watch? other = some watch) :
    other = key := by
  obtain ⟨first, found, watched⟩ := watch?_eq_some_iff.mp mine
  obtain ⟨second, there, watches⟩ := watch?_eq_some_iff.mp theirs
  obtain ⟨entry, isEntry, _, tells, _⟩ := linked.served key first watch found watched
  obtain ⟨known, isKnown, _, told, _⟩ := linked.served other second watch there watches
  cases isEntry.symm.trans isKnown
  cases tells.symm.trans told
  rfl

theorem Linked.frame (linked : page.Linked) (frames : page.Frames after) : after.Linked where
  idle := by simpa only [HasIdleScripts, frames.scripts] using linked.idle
  wired := by simpa only [frames.scene] using linked.wired
  unheld := by simpa only [frames.scene] using linked.unheld
  audience := by simpa only [frames.scene, frames.watch?] using linked.audience
  served := by simpa only [frames.scene, frames.outlook] using linked.served

/-- The scene may change as long as the watches are the same and serve the same. -/
theorem Linked.rescene
    {scene : Scene}
    (linked : page.Linked)
    (wired : scene.Wired)
    (held : scene.held = page.scene.held)
    (watches : scene.watches = page.scene.watches)
    (spares : page.scene.Spares scene) :
    ({ page with scene } : Page).Linked := by
  refine ⟨linked.idle, wired, ?_, ?_, ?_⟩
  · rw [held]
    exact linked.unheld
  · rw [watches]
    exact linked.audience
  · intro key outlook watch found watched
    obtain ⟨entry, there, living, audience, serves⟩ :=
      linked.served key outlook watch found watched
    exact ⟨entry, spares.watches watch entry there, living, audience,
      fun context read => spares.serves (serves context read)⟩

section Watched

variable {scene : Scene} {watch : WatchId}

/-- A binding that is given a watch belongs to it. -/
theorem Linked.watched
    (linked : page.Linked)
    (found : page.outlook? key = some outlook)
    (unwatched : outlook.watch = none)
    (read : outlook.context = .ok context)
    (result :
      page.scene.watch page.pinned outlook.hooks.factories outlook.element context =
        (scene, .ok watch))
    (listens : after.scene = scene.listen watch (.binding key))
    (scripts : after.scripts = page.scripts)
    (outlooks :
      ∀ other, after.outlook? other =
        if other = key then some { outlook with watch := some watch } else page.outlook? other) :
    after.Linked := by
  obtain ⟨wired, spares, held, others, _, entry, there, living, audience, serves⟩ :=
    linked.wired.watch_ok result (.binding key)
  rw [← listens] at wired spares held others there serves
  have looks (other : BindingId) (different : other ≠ key) :
      after.outlook? other = page.outlook? other :=
    (outlooks other).trans (if_neg different)
  have mine : after.outlook? key = some { outlook with watch := some watch } :=
    (outlooks key).trans (if_pos rfl)
  refine ⟨?_, wired, ?_, ?_, ?_⟩
  · simpa only [HasIdleScripts, scripts] using linked.idle
  · rw [held]
    exact linked.unheld
  · intro other known isThere undropped
    by_cases same : other = watch
    · subst same
      cases there.symm.trans isThere
      exact ⟨key, audience, watch?_eq_some_iff.mpr ⟨_, mine, rfl⟩⟩
    · rw [others other same] at isThere
      obtain ⟨told, tells, watches⟩ := linked.audience other known isThere undropped
      obtain ⟨seen, isSeen, watchesIt⟩ := watch?_eq_some_iff.mp watches
      have different : told ≠ key := by
        rintro rfl
        cases found.symm.trans isSeen
        cases unwatched.symm.trans watchesIt
      have looking := (looks told different).trans isSeen
      exact ⟨told, tells, watch?_eq_some_iff.mpr ⟨seen, looking, watchesIt⟩⟩
  · intro other seen watching isSeen watches
    by_cases same : other = key
    · subst same
      cases mine.symm.trans isSeen
      cases watches
      refine ⟨entry, there, living, audience, ?_⟩
      intro known same
      cases read.symm.trans same
      exact serves
    · rw [looks other same] at isSeen
      obtain ⟨known, isThere, undropped, tells, served⟩ :=
        linked.served other seen watching isSeen watches
      exact ⟨known, spares.watches watching known isThere, undropped, tells,
        fun context read => spares.serves (served context read)⟩

/-- When the watch of a binding is dropped, if it has one, the scene sheds this watch alone. -/
theorem Linked.sheds
    (linked : page.Linked)
    (dropped :
      after.scene =
        match page.watch? key with
        | none => page.scene
        | some watch => page.scene.dropWatch watch) :
    page.scene.Sheds (fun watch => page.watch? key = some watch) after.scene := by
  split at dropped
  · next unwatched =>
      rw [dropped]
      simpa [unwatched] using linked.wired.sheds_none
  · next watch watched =>
      obtain ⟨outlook, found, watches⟩ := watch?_eq_some_iff.mp watched
      obtain ⟨entry, there, living, _⟩ := linked.served key outlook watch found watches
      rw [dropped]
      simpa [watched, eq_comm] using linked.wired.dropWatch there living

/-- A binding that ends has no watch any more, and all others have theirs. -/
theorem watch?_buried
    (outlooks :
      ∀ other, after.outlook? other =
        if other = key then (page.outlook? other).map fun outlook => { outlook with watch := none }
        else page.outlook? other)
    (other : BindingId) :
    after.watch? other = if other = key then none else page.watch? other := by
  rw [watch?, outlooks]
  split
  · cases page.outlook? other <;> rfl
  · rfl

/-- A binding that ends leaves all others with their watches. -/
theorem Linked.buried
    (linked : page.Linked)
    (dropped :
      after.scene =
        match page.watch? key with
        | none => page.scene
        | some watch => page.scene.dropWatch watch)
    (scripts : after.scripts = page.scripts)
    (outlooks :
      ∀ other, after.outlook? other =
        if other = key then (page.outlook? other).map fun outlook => { outlook with watch := none }
        else page.outlook? other) :
    after.Linked := by
  have sheds := linked.sheds dropped
  refine ⟨?_, sheds.wired, by rw [sheds.held]; exact linked.unheld, ?_, ?_⟩
  · simpa only [HasIdleScripts, scripts] using linked.idle
  · intro watch entry there undropped
    have stays : page.watch? key ≠ some watch := by
      intro lost
      obtain ⟨_, gone, _, isGone, isDropped, _⟩ := sheds.dropped watch lost
      cases isGone.symm.trans there
      cases isDropped.symm.trans undropped
    rw [sheds.others watch stays] at there
    obtain ⟨told, tells, watches⟩ := linked.audience watch entry there undropped
    have different : told ≠ key := by
      rintro rfl
      exact stays watches
    exact ⟨told, tells, by rwa [watch?_buried outlooks, if_neg different]⟩
  · intro other seen watching isSeen watches
    have mine : after.watch? other = some watching :=
      watch?_eq_some_iff.mpr ⟨seen, isSeen, watches⟩
    rw [watch?_buried outlooks] at mine
    rw [outlooks] at isSeen
    split at mine
    · cases mine
    · next different =>
        have stays : page.watch? key ≠ some watching :=
          fun lost => different (linked.watch?_inj lost mine)
        rw [if_neg different] at isSeen
        obtain ⟨entry, there, undropped, tells, serves⟩ :=
          linked.served other seen watching isSeen watches
        refine ⟨entry, (sheds.others watching stays).trans there, undropped, tells, ?_⟩
        exact fun context read =>
          (serves context read).imp fun _ monitor => Scene.Keeps.serves (sheds.sources monitor)

/-- A binding that is made has no watch, and all others have theirs. -/
theorem watch?_born
    {binding : Binding}
    (fresh : binding.IsFresh)
    (absent : page.binding? key = none)
    (bindings :
      ∀ other, after.binding? other = if other = key then some binding else page.binding? other)
    (other : BindingId) :
    after.watch? other = page.watch? other := by
  by_cases own : other = key
  · subst own
    have nothing : page.watch? other = none := by
      simp [watch?, outlook?, absent]
    rw [nothing, watch?_of_found ((bindings other).trans (if_pos rfl)), fresh.watch]
  · simp only [watch?, outlook?, bindings, if_neg own]

/-- A binding that is made leaves all others with their watches. -/
theorem Linked.born
    {binding : Binding}
    (linked : page.Linked)
    (fresh : binding.IsFresh)
    (absent : page.binding? key = none)
    (scene : after.scene = page.scene)
    (scripts : after.scripts = page.scripts)
    (bindings :
      ∀ other, after.binding? other = if other = key then some binding else page.binding? other) :
    after.Linked := by
  have watches := watch?_born fresh absent bindings
  refine ⟨?_, by rw [scene]; exact linked.wired, by rw [scene]; exact linked.unheld, ?_, ?_⟩
  · simpa only [HasIdleScripts, scripts] using linked.idle
  · intro watch entry there undropped
    rw [scene] at there
    obtain ⟨told, tells, mine⟩ := linked.audience watch entry there undropped
    exact ⟨told, tells, (watches told).trans mine⟩
  · intro other seen watching isSeen mine
    have looks : page.outlook? other = some seen := by
      by_cases own : other = key
      · subst own
        rw [outlook?, bindings, if_pos rfl] at isSeen
        cases isSeen
        cases fresh.watch.symm.trans mine
      · rwa [outlook?, bindings, if_neg own] at isSeen
    rw [scene]
    exact linked.served other seen watching looks mine

end Watched

/-- Whatever a plain call does, watches and bindings belong together. -/
theorem Linked.turn
    {call : Call}
    (linked : page.Linked)
    (turn : page.Turn after call) :
    after.Linked := by
  cases turn with
  | aside frames => exact linked.frame frames
  | declined frames => exact linked.frame frames
  | silent _ frames => exact linked.frame frames
  | told _ _ _ frames => exact linked.frame frames
  | retired frames => exact linked.frame frames
  | refused found read result frames =>
      obtain ⟨grows, wired, _⟩ := linked.wired.watch_error result
      exact (linked.rescene wired grows.held grows.watches grows.spares).frame frames
  | watched found unwatched read result listens scripts outlooks =>
      exact linked.watched found unwatched read result listens scripts outlooks
  | refreshed refreshes held changed =>
      obtain rfl := changed
      have refreshed := refreshes linked.wired
      exact (linked.rescene refreshed.wired held refreshed.watches refreshed.spares).frame
        ⟨rfl, rfl, fun _ => rfl⟩
  | replanted change changed =>
      obtain rfl := changed
      have spares : page.scene.Spares (page.scene.changeTree change) :=
        ⟨fun _ _ found => found, fun _ monitor found => ⟨monitor, found, rfl⟩⟩
      exact linked.rescene (linked.wired.changeTree change) rfl rfl spares
  | buried dropped scripts outlooks => exact linked.buried dropped scripts outlooks
  | born fresh absent scene scripts bindings =>
      exact linked.born fresh absent scene scripts bindings

/-- All calls are plain, and what could have a watch has one, has ended or is to be started. -/
structure Started (page : Page) : Prop where
  calls : ∀ call ∈ page.stack, call.isPlain
  started :
    ∀ key outlook context, page.outlook? key = some outlook → outlook.watch = none →
      outlook.Observes context →
        (page.life key).phase = .destroyed ∨ .request (.bind .start key) ∈ page.stack

theorem present_of_outlook
    (found : page.outlook? key = some outlook) :
    (page.life key).present := by
  obtain ⟨binding, there, _⟩ := Option.map_eq_some_iff.mp found
  exact (life_of_found there).1

/-- A binding that has ended stays so. -/
theorem destroyed_step
    (present : (page.life key).present)
    (planned : (page.life key).Planned key)
    (destroyed : (page.life key).phase = .destroyed) :
    (page.step.life key).phase = .destroyed := by
  rcases page.step_life (fun _ => present) with disturbed | ⟨_, _, _, _, calls, carried⟩
  · exact disturbed.destroyed destroyed
  · exact carried.destroyed calls planned destroyed

/-- What a plain call puts on the stack is plain. -/
theorem Turn.plain
    {call : Call}
    (turn : page.Turn after call)
    (plain : ∀ call ∈ page.stack, call.isPlain) :
    ∃ added, after.stack = added ++ page.stack ∧ ∀ call ∈ after.stack, call.isPlain := by
  have grown (added : List Call)
      (stack : after.stack = added ++ page.stack)
      (new : ∀ call ∈ added, call.isPlain) :
      ∃ added, after.stack = added ++ page.stack ∧ ∀ call ∈ after.stack, call.isPlain := by
    refine ⟨added, stack, ?_⟩
    rw [stack]
    intro call member
    exact (List.mem_append.mp member).elim (new call) (plain call)
  have plainly {added : List Call} (meek : ∀ call ∈ added, call.isMeek) :
      ∀ call ∈ added, call.isPlain :=
    fun call member => Call.isPlain_of_isMeek (meek call member)
  have followed {added : List Call} {last : Call}
      (meek : ∀ call ∈ added, call.isMeek)
      (plain : last.isPlain) :
      ∀ call ∈ added ++ [last], call.isPlain := by
    intro call member
    rcases List.mem_append.mp member with old | new
    · exact plainly meek call old
    · rwa [List.mem_singleton.mp new]
  cases turn with
  | aside _ _ added stack meek => exact grown added stack (plainly meek)
  | declined _ _ added stack meek => exact grown added stack (plainly meek)
  | refused _ _ _ _ added stack meek => exact grown added stack (plainly meek)
  | watched _ _ _ _ _ _ _ stack =>
      refine grown _ stack ?_
      split <;> simp [Call.isPlain, Request.isPlain]
  | refreshed _ _ changed =>
      obtain rfl := changed
      exact grown _ rfl (by simp [Call.isPlain])
  | replanted _ changed =>
      obtain rfl := changed
      exact grown [] rfl (by simp)
  | @silent _ rest _ _ added stack meek =>
      refine grown (added ++ [.deliver rest]) ?_ (followed meek rfl)
      rw [stack, List.append_assoc]
      rfl
  | @told _ rest watch _ key _ _ _ _ pins meek stack =>
      refine grown
        (.request (.bind (if page.scene.watchValue watch then .mount else .unmount) key) ::
          (pins ++ [.deliver rest])) ?_ ?_
      · rw [stack, List.cons_append, List.append_assoc]
        rfl
      · refine List.forall_mem_cons.mpr ⟨?_, followed meek rfl⟩
        split <;> rfl
  | @retired key _ added stack meek =>
      refine grown (added ++ [.bury key]) ?_ (followed meek rfl)
      rw [stack, List.append_assoc]
      rfl
  | buried _ _ _ stack => exact grown _ stack (by simp [Call.isPlain])
  | @born hooks _ elements key _ _ _ _ _ _ stack =>
      exact grown [.request (.bind .start key), .hydrate hooks elements] stack
        (by simp [Call.isPlain, Request.isPlain])

/--
A binding that could have a watch and has none after a turn had none before and
is not the one that was to be started, unless it has ended, ends, or is to be
started.
-/
theorem Turn.unwatched
    {call : Call}
    (turn : page.Turn after call)
    (tracks : page.scene.Tracks page.scene.Watched)
    (found : after.outlook? key = some outlook)
    (unwatched : outlook.watch = none)
    (observes : outlook.Observes context) :
    page.outlook? key = some outlook ∧
        (call = .request (.bind .start key) → page.phase key = .destroyed) ∨
      (call = .bury key ∧ (page.outlook? key).isSome) ∨
      .request (.bind .start key) ∈ after.stack := by
  cases turn with
  | aside frames gentle =>
      rw [frames.outlook] at found
      refine .inl ⟨found, ?_⟩
      rintro rfl
      cases gentle
  | silent _ frames | told _ _ _ frames | retired frames =>
      rw [frames.outlook] at found
      exact .inl ⟨found, by simp⟩
  | refreshed _ _ changed unstarted | replanted _ changed unstarted =>
      obtain rfl := changed
      exact .inl ⟨found, fun start => (unstarted key (Call.request.inj start)).elim⟩
  | declined frames reason =>
      rw [frames.outlook] at found
      refine .inl ⟨found, fun start => ?_⟩
      cases start
      rcases reason outlook found unwatched with ended | ⟨fault, unread⟩
      · exact ended
      · cases unread.symm.trans observes.1
  | refused known read result frames =>
      rw [frames.outlook] at found
      refine .inl ⟨found, fun start => ?_⟩
      cases start
      cases known.symm.trans found
      cases read.symm.trans observes.1
      obtain ⟨_, _, condition, member, unknown⟩ := tracks.watch_error result
      simpa [unknown] using observes.2 condition member
  | @watched other _ _ _ _ _ _ _ _ _ _ outlooks =>
      rw [outlooks] at found
      split at found
      · cases found
        cases unwatched
      · next different =>
          exact .inl ⟨found, fun start => (different (by cases start; rfl)).elim⟩
  | buried _ _ outlooks =>
      rw [outlooks] at found
      split at found
      · next same =>
          obtain ⟨earlier, was, _⟩ := Option.map_eq_some_iff.mp found
          exact .inr (.inl ⟨by rw [same], by simp [was]⟩)
      · exact .inl ⟨found, by simp⟩
  | @born _ _ _ other _ _ _ _ _ bindings stack =>
      by_cases same : key = other
      · subst same
        rw [stack]
        exact .inr (.inr List.mem_cons_self)
      · rw [outlook?, bindings, if_neg same] at found
        exact .inl ⟨found, by simp⟩

/-- A step leaves nothing that could have a watch without one, unless it is to be started. -/
theorem Started.step
    (started : page.Started)
    (idle : page.HasIdleScripts)
    (tracks : page.scene.Tracks page.scene.Watched)
    (planned : ∀ key, (page.life key).Planned key) :
    page.step.Started := by
  cases stack : page.stack with
  | nil => rwa [step_of_nil stack]
  | cons call rest =>
      have plain : ∀ call ∈ rest, call.isPlain := by
        intro other member
        exact started.calls other (by rw [stack]; exact List.mem_cons_of_mem _ member)
      have turn := turn_step idle started.calls stack
      obtain ⟨added, pushed, plainStep⟩ := turn.plain plain
      refine ⟨plainStep, ?_⟩
      intro key outlook context found unwatched observes
      rcases turn.unwatched tracks found unwatched observes with
        ⟨was, ended⟩ | ⟨rfl, seen⟩ | pending
      · have was : page.outlook? key = some outlook := was
        have present := present_of_outlook was
        by_cases start : call = .request (.bind .start key)
        · have destroyed : (page.life key).phase = .destroyed := by
            rw [← phase_life present]
            exact ended start
          exact .inl (destroyed_step present (planned key) destroyed)
        · refine (started.started key outlook context was unwatched observes).imp ?_ ?_
          · exact destroyed_step present (planned key)
          · intro pending
            rw [stack] at pending
            rw [pushed]
            exact List.mem_append_right added
              ((List.mem_cons.mp pending).resolve_left (Ne.symm start))
      · obtain ⟨earlier, was⟩ := Option.isSome_iff_exists.mp seen
        obtain ⟨_, carried⟩ := step_carried stack (decide_eq_true rfl) (present_of_outlook was)
        exact .inl carried.destroyed_of_bury
      · exact .inr pending

end Page

/-- Whether the host asks for plain things only, leaves the scene to it, and brings idle scripts. -/
def Move.IsPlain : Move → Prop
  | ask request => request.isPlain
  | script actions => actions = []
  | scene _ | bind _ _ _ _ _ => False
  | _ => True

namespace Page

variable {page : Page} {key : BindingId}

theorem HasIdleScripts.addScript (idle : page.HasIdleScripts) :
    (page.addScript []).HasIdleScripts := by
  intro script member
  rcases List.mem_append.mp member with old | new
  · exact idle script old
  · rw [List.mem_singleton.mp new]

/-- What the host does with no binding and no scene leaves the outlook of every binding. -/
theorem outlook?_move
    {move : Move}
    (plain : move.IsPlain)
    (key : BindingId) :
    (page.move move).outlook? key = page.outlook? key := by
  cases move with
  | scene | bind => exact plain.elim
  | callback other notice script => exact (Confined.setCallback page other notice script).outlook key
  | ask | script | constructor | plugin | catalog | registry => rfl

theorem Linked.move
    {move : Move}
    (linked : page.Linked)
    (plain : move.IsPlain) :
    (page.move move).Linked := by
  cases move with
  | scene | bind => exact plain.elim
  | callback key notice script =>
      exact linked.frame (Confined.setCallback page key notice script).toFrames
  | script actions =>
      obtain rfl : actions = [] := plain
      exact ⟨linked.idle.addScript, linked.wired, linked.unheld, linked.audience, linked.served⟩
  | ask | constructor | plugin | catalog | registry =>
      exact linked.frame ⟨rfl, rfl, fun _ => rfl⟩

theorem Started.move
    {move : Move}
    (started : page.Started)
    (plain : move.IsPlain)
    (rest : page.isAtRest) :
    (page.move move).Started := by
  have empty := stack_of_rest rest
  refine ⟨?_, ?_⟩
  · cases move with
    | ask request =>
        have asked : request.isPlain = true := plain
        simpa [Page.move, push, empty, Call.isPlain] using asked
    | _ => simp [Page.move, empty, setCallback, changeBinding, addScript, addConstructor,
        addPlugin, setCatalog, addBinding]
  · intro key outlook context found unwatched observes
    rw [outlook?_move plain] at found
    have ended :=
      (started.started key outlook context found unwatched observes).resolve_right (by simp [empty])
    exact .inl ((page.disturbed_move move key).destroyed ended)

theorem Begins.linked
    (begins : page.Begins)
    (bare : page.IsBare)
    (idle : page.HasIdleScripts) :
    page.Linked := by
  obtain ⟨tree, viewport, scene⟩ := bare.scene
  have unlooked (key : BindingId) : page.outlook? key = none := by
    rw [outlook?, binding?, bare.bindings]
    rfl
  refine ⟨idle, (begins.tended bare).sound.toWired, ?_, ?_, ?_⟩
  · intro monitor member
    rw [scene] at member
    cases member
  · intro watch entry there
    rw [scene] at there
    cases there
  · intro key outlook watch found
    cases (unlooked key).symm.trans found

theorem Begins.started
    (begins : page.Begins)
    (bare : page.IsBare) :
    page.Started := by
  refine ⟨by simp [begins.rest], ?_⟩
  intro key outlook context found
  rw [outlook?, binding?, bare.bindings] at found
  cases found

theorem not_acts_of_idle (idle : page.HasIdleScripts) : ¬ page.Acts key := by
  rintro ⟨script, position, _, action, _, chosen, _⟩
  cases found : page.scripts.get? script with
  | none => simp [found] at chosen
  | some known => simp [found, idle known (List.mem_of_getElem? found)] at chosen

end Page

namespace Run

variable {start page : Page} {passed : List Page}

/-- All along a plain run watches and bindings belong together, and every binding has a plan. -/
theorem linked
    (begins : start.Begins)
    (bare : start.IsBare)
    (idle : start.HasIdleScripts)
    (run : Run Move.IsPlain start passed page) :
    (∀ earlier ∈ passed, earlier.Linked) ∧ page.Linked ∧ page.Started ∧
      ∀ key, (page.life key).Planned key := by
  have planned {passed : List Page} {page : Page}
      (run : Run Move.IsPlain start passed page)
      (linked : ∀ earlier ∈ passed, earlier.Linked)
      (key : BindingId) :
      (page.life key).Planned key :=
    (run.undisturbed begins fun earlier member =>
      Page.not_acts_of_idle (linked earlier member).idle).planned
  induction run with
  | begin =>
      have none : ∀ earlier ∈ ([] : List Page), earlier.Linked := by simp
      exact ⟨none, begins.linked bare idle, begins.started bare, planned .begin none⟩
  | move move earlier rest plain inductionHypothesis =>
      obtain ⟨before, linked, started, _⟩ := inductionHypothesis
      have passed := List.forall_mem_cons.mpr ⟨linked, before⟩
      exact ⟨passed, linked.move plain, started.move plain rest,
        planned (earlier.move move rest plain) passed⟩
  | @step _ page earlier inductionHypothesis =>
      obtain ⟨before, linked, started, plans⟩ := inductionHypothesis
      have passed := List.forall_mem_cons.mpr ⟨linked, before⟩
      refine ⟨passed, ?_, started.step linked.idle linked.wired.tracks plans, planned earlier.step passed⟩
      cases stack : page.stack with
      | nil => rwa [Page.step_of_nil stack]
      | cons call outer =>
          have popped : ({ page with stack := outer } : Page).Linked :=
            linked.frame ⟨rfl, rfl, fun _ => rfl⟩
          exact popped.turn (Page.turn_step linked.idle started.calls stack)

end Run

end Hydration
