import Hydration.Page.Step

/-!
# What comes of calls

Some calls reach beyond the life of one binding: a binding is started, an import
is started or looked at, and a script is run.  Each of these operations has one
statement here that lists all that can come of it, with the guards, so that laws
about pages need not look at the operation again.
-/

namespace Hydration

/-- The queue in which imports wait that are looked at like this. -/
def Spawning.queue : Spawning → QueueName
  | .immediate => .page
  | .queued => .host

/-- An import that has not arrived waits for a gate that is closed. -/
theorem Catalog.awaited_of_poll_eq_none
    {μ : Type}
    {catalog : Catalog μ}
    {opened : List String}
    {pending : Import μ}
    (waits : catalog.poll opened pending = none) :
    ∃ gate, pending.awaited? opened = some gate := by
  unfold poll at waits
  cases awaited : pending.awaited? opened with
  | some gate => exact ⟨gate, rfl⟩
  | none => cases pending <;> simp [awaited] at waits

namespace Page

variable {page : Page} {key : BindingId}

/-- A page on which a watch was given to a binding. -/
def giveWatch (page : Page) (key : BindingId) (scene : Scene) (watch : WatchId) : Page :=
  { page with scene := scene.listen watch (.binding key) }.changeBinding key
    fun binding => { binding with watch := some watch }

theorem binding?_giveWatch
    (page : Page)
    (key other : BindingId)
    (scene : Scene)
    (watch : WatchId) :
    (page.giveWatch key scene watch).binding? other =
      if other = key then
        (page.binding? other).map fun binding => { binding with watch := some watch }
      else page.binding? other := by
  exact binding?_changeBinding _ key other _

/-- The context of a binding holds as the watch says that it was given. -/
theorem matchesContext_giveWatch
    {binding : Binding}
    (found : page.binding? key = some binding)
    (scene : Scene)
    (watch : WatchId) :
    (page.giveWatch key scene watch).matchesContext key =
      (page.giveWatch key scene watch).scene.watchValue watch := by
  simp [matchesContext, binding?_giveWatch, found]

/-- What can come of starting a binding. -/
inductive Starts (page : Page) (key : BindingId) : Page → Prop where
  /-- It was not made, it has ended, or it is being watched. -/
  | late
      (done :
        ∀ binding, page.binding? key = some binding →
          binding.phase = .destroyed ∨ binding.watch.isSome) :
      page.Starts key page
  /-- Its context could not be read. -/
  | unread
      {binding : Binding}
      {fault : ContextFault}
      (found : page.binding? key = some binding)
      (living : binding.phase ≠ .destroyed)
      (unwatched : binding.watch = none)
      (unread : binding.context = .error fault) :
      page.Starts key (page.report key (.configuration fault))
  /-- Its context cannot be watched. -/
  | refused
      {binding : Binding}
      {context : Context}
      {scene : Scene}
      {fault : ContextFault}
      (found : page.binding? key = some binding)
      (living : binding.phase ≠ .destroyed)
      (unwatched : binding.watch = none)
      (read : binding.context = .ok context)
      (result :
        page.scene.watch page.pinned binding.hooks.factories binding.element context =
          (scene, .error fault)) :
      page.Starts key (({ page with scene } : Page).report key (.configuration fault))
  /-- Its context is watched, and it is to be mounted if the context holds. -/
  | watched
      {binding : Binding}
      {context : Context}
      {scene : Scene}
      {watch : WatchId}
      (found : page.binding? key = some binding)
      (living : binding.phase ≠ .destroyed)
      (unwatched : binding.watch = none)
      (read : binding.context = .ok context)
      (result :
        page.scene.watch page.pinned binding.hooks.factories binding.element context =
          (scene, .ok watch)) :
      page.Starts key
        ((page.giveWatch key scene watch).push
          (if (page.giveWatch key scene watch).scene.watchValue watch then
            [.request (.bind .mount key)]
          else []))

theorem starts (page : Page) (key : BindingId) : page.Starts key (page.start key) := by
  unfold start
  split
  · next absent =>
      refine .late fun binding found => ?_
      cases absent.symm.trans found
  · next binding found =>
      split
      · next done =>
          refine .late fun other there => ?_
          cases found.symm.trans there
          exact done
      · next ready =>
          rw [not_or, Bool.not_eq_true, Option.isSome_eq_false_iff, Option.isNone_iff_eq_none]
            at ready
          obtain ⟨living, unwatched⟩ := ready
          split
          · next fault unread => exact .unread found living unwatched unread
          · next context read =>
              split
              · next scene fault result => exact .refused found living unwatched read result
              · next scene watch result =>
                  have outcome := Starts.watched found living unwatched read result
                  rw [← matchesContext_giveWatch found] at outcome
                  change page.Starts key
                    (if (page.giveWatch key scene watch).matchesContext key then
                      (page.giveWatch key scene watch).push [.request (.bind .mount key)]
                    else page.giveWatch key scene watch)
                  split
                  · next holds => rwa [if_pos holds] at outcome
                  · next fails => rwa [if_neg fails] at outcome

/-- What can come of spawning a task. -/
inductive Spawns (page : Page) (spawning : Spawning) (task : Task) : Page → Prop where
  /-- It waits in its queue; if it was looked at, its import waits for a closed gate. -/
  | waits
      (closed :
        spawning = .immediate → ∃ gate, task.pending.awaited? page.executor.opened = some gate) :
      page.Spawns spawning task
        { page with executor := page.executor.spawn spawning.queue task }
  /-- It was looked at, and its import is over. -/
  | lands
      {outcome : Except MountFault Module}
      {catalog : Catalog Module}
      (immediate : spawning = .immediate)
      (arrived :
        page.catalog.poll page.executor.opened task.pending = some (outcome, catalog)) :
      page.Spawns spawning task
        ({ page with catalog }.push [.arrive task.binding task.attempt outcome])

theorem spawns (page : Page) (spawning : Spawning) (task : Task) :
    page.Spawns spawning task (page.spawn spawning task) := by
  cases spawning with
  | queued => exact .waits nofun
  | immediate =>
      unfold spawn
      dsimp only
      split
      · next unarrived => exact .waits fun _ => Catalog.awaited_of_poll_eq_none unarrived
      · next outcome catalog arrived => exact .lands rfl arrived

/-- What can come of launching an attempt. -/
inductive Launches (page : Page) (key : BindingId) (attempt : Nat) : Page → Prop where
  /-- The attempt is not current. -/
  | late
      (done :
        ∀ binding, page.binding? key = some binding → ¬ isCurrent binding attempt) :
      page.Launches key attempt page
  /-- Its import is started, which is reported if it loads a chunk, and spawned. -/
  | starts
      {binding : Binding}
      {after : Page}
      (reports : List Catalog.LoadReport)
      (found : page.binding? key = some binding)
      (current : isCurrent binding attempt)
      (spawned :
        { page with
          catalog := (page.startImport binding.hooks.importer binding.name).catalog
          history := reports.map Event.loading ++ page.history }.Spawns
            binding.hooks.spawning
            ⟨key, attempt, (page.startImport binding.hooks.importer binding.name).pending⟩
            after) :
      page.Launches key attempt after

theorem launches (page : Page) (key : BindingId) (attempt : Nat) :
    page.Launches key attempt (page.launch key attempt) := by
  unfold launch
  split
  · next absent =>
      refine .late fun binding found => ?_
      cases absent.symm.trans found
  · next binding found =>
      split
      · next current =>
          dsimp only
          split
          · exact .starts [] found current (spawns _ _ _)
          · next report _ => exact .starts [report] found current (spawns _ _ _)
      · next done =>
          refine .late fun other there => ?_
          cases found.symm.trans there
          exact done

/--
The start of an import is reported at most, changes the queues and the catalog, and
brings the import at once or not at all.
-/
theorem launch_eq (page : Page) (key : BindingId) (attempt : Nat) :
    ∃ catalog executor added, ∃ reports : List Catalog.LoadReport,
      page.launch key attempt =
          { page with
            catalog, executor
            history := reports.map Event.loading ++ page.history
            stack := added ++ page.stack } ∧
        (added = [] ∨ ∃ outcome, added = [.arrive key attempt outcome]) := by
  have launches := page.launches key attempt
  generalize page.launch key attempt = after at launches ⊢
  cases launches with
  | late => exact ⟨_, _, [], [], rfl, .inl rfl⟩
  | starts _ _ _ spawned =>
      cases spawned with
      | waits => exact ⟨_, _, [], _, rfl, .inl rfl⟩
      | lands => exact ⟨_, _, [_], _, rfl, .inr ⟨_, rfl⟩⟩

/-- What can come of driving a queue. -/
inductive Drives (page : Page) (queue : QueueName) : Page → Prop where
  /-- The queue is empty, and the drive is over. -/
  | drained
      (spent : (page.executor.drain queue).next? queue = none) :
      page.Drives queue { page with executor := page.executor.drain queue }
  /-- The import of the next task is over. -/
  | lands
      {task : Task}
      {executor : Executor Task}
      {outcome : Except MountFault Module}
      {catalog : Catalog Module}
      (taken : (page.executor.drain queue).next? queue = some (task, executor))
      (arrived : page.catalog.poll executor.opened task.pending = some (outcome, catalog)) :
      page.Drives queue
        ({ page with catalog, executor }.push
          [.arrive task.binding task.attempt outcome, .drive queue])
  /-- The import of the next task waits for a closed gate. -/
  | waits
      {task : Task}
      {executor : Executor Task}
      {gate : String}
      (taken : (page.executor.drain queue).next? queue = some (task, executor))
      (closed : task.pending.awaited? executor.opened = some gate) :
      page.Drives queue
        ({ page with executor := executor.wait gate queue task }.push [.drive queue])

theorem drives (page : Page) (queue : QueueName) :
    page.Drives queue (page.driveNext queue) := by
  unfold driveNext
  dsimp only
  split
  · next spent => exact .drained spent
  · next task executor taken =>
      split
      · next outcome catalog arrived => exact .lands taken arrived
      · next unarrived =>
          obtain ⟨gate, closed⟩ := Catalog.awaited_of_poll_eq_none unarrived
          rw [closed]
          exact .waits taken closed

/-- A drive changes the queues and the catalog, and it goes on after what it has brought. -/
theorem driveNext_eq (page : Page) (queue : QueueName) :
    ∃ catalog executor added,
      page.driveNext queue = { page with catalog, executor, stack := added ++ page.stack } ∧
        (added = [] ∨ added = [.drive queue] ∨
          ∃ binding attempt outcome,
            added = [.arrive binding attempt outcome, .drive queue]) := by
  have drives := page.drives queue
  generalize page.driveNext queue = after at drives ⊢
  cases drives with
  | drained => exact ⟨_, _, [], rfl, .inl rfl⟩
  | lands => exact ⟨_, _, [_, _], rfl, .inr (.inr ⟨_, _, _, rfl⟩)⟩
  | waits => exact ⟨_, _, [_], rfl, .inr (.inl rfl)⟩

/-- What can come of running a script from one of its actions on. -/
inductive Plays (page : Page) (script : ScriptId) (position : Nat) (subject : Option BindingId) :
    Page → Prop where
  /-- There is no such action. -/
  | finished : page.Plays script position subject page
  /-- The action is for another binding, or it was run as often as it may be. -/
  | skips
      {known : Script}
      {action : Action}
      (stored : page.scripts.get? script = some known)
      (here : known.actions[position]? = some action)
      (idle :
        ¬ (Action.isFor action ((subject.bind page.binding?).map Binding.label) ∧
          0 < action.remaining)) :
      page.Plays script position subject (page.push [.script script (position + 1) subject])
  /-- The action is run once more. -/
  | plays
      {known : Script}
      {action : Action}
      (stored : page.scripts.get? script = some known)
      (here : known.actions[position]? = some action)
      (suits : Action.isFor action ((subject.bind page.binding?).map Binding.label))
      (left : 0 < action.remaining) :
      page.Plays script position subject
        ({ page with
          scripts := page.scripts.modify script fun script =>
            Script.spend script position }.push
          ((Act.request? action.act subject).toList.map Call.request ++
            [Call.script script (position + 1) subject]))

theorem plays (page : Page) (script : ScriptId) (position : Nat) (subject : Option BindingId) :
    page.Plays script position subject (page.runScript script position subject) := by
  unfold runScript
  split
  · exact .finished
  · next action chosen =>
      obtain ⟨known, stored, here⟩ := Option.bind_eq_some_iff.mp chosen
      dsimp only
      split
      · next runs =>
          rw [Bool.and_eq_true, decide_eq_true_eq] at runs
          have outcome : page.Plays script position subject _ :=
            .plays stored here runs.1 runs.2
          split
          · next asks => rwa [asks] at outcome
          · next request asks => rwa [asks] at outcome
      · next idle =>
          rw [Bool.and_eq_true, decide_eq_true_eq] at idle
          exact .skips stored here idle

end Page

end Hydration
