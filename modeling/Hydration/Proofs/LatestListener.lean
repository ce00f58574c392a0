import Hydration.Proofs.CurrentMonitors
import Hydration.Proofs.Sharing.Joining

/-!
# A toggle tells the watch that began to listen last

Watches may share toggles in any way, and each of them may be given one audience
after the other, be disposed or be dropped.  A toggle that changes tells one
audience at most: the present one of the watch that began to listen to the toggle
last, unless that watch has ended since.  What it tells is whether all toggles of
the watch were last set to hold.
-/

namespace Hydration

namespace Scene

/-- A watch, with the host's name for it and the number of its audience. -/
structure Holder where
  watch : WatchId
  handle : Nat
  round : Nat
  deriving DecidableEq, Repr

/-- Whether a watch that is given an audience begins to listen to a monitor. -/
def takes (scene : Scene) (watch : WatchId) (key : MonitorId) : Bool :=
  (scene.watches.get? watch).any fun entry =>
    !entry.disposed && entry.monitors.contains key

/-- Who has begun to listen to a monitor last and not ended since, after a chore. -/
def heir (scene : Scene) (latest : MonitorId → Option Holder) (key : MonitorId) :
    Chore → Option Holder
  | .watch _ _ _ => latest key
  | .listen watch handle round =>
      if scene.takes watch key then some ⟨watch, handle, round⟩ else latest key
  | .dispose watch => (latest key).filter fun holder => holder.watch ≠ watch
  | .drop watch => (latest key).filter fun holder => holder.watch ≠ watch

/-- A monitor tells nobody, or the watch of a holder, which has the audience of the holder. -/
def Heeds (scene : Scene) (key : MonitorId) : Option Holder → Prop
  | none => scene.listener? key = none
  | some holder =>
      scene.listener? key = some (.watch holder.watch) ∧
        ∃ entry, scene.watches.get? holder.watch = some entry ∧
          entry.audience = some (.host holder.handle holder.round)

/-- What the host is told when a monitor with this holder has flipped. -/
def tidings (scene : Scene) : Option Holder → List Event
  | none => []
  | some holder => [.told holder.handle holder.round (scene.watchValue holder.watch)]

variable {scene after : Scene} {key : MonitorId} {holder : Option Holder}

theorem Heeds.congr
    (heeds : scene.Heeds key holder)
    (listener : after.listener? key = scene.listener? key)
    (others :
      ∀ watch entry, scene.watches.get? watch = some entry →
        after.watches.get? watch = some entry) :
    after.Heeds key holder := by
  cases holder with
  | none => exact listener.trans heeds
  | some holder =>
      obtain ⟨listens, entry, there, audience⟩ := heeds
      exact ⟨listener.trans listens, entry, others _ entry there, audience⟩

theorem listener?_store (judge : Source → Bool) (keys : List MonitorId) (key : MonitorId) :
    (scene.store judge keys).listener? key = scene.listener? key := by
  simp only [listener?, get?_store]
  split
  · cases scene.monitors.get? key <;> rfl
  · rfl

/-- Every monitor tells whom it is to tell, and no watch undoes what is not its own. -/
structure Heeding (scene : Scene) (latest : MonitorId → Option Holder) : Prop where
  vital : scene.Vital []
  fenced : scene.Fenced
  heeds : ∀ key, scene.Heeds key (latest key)

section Heeding

variable {latest : MonitorId → Option Holder}

theorem Heeding.grow
    (heeding : scene.Heeding latest)
    (grows : scene.Grows after)
    (vital : after.Vital []) :
    after.Heeding latest := by
  refine ⟨vital, heeding.fenced.grow grows, fun key => ?_⟩
  refine (heeding.heeds key).congr (grows.listener? key) fun _ _ there => ?_
  rwa [grows.watches]

/-- A context that is watched now listens to nothing yet. -/
theorem Heeding.watch
    (heeding : scene.Heeding latest)
    (factories : Factories)
    (element : ElementId)
    (context : Context) :
    (scene.watch [] factories element context).1.Heeding latest := by
  have vital := heeding.vital.watch factories element context
  rcases heeding.vital.tracks.watch_cases (fun _ => id) factories element context with
    ⟨_, fault, result, grows, _⟩ | ⟨made, keys, result, _, grows, _, _, answers⟩
  · rw [result] at vital ⊢
    exact heeding.grow grows vital
  · rw [result] at vital ⊢
    have known : ∀ key ∈ keys, ∃ monitor, made.monitors.get? key = some monitor := by
      intro key member
      obtain ⟨_, monitor, found, _⟩ := exists_answers answers member
      exact ⟨monitor, found⟩
    refine ⟨vital, (heeding.fenced.grow grows).addWatch context known, fun key => ?_⟩
    refine (heeding.heeds key).congr (grows.listener? key) fun watch entry there => ?_
    rw [← grows.watches] at there
    exact Table.get?_push_eq_some_iff.mpr (.inl there)

/-- A watch that goes silent is told no more, and all others are told as before. -/
theorem Heeding.silence
    {watch : WatchId}
    (heeding : scene.Heeding latest)
    (silences : scene.Silences after watch) :
    after.Heeding fun key => (latest key).filter fun holder => holder.watch ≠ watch := by
  refine ⟨heeding.vital.silence silences, heeding.fenced.silence silences, fun key => ?_⟩
  have listener := heeding.fenced.listener?_silence heeding.vital.leased silences key
  have heeds := heeding.heeds key
  cases held : latest key with
  | none =>
      rw [held] at heeds
      have nobody : scene.listener? key = none := heeds
      rw [nobody] at listener
      exact listener
  | some holder =>
      rw [held] at heeds
      obtain ⟨listens, entry, there, audience⟩ := heeds
      by_cases same : holder.watch = watch
      · rw [if_pos (by rw [listens, same])] at listener
        rw [Option.filter_some, if_neg (by simp [same])]
        exact listener
      · rw [if_neg (by simp [listens, same])] at listener
        rw [Option.filter_some, if_pos (by simp [same])]
        exact ⟨listener.trans listens, entry, (silences.others _ same).trans there, audience⟩

/-- A watch that is given an audience takes over the monitors it has asked for. -/
theorem Heeding.listen
    (heeding : scene.Heeding latest)
    (watch : WatchId)
    (handle round : Nat) :
    (scene.listen watch (.host handle round)).Heeding fun key =>
      scene.heir latest key (.listen watch handle round) := by
  have leased := heeding.vital.leased
  have vital := heeding.vital.listen watch (.host handle round)
  rcases scene.listen_cases watch (.host handle round) with
    ⟨ended, silences⟩ | ⟨entry, found, living, listens⟩
  · have heeding' := heeding.silence silences
    refine ⟨vital, heeding'.fenced, fun key => ?_⟩
    -- A watch that has ended is told of no monitor, and it takes none.
    have declines : scene.takes watch key = false := by
      cases found : scene.watches.get? watch with
      | none => simp [takes, found]
      | some entry => simp [takes, found, ended entry found]
    have foreign : (latest key).filter (fun holder => holder.watch ≠ watch) = latest key := by
      have heeds := heeding.heeds key
      cases held : latest key with
      | none => rfl
      | some holder =>
          rw [held] at heeds
          obtain ⟨monitor, found, listens⟩ := Option.bind_eq_some_iff.mp heeds.1
          obtain ⟨entry, there, living, _⟩ := leased.living found listens
          refine (Option.filter_some ..).trans (if_pos (decide_eq_true ?_))
          rintro rfl
          cases living.symm.trans (ended entry there)
    have heeds := heeding'.heeds key
    rw [foreign] at heeds
    simpa only [heir, declines, Bool.false_eq_true, if_false] using heeds
  · refine ⟨vital, heeding.fenced.listen found listens, fun key => ?_⟩
    have listener := heeding.fenced.listener?_listen leased found listens key
    have takes : scene.takes watch key = true ↔ key ∈ entry.monitors := by
      simp [Scene.takes, found, living]
    by_cases mine : key ∈ entry.monitors
    · obtain ⟨subscriptions, there, _⟩ := listens.own
      rw [if_pos mine] at listener
      simp only [heir, if_pos (takes.mpr mine)]
      exact ⟨listener, _, there, rfl⟩
    · rw [if_neg mine] at listener
      simp only [heir, if_neg (mt takes.mp mine)]
      have heeds := heeding.heeds key
      cases held : latest key with
      | none =>
          rw [held] at heeds
          exact listener.trans heeds
      | some holder =>
          rw [held] at heeds
          obtain ⟨tells, known, there, audience⟩ := heeds
          have different : holder.watch ≠ watch := by
            intro same
            rw [same] at tells
            exact mine (heeding.fenced.mem_of_listener? leased found tells)
          exact ⟨listener.trans tells, known, (listens.others _ different).trans there, audience⟩

/-- After every chore a monitor tells the watch that began to listen last and has not ended. -/
theorem Heeding.run (heeding : scene.Heeding latest) (chore : Chore) :
    (scene.run [] chore).Heeding fun key => scene.heir latest key chore := by
  cases chore with
  | watch factories element context => exact heeding.watch factories element context
  | listen watch handle round => exact heeding.listen watch handle round
  | dispose watch => exact heeding.silence (silences_disposeWatch scene watch)
  | drop watch => exact heeding.silence (silences_dropWatch scene watch)

/-- Setting a toggle changes nobody's listener. -/
theorem Heeding.setToggle (heeding : scene.Heeding latest) (name : String) (value : Bool) :
    (scene.setToggle name value).1.Heeding latest := by
  obtain ⟨grows, _⟩ := heeding.vital.tracks.toggle name
  have vital := (heeding.vital.setToggle name value).mono (List.subset_append_right _ [])
  refine ⟨vital, (heeding.fenced.grow grows).store rfl rfl, fun key => ?_⟩
  refine (heeding.heeds key).congr ?_ fun watch entry there => ?_
  · exact (listener?_store _ _ key).trans (grows.listener? key)
  · have same : (scene.setToggle name value).1.watches = scene.watches := grows.watches
    rwa [same]

/-- A toggle flips exactly if it is set to another value than it has. -/
theorem Heeding.flipped_setToggle
    (heeding : scene.Heeding latest)
    (name : String)
    (value : Bool) :
    (scene.setToggle name value).2 =
      if scene.toggleValue name = value then [] else [(scene.toggle name).1] := by
  have knows : scene.KnowsToggle name := by
    intro monitor named
    obtain ⟨entry, found, _⟩ := heeding.vital.tracks.toggles name monitor named
    simp [found]
  obtain ⟨_, there, same, _⟩ := toggle_named knows
  obtain ⟨entry, found⟩ := Option.isSome_iff_exists.mp there
  have value' : entry.value = scene.toggleValue name := by
    rw [← same, Scene.value, found]
    rfl
  have flips : (scene.setToggle name value).2 =
      [(scene.toggle name).1].filter fun key =>
        ((scene.toggle name).2.monitors.get? key).any fun entry => entry.value != value := rfl
  rw [flips, List.filter_singleton, found, Option.any_some, value']
  by_cases equal : scene.toggleValue name = value
  · simp [equal]
  · have differs : (scene.toggleValue name != value) = true := by simpa using equal
    rw [differs, if_neg equal]
    rfl

end Heeding

end Scene

/-- Whether a call does nothing more. -/
def Call.isSpent : Call → Bool
  | deliver [] | pin _ => true
  | _ => false

namespace Page

open Scene (Chore Holder)

variable {page : Page}

/-- Calls that do nothing more are over as soon as they are carried on. -/
theorem run_of_spent
    {calls : List Call}
    (spent : ∀ call ∈ calls, call.isSpent)
    (stack : page.stack = calls)
    (limit : Nat) :
    run (limit + calls.length) page = { page with stack := [] } := by
  induction calls generalizing page with
  | nil =>
      have same : ({ page with stack := [] } : Page) = page := by rw [← stack]
      rw [same]
      cases limit with
      | zero => rfl
      | succ limit => rw [List.length_nil, Nat.add_zero, run, if_pos (by simp [isAtRest, stack])]
  | cons call rest inductionHypothesis =>
      have done : page.step = { page with stack := rest } := by
        rw [step_of_stack stack]
        have isSpent := spent call List.mem_cons_self
        cases call with
        | deliver monitors =>
            cases monitors with
            | nil => rfl
            | cons => cases isSpent
        | pin => rfl
        | _ => cases isSpent
      have busy : ¬ page.isAtRest := by simp [isAtRest, stack]
      have others : ∀ call ∈ rest, call.isSpent :=
        fun call member => spent call (List.mem_cons_of_mem _ member)
      rw [List.length_cons, ← Nat.add_assoc, run, if_neg busy, done]
      exact inductionHypothesis others rfl

/-- A monitor that flipped tells the host what its holder is to hear; then nothing is left. -/
theorem deliver_heeded
    {key : MonitorId}
    {holder : Option Holder}
    (heeds : page.scene.Heeds key holder) :
    ∃ calls, calls.length ≤ 3 ∧ (∀ call ∈ calls, Call.isSpent call) ∧
      page.deliver [key] =
        { page with
          history := page.scene.tidings holder ++ page.history
          stack := calls ++ page.stack } := by
  cases holder with
  | none =>
      have nobody : page.scene.listener? key = none := heeds
      refine ⟨[.deliver []], by simp, by simp [Call.isSpent], ?_⟩
      simp only [deliver, nobody]
      rfl
  | some holder =>
      obtain ⟨listens, entry, there, audience⟩ := heeds
      refine ⟨[.pin entry.monitors, .pin [key], .deliver []], by simp, by simp [Call.isSpent], ?_⟩
      have waiting : ((page.push [.deliver []]).push [.pin [key]]).scene = page.scene := rfl
      have value : page.scene.watchValue holder.watch = page.scene.allHold entry.monitors := by
        simp only [Scene.watchValue, there]
      simp only [deliver, listens, hear, waiting, there, audience, tell, Scene.tidings, value]
      rfl

/-- What the host does with its watches and toggles while nothing is under way. -/
inductive Doing where
  | chore (chore : Chore)
  | toggle (name : String) (value : Bool)

def did (page : Page) : Doing → Page
  | .chore chore => { page with scene := page.scene.run [] chore }
  | .toggle name value => page.perform (.toggle name value)

/-- A page after the host has done one thing after the other, the latest of them first. -/
def since (start : Page) : List Doing → Page
  | [] => start
  | doing :: earlier => (start.since earlier).did doing

/-- Who has begun to listen to a monitor last, and has neither been disposed nor dropped since. -/
def latest (start : Page) : List Doing → MonitorId → Option Holder
  | [], _ => none
  | .chore chore :: earlier, key =>
      (start.since earlier).scene.heir (start.latest earlier) key chore
  | .toggle _ _ :: earlier, key => start.latest earlier key

/-- The context that a watch is on, and the factories its monitors were made by. -/
def origin? (start : Page) : List Doing → WatchId → Option (Factories × Context)
  | [], _ => none
  | .chore chore :: earlier, watch =>
      (start.since earlier).scene.origin? (start.origin? earlier) watch chore
  | .toggle _ _ :: earlier, watch => start.origin? earlier watch

/-- The value a toggle was set to last; it does not hold until it is set. -/
def lastSet : List Doing → String → Bool
  | [], _ => false
  | .chore _ :: earlier, name => lastSet earlier name
  | .toggle other value :: earlier, name => if name = other then value else lastSet earlier name

/-- A toggle that is set tells the audience of its holder, if it changes. -/
theorem perform_toggle
    {latest : MonitorId → Option Holder}
    (rest : page.stack = [])
    (heeding : page.scene.Heeding latest)
    (name : String)
    (value : Bool) :
    let scene := (page.scene.setToggle name value).1
    let tidings :=
      if page.scene.toggleValue name = value then []
      else scene.tidings (latest (page.scene.toggle name).1)
    page.perform (.toggle name value) =
      { page with scene, history := tidings ++ page.history } := by
  intro scene tidings
  obtain ⟨limit, enough⟩ : ∃ limit, stepLimit = limit + 5 := ⟨stepLimit - 5, by decide⟩
  have flips := heeding.flipped_setToggle name value
  have asked : (page.push [.request (.toggle name value)]).step =
      { page with scene, stack := [.deliver (page.scene.setToggle name value).2] } := by
    simp [step, push, rest, carryOn, answer, refresh, scene]
  have busy : ¬ (page.push [.request (.toggle name value)]).isAtRest := by simp [isAtRest, push]
  rw [perform, enough, run, if_neg busy, asked, flips]
  by_cases same : page.scene.toggleValue name = value
  · have spent : ∀ call ∈ [Call.deliver []], call.isSpent := by simp [Call.isSpent]
    rw [if_pos same]
    refine (run_of_spent spent rfl (limit + 3)).trans ?_
    simp [tidings, same, rest]
  · let changed : Page := { page with scene, stack := [] }
    have heeds : changed.scene.Heeds (page.scene.toggle name).1
        (latest (page.scene.toggle name).1) :=
      (heeding.setToggle name value).heeds _
    obtain ⟨calls, few, spent, told⟩ := deliver_heeded heeds
    obtain ⟨left, enough⟩ : ∃ left, limit + 3 = left + calls.length :=
      ⟨limit + 3 - calls.length, by omega⟩
    rw [if_neg same, run, if_neg (by simp [isAtRest]), step_of_stack rfl]
    refine (congrArg (run (limit + 3)) told).trans ?_
    rw [enough]
    refine (run_of_spent spent (by simp [changed]) left).trans ?_
    simp [tidings, same, rest, changed]

/-- All along the doings of the host a monitor tells the watch that began to listen last. -/
theorem heeding_since
    {start : Page}
    (opens : start.Opens)
    (doings : List Doing) :
    (start.since doings).stack = [] ∧
      (start.since doings).scene.Heeding (start.latest doings) := by
  induction doings with
  | nil =>
      obtain ⟨tree, viewport, scene⟩ := opens.scene
      refine ⟨opens.stack, ?_⟩
      rw [since, scene]
      exact ⟨.empty tree viewport, .empty tree viewport, fun _ => rfl⟩
  | cons doing earlier inductionHypothesis =>
      obtain ⟨rest, heeding⟩ := inductionHypothesis
      cases doing with
      | chore chore => exact ⟨rest, heeding.run chore⟩
      | toggle name value =>
          rw [since, did, perform_toggle rest heeding]
          exact ⟨rest, heeding.setToggle name value⟩

theorem scene_since_toggle
    {start : Page}
    (opens : start.Opens)
    (doings : List Doing)
    (name : String)
    (value : Bool) :
    (start.since (.toggle name value :: doings)).scene =
      ((start.since doings).scene.setToggle name value).1 := by
  obtain ⟨rest, heeding⟩ := heeding_since opens doings
  rw [since, did, perform_toggle rest heeding]

/-- All along the doings of the host toggles have the values they were set to last. -/
theorem toggleValue_since
    {start : Page}
    (opens : start.Opens)
    (doings : List Doing)
    (name : String) :
    (start.since doings).scene.toggleValue name = lastSet doings name := by
  induction doings with
  | nil =>
      obtain ⟨tree, viewport, scene⟩ := opens.scene
      rw [since, scene]
      rfl
  | cons doing earlier inductionHypothesis =>
      obtain ⟨_, heeding⟩ := heeding_since opens earlier
      cases doing with
      | chore chore =>
          exact (heeding.vital.toggleValue_run chore name).trans inductionHypothesis
      | toggle other value =>
          rw [scene_since_toggle opens, heeding.vital.toggleValue_setToggle, inductionHypothesis,
            lastSet]

/-- All along the doings of the host watches have the monitors of the toggles they ask. -/
theorem lent_since
    {start : Page}
    (opens : start.Opens)
    (doings : List Doing) :
    (start.since doings).scene.Lent (start.origin? doings) := by
  induction doings with
  | nil =>
      obtain ⟨tree, viewport, scene⟩ := opens.scene
      rw [since, scene]
      exact fun _ => .none
  | cons doing earlier inductionHypothesis =>
      obtain ⟨_, heeding⟩ := heeding_since opens earlier
      cases doing with
      | chore chore => exact inductionHypothesis.run heeding.vital chore
      | toggle name value =>
          rw [scene_since_toggle opens]
          exact inductionHypothesis.setToggle heeding.vital name value

/-- A watch that holds a toggle is on a context that asks the toggle. -/
theorem asks_of_latest
    {start : Page}
    {name : String}
    {key : MonitorId}
    {holder : Holder}
    (opens : start.Opens)
    (doings : List Doing)
    (named : Text.valueOf? name (start.since doings).scene.toggles = some key)
    (held : start.latest doings key = some holder) :
    ∃ factories context, start.origin? doings holder.watch = some (factories, context) ∧
      ∀ names, context.AsksToggles factories names → name ∈ names := by
  obtain ⟨_, heeding⟩ := heeding_since opens doings
  have heeds := heeding.heeds key
  rw [held] at heeds
  obtain ⟨listens, entry, there, _⟩ := heeds
  have lent := lent_since opens doings
  have related := lent holder.watch
  rw [Scene.monitorsOf?, there, Option.map_some] at related
  cases origin : start.origin? doings holder.watch with
  | none =>
      rw [origin] at related
      cases related
  | some known =>
      obtain ⟨factories, context⟩ := known
      refine ⟨factories, context, rfl, fun names asks => ?_⟩
      exact (lent.joins origin asks).mem heeding.vital.tracks there named
        (heeding.fenced.mem_of_listener? heeding.vital.leased there listens)

/--
The host has made watches that share toggles in any way, given them audiences,
disposed and dropped them, and set toggles, in any order.  A toggle has the value it
was set to last, and setting it leaves all other monitors as they are.  A toggle that
is set to the value it has tells nobody.  A toggle that changes tells one audience,
the present one of the watch that began to listen to it last, whether its context
holds now, or nobody if that watch has been disposed or dropped since.  A watch on a
context that asks toggles alone has their monitors and holds just if they all do.  No
watch that ends takes a monitor from another watch that listens to it.
-/
theorem toggle_tells_latest
    {start : Page}
    (opens : start.Opens)
    (doings : List Doing)
    (name : String)
    (value : Bool) :
    let page := start.since doings
    let after := page.perform (.toggle name value)
    let monitor := (page.scene.toggle name).1
    after.isAtRest ∧ after.scene = (page.scene.setToggle name value).1 ∧
      (∀ other, page.scene.toggleValue other = lastSet doings other) ∧
      after.scene.toggleValue name = value ∧
      (∀ other, other ≠ name → after.scene.toggleValue other = page.scene.toggleValue other) ∧
      (∀ key, key ≠ monitor → after.scene.value key = page.scene.value key) ∧
      after.history =
        (if page.scene.toggleValue name = value then []
          else after.scene.tidings (start.latest doings monitor)) ++
          page.history ∧
      Text.valueOf? name after.scene.toggles = some monitor ∧
      (∀ holder, start.latest doings monitor = some holder →
        ∃ factories context, start.origin? doings holder.watch = some (factories, context) ∧
          ∀ names, context.AsksToggles factories names → name ∈ names) ∧
      (∀ watch factories context names,
        start.origin? doings watch = some (factories, context) →
          context.AsksToggles factories names → after.scene.Joins watch names) ∧
      ∀ key ended other, other ≠ ended →
        page.scene.listener? key = some (.watch other) →
          (page.scene.disposeWatch ended).listener? key = some (.watch other) ∧
            (page.scene.dropWatch ended).listener? key = some (.watch other) := by
  intro page after monitor
  obtain ⟨rest, heeding⟩ := heeding_since opens doings
  have performed : after = _ := perform_toggle rest heeding name value
  have scene : after.scene = (page.scene.setToggle name value).1 :=
    scene_since_toggle opens doings name value
  have values (other : String) :
      after.scene.toggleValue other =
        if other = name then value else page.scene.toggleValue other := by
    rw [scene, heeding.vital.toggleValue_setToggle]
  have named : Text.valueOf? name after.scene.toggles = some monitor := by
    rw [scene]
    exact Scene.named_toggle page.scene name
  have lent : after.scene.Lent (start.origin? doings) :=
    lent_since opens (.toggle name value :: doings)
  have spared {scene : Scene} {key : MonitorId} {ended other : WatchId}
      (silences : page.scene.Silences scene ended)
      (different : other ≠ ended)
      (listens : page.scene.listener? key = some (.watch other)) :
      scene.listener? key = some (.watch other) := by
    rw [heeding.fenced.listener?_silence heeding.vital.leased silences, listens,
      if_neg (by simpa using different)]
  refine ⟨?_, scene, toggleValue_since opens doings, ?_, ?_, ?_, ?_, named, ?_, ?_, ?_⟩
  · rw [performed]
    simp [isAtRest, rest]
  · rw [values, if_pos rfl]
  · intro other different
    rw [values, if_neg different]
  · intro key different
    rw [scene, heeding.vital.tracks.value_setToggle, if_neg different]
  · rw [performed]
  · intro holder held
    exact asks_of_latest opens (.toggle name value :: doings) named held
  · intro watch factories context names origin asks
    exact lent.joins origin asks
  · intro key ended other different listens
    exact ⟨spared (Scene.silences_disposeWatch page.scene ended) different listens,
      spared (Scene.silences_dropWatch page.scene ended) different listens⟩

/-- Two watches that share toggles; the one that listens first is dropped in the end. -/
def sharedDoings : List Doing :=
  let factories : Factories := ⟨[("flag", .toggle)]⟩
  [.chore (.drop 0), .toggle "b" true, .chore (.listen 1 1 1), .chore (.listen 0 0 1),
    .chore (.watch factories 0 ⟨[⟨"flag", "a"⟩, ⟨"flag", "b"⟩, ⟨"flag", "a"⟩]⟩),
    .chore (.watch factories 0 ⟨[⟨"flag", "a"⟩]⟩)]

/-- The watch that is left is told once of the toggle, though two of its conditions ask it. -/
theorem toggle_tells_latest_shared :
    let page := (Page.empty .standard .standard).since sharedDoings
    let after := page.perform (.toggle "a" true)
    (Page.empty .standard .standard).Opens ∧
      page.scene.watchValue 1 = false ∧ after.scene.toggleValue "a" = true ∧
      after.scene.watchValue 1 = true ∧ after.history = .told 1 1 true :: page.history := by
  have opens : (Page.empty .standard .standard).Opens := ⟨⟨Tree.empty, .standard, rfl⟩, rfl, rfl⟩
  have result := toggle_tells_latest opens sharedDoings "a" true
  generalize reached : (Page.empty .standard .standard).since sharedDoings = page at result ⊢
  dsimp only at result ⊢
  generalize page.perform (.toggle "a" true) = after at result ⊢
  obtain ⟨_, _, values, set, others, _, history, _, _, joins, _⟩ := result
  have failed : page.scene.watchValue 1 = false := by
    rw [← reached]
    decide +kernel
  have holder : (Page.empty .standard .standard).latest sharedDoings (page.scene.toggle "a").1 =
      some ⟨1, 1, 1⟩ := by
    rw [← reached]
    decide +kernel
  have joined : after.scene.Joins 1 ["a", "b", "a"] := joins 1 _ _ _ rfl rfl
  have unset : page.scene.toggleValue "a" = false := values "a"
  have other : after.scene.toggleValue "b" = true := (others "b" (by decide)).trans (values "b")
  have holds : after.scene.watchValue 1 = true := by
    rw [joined.value]
    simp [set, other]
  refine ⟨opens, failed, set, holds, ?_⟩
  rw [history, unset, holder, Scene.tidings, holds]
  rfl

end Page

end Hydration
