import Hydration.Proofs.Surroundings

/-!
# Monitors are current whenever anybody looks

The viewport and the visible elements may change at any moment, also while
listeners are still being told of an earlier change, and monitors may be made,
dropped and listened to in between.  At every such moment each monitor that lives
has the value its source has right then, and a listener is given that value.
-/

namespace Hydration

namespace Page

variable {page : Page}

/-- What may be done at any moment, be it by the host or by a listener that is being told. -/
inductive Deed where
  /-- What is under way goes on. -/
  | step
  | ask (request : Request)
  | chore (chore : Scene.Chore)
  /-- Makes a monitor, as a condition asks for it, and keeps it for the host. -/
  | make (factories : Factories) (element : ElementId) (condition : Condition)
  /-- Listens to a monitor that the host keeps. -/
  | subscribe (handle : Nat) (script : ScriptId)

/-- A page right after something was done. -/
def afterDeed (page : Page) : Deed → Page
  | .step => page.step
  | .ask request => page.push [.request request]
  | .chore chore => { page with scene := page.scene.run page.pinned chore }
  | .make factories element condition =>
      match
        page.scene.makeOf page.pinned factories condition.monitor element condition.query with
      | (scene, .error _) => { page with scene }
      | (scene, .ok monitor) => { page with scene := scene.hold monitor }
  | .subscribe handle script =>
      match (page.scene.held.get? handle).bind id with
      | none => page
      | some monitor => { page with scene := page.scene.subscribe monitor script }

/-- A page after one thing was done after the other. -/
def afterDeeds (page : Page) (deeds : List Deed) : Page :=
  deeds.foldl Page.afterDeed page

theorem attends_afterDeed (page : Page) (deed : Deed) : page.Attends (page.afterDeed deed) := by
  cases deed with
  | step => exact attends_step page
  | ask request => exact .of_push [_] rfl rfl rfl rfl
  | chore chore => exact .of_scene fun vital => vital.run chore
  | make factories element condition =>
      simp only [afterDeed]
      split
      · next refused =>
          obtain ⟨rfl, _⟩ := Scene.makeOf_error refused
          exact .of_push [] rfl rfl rfl rfl
      · next made => exact .of_scene fun vital => vital.make made
  | subscribe handle script =>
      simp only [afterDeed]
      split
      · exact .of_push [] rfl rfl rfl rfl
      · next monitor _ => exact .of_scene fun vital => vital.subscribe monitor script

/-- All along a course of deeds the monitors that live are up to date. -/
theorem vital_afterDeeds
    (vital : page.scene.Vital page.pinned)
    (deeds : List Deed) :
    (page.afterDeeds deeds).scene.Vital (page.afterDeeds deeds).pinned := by
  induction deeds generalizing page with
  | nil => exact vital
  | cons deed rest inductionHypothesis =>
      exact inductionHypothesis ((attends_afterDeed page deed).vital vital)

/-- The request that is answered when something is done. -/
def answeredBy? (page : Page) : Deed → Option Request
  | .step => page.answering?
  | _ => none

/-- The requests that are answered while one thing is done after the other, the latest first. -/
def answered (page : Page) : List Deed → List Request
  | [] => []
  | deed :: rest => (page.afterDeed deed).answered rest ++ (page.answeredBy? deed).toList

theorem surroundings_afterDeed (vital : page.scene.Vital page.pinned) (deed : Deed) :
    (page.afterDeed deed).scene.surroundings =
      page.scene.surroundings.answerAll (page.answeredBy? deed).toList := by
  cases deed with
  | step => exact surroundings_step vital
  | ask => rfl
  | chore chore => exact vital.surroundings_run chore
  | make factories element condition =>
      simp only [afterDeed]
      split
      · next refused =>
          obtain ⟨rfl, _⟩ := Scene.makeOf_error refused
          rfl
      · next scene _ made => exact (vital.tracks.makeOf (fun _ => id) made).1.surroundings
  | subscribe handle script =>
      simp only [afterDeed]
      split <;> rfl

/-- All along a course of deeds the surroundings are those that were asked for. -/
theorem surroundings_afterDeeds
    (vital : page.scene.Vital page.pinned)
    (deeds : List Deed) :
    (page.afterDeeds deeds).scene.surroundings =
      page.scene.surroundings.answerAll (page.answered deeds) := by
  induction deeds generalizing page with
  | nil => rfl
  | cons deed rest inductionHypothesis =>
      have later := inductionHypothesis ((attends_afterDeed page deed).vital vital)
      rw [surroundings_afterDeed vital, ← Surroundings.answerAll_append] at later
      exact later

/-- The only deed at which anybody hears something is a step. -/
theorem hearings_afterDeed {deed : Deed} (other : deed ≠ .step) :
    (page.afterDeed deed).hearings = page.hearings := by
  cases deed with
  | step => exact (other rfl).elim
  | ask | chore => rfl
  | make | subscribe =>
      simp only [afterDeed]
      split <;> rfl

/-- Whatever was heard on the way was the value of a monitor right then. -/
theorem heard_afterDeeds
    {event : Event}
    (deeds : List Deed)
    (heard : event ∈ (page.afterDeeds deeds).hearings) :
    event ∈ page.hearings ∨
      ∃ earlier later key subscription script,
        deeds = earlier ++ .step :: later ∧
          let moment := page.afterDeeds earlier
          key ∈ moment.pinned ∧
            moment.scene.listener? key = some (.host subscription script) ∧
            event = .heard subscription (moment.scene.value key) moment.scene.heldValues := by
  induction deeds generalizing page with
  | nil => exact .inl heard
  | cons deed rest inductionHypothesis =>
      rcases inductionHypothesis heard with
        before | ⟨earlier, later, key, subscription, script, rfl, there⟩
      · by_cases goes : deed = .step
        · subst goes
          rcases (attends_step page).hearings with
            same | ⟨key, subscription, script, pinned, listens, told⟩
          · rw [afterDeed, same] at before
            exact .inl before
          · rw [afterDeed, told] at before
            refine (List.mem_cons.mp before).symm.imp_right fun now => ?_
            exact ⟨[], rest, key, subscription, script, rfl, pinned, listens, now⟩
        · rw [hearings_afterDeed goes] at before
          exact .inl before
      · exact .inr ⟨deed :: earlier, later, key, subscription, script, rfl, there⟩

/-- A page on which nothing is watched, nothing is under way and nobody has heard anything. -/
structure Opens (page : Page) : Prop where
  scene : ∃ tree viewport, page.scene = { Scene.empty viewport with tree }
  stack : page.stack = []
  history : page.history = []

theorem Opens.vital (opens : page.Opens) : page.scene.Vital page.pinned :=
  vital_of_unwatched opens.stack opens.scene

/--
Whatever is done from the beginning on, and however what is under way is
interleaved with it: every monitor that lives has the value that its source has
right now.  A listener that hears a value is, at that very moment, the one of a
living monitor with this value, and it finds all monitors of the host as they are
then.  The viewport and the visible elements, which the sources look at, are those
that were asked for last.
-/
theorem monitors_current
    {start : Page}
    (opens : start.Opens)
    (deeds : List Deed) :
    let page := start.afterDeeds deeds
    (∀ key monitor verdict,
      page.scene.monitors.get? key = some monitor → page.scene.isAlive page.pinned key →
        page.scene.verdict? monitor.source = some verdict → monitor.value = verdict) ∧
      (∀ subscription value values, .heard subscription value values ∈ page.history →
        ∃ earlier later, deeds = earlier ++ .step :: later ∧
          let moment := start.afterDeeds earlier
          values = moment.scene.heldValues ∧
            ∃ key monitor script,
              moment.scene.monitors.get? key = some monitor ∧
                moment.scene.isAlive moment.pinned key ∧
                monitor.slot.listener = some (.host subscription script) ∧
                monitor.value = value ∧
                ∀ verdict,
                  moment.scene.verdict? monitor.source = some verdict → value = verdict) ∧
      page.scene.surroundings = start.scene.surroundings.answerAll (start.answered deeds) := by
  intro page
  have current (deeds : List Deed) (key : MonitorId) (monitor : Monitor) (verdict : Bool)
      (found : (start.afterDeeds deeds).scene.monitors.get? key = some monitor)
      (alive : (start.afterDeeds deeds).scene.isAlive (start.afterDeeds deeds).pinned key)
      (told : (start.afterDeeds deeds).scene.verdict? monitor.source = some verdict) :
      monitor.value = verdict :=
    (vital_afterDeeds opens.vital deeds).tracks.current key monitor alive found verdict told
  refine ⟨current deeds, ?_, surroundings_afterDeeds opens.vital deeds⟩
  intro subscription value values heard
  have heard : .heard subscription value values ∈ page.hearings :=
    List.mem_filter.mpr ⟨heard, rfl⟩
  rcases heard_afterDeeds deeds heard with
    before | ⟨earlier, later, key, other, script, split, pinned, listens, event⟩
  · rw [hearings, opens.history] at before
    cases before
  · obtain ⟨monitor, found, tells⟩ := Option.bind_eq_some_iff.mp listens
    have alive : (start.afterDeeds earlier).scene.isAlive (start.afterDeeds earlier).pinned key :=
      Scene.isAlive_iff.mpr (.inr (.inr pinned))
    have has : (start.afterDeeds earlier).scene.value key = monitor.value := by
      simp [Scene.value, found]
    obtain ⟨rfl, rfl, rfl⟩ := Event.heard.inj event
    refine ⟨earlier, later, split, rfl, key, monitor, script, found, alive, tells, has.symm, ?_⟩
    rw [has]
    exact fun verdict told => current earlier key monitor verdict found alive told

/-- What was heard, newest first: by which subscription, and the values of the host's monitors. -/
def echoes (page : Page) : List (Nat × Bool × List (Option Bool)) :=
  page.history.filterMap fun event =>
    match event with
    | .heard subscription value values => some (subscription, value, values)
    | _ => none

/-- A page with a script that hides an element again, and with one that does nothing. -/
def flickering : Page :=
  { Page.empty .standard .standard with
    scripts := ⟨[⟨[⟨.page (.reveal 0 false), 1, none⟩]⟩, ⟨[]⟩]⟩ }

/--
The first listener hides the element again that was just shown.  The second one
was still to be told then, and it hears the value its monitor has by now.  When the
viewport gets narrow later, the third one hears that its query does not hold.
-/
theorem monitors_current_nested :
    let factories : Factories := ⟨[("visible", .visible), ("media", .media)]⟩
    let deeds : List Deed :=
      [.make factories 0 ⟨"visible", "true"⟩, .make factories 0 ⟨"visible", "false"⟩,
        .make factories 0 ⟨"media", "(min-width: 40em)"⟩, .subscribe 0 0, .subscribe 1 1,
        .subscribe 2 1, .ask (.reveal 0 true)] ++ List.replicate 20 .step ++
        .ask (.resize (.ofPixels 400.0 400.0)) :: List.replicate 10 .step
    let shown := [some false, some true, some true]
    let narrow := [some false, some true, some false]
    flickering.Opens ∧
      (.heard 1 true shown ∈ (flickering.afterDeeds deeds).history ∧
        ∃ earlier later, deeds = earlier ++ .step :: later ∧
          (flickering.afterDeeds earlier).scene.heldValues = shown) ∧
      .heard 2 false narrow ∈ (flickering.afterDeeds deeds).history ∧
        ∃ earlier later, deeds = earlier ++ .step :: later ∧
          (flickering.afterDeeds earlier).scene.heldValues = narrow := by
  intro factories deeds shown narrow
  have opens : flickering.Opens := ⟨⟨Tree.empty, .standard, rfl⟩, rfl, rfl⟩
  have echoes : (flickering.afterDeeds deeds).echoes =
      [(2, false, narrow), (1, true, shown), (1, true, shown), (0, false, shown),
        (0, true, [some true, some false, some true])] := by
    decide +kernel
  have heard {subscription : Nat} {value : Bool} {values : List (Option Bool)}
      (member : (subscription, value, values) ∈ (flickering.afterDeeds deeds).echoes) :
      .heard subscription value values ∈ (flickering.afterDeeds deeds).history := by
    obtain ⟨event, there, same⟩ := List.mem_filterMap.mp member
    cases event with
    | heard =>
        cases same
        exact there
    | _ => cases same
  obtain ⟨_, told, _⟩ := monitors_current opens deeds
  have second := heard (echoes ▸ List.mem_cons_of_mem _ List.mem_cons_self)
  have third := heard (echoes ▸ List.mem_cons_self)
  obtain ⟨early, late, split, values, _⟩ := told 1 true shown second
  obtain ⟨early', late', split', values', _⟩ := told 2 false narrow third
  exact ⟨opens, ⟨second, early, late, split, values.symm⟩, third, early', late', split',
    values'.symm⟩

end Page

end Hydration
