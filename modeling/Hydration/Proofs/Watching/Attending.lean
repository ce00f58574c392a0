import Hydration.Proofs.Passive.Confined
import Hydration.Proofs.Watching.Living

/-!
# Steps attend to monitors

Whatever a step does, living monitors stay up to date, and a listener that hears
something is told the value that a living monitor has.  Most calls leave the scene
as it is; only what is asked, what is delivered and what is buried reach it.
-/

namespace Hydration

namespace Page

/-- The scene and what listeners have heard are as before, and no more monitors are pinned. -/
structure Retains (before after : Page) : Prop where
  scene : after.scene = before.scene
  pinned : after.pinned ⊆ before.pinned
  hearings : after.hearings = before.hearings

/--
Living monitors stay up to date, and at most one listener hears something: that
of a monitor that lives, which it is told the value of.
-/
structure Attends (before after : Page) : Prop where
  vital : before.scene.Vital before.pinned → after.scene.Vital after.pinned
  hearings :
    after.hearings = before.hearings ∨
      ∃ key subscription script,
        key ∈ before.pinned ∧
          before.scene.listener? key = some (.host subscription script) ∧
          after.hearings =
            .heard subscription (before.scene.value key) before.scene.heldValues ::
              before.hearings

variable {page after : Page}

theorem pinned_push (page : Page) (calls : List Call) :
    (page.push calls).pinned = calls.flatMap Call.pinned ++ page.pinned := by
  simp [pinned, push]

theorem Retains.of_push
    (added : List Call)
    (scene : after.scene = page.scene)
    (stack : after.stack = added ++ page.stack)
    (hearings : after.hearings = page.hearings)
    (unpinned : added.flatMap Call.pinned = []) :
    page.Retains after := by
  refine ⟨scene, ?_, hearings⟩
  rw [Page.pinned, stack, List.flatMap_append, unpinned]
  exact List.Subset.refl _

theorem Retains.of_confined
    {key : BindingId}
    {heft : Nat}
    (confined : page.Confined key heft after) :
    page.Retains after := by
  obtain ⟨added, stack, own, _⟩ := confined.stack
  refine .of_push added confined.scene stack confined.hearings (List.flatMap_eq_nil_iff.mpr ?_)
  intro call member
  have subject := (own call member).1
  cases call with
  | deliver | pin => cases subject
  | _ => rfl

theorem Retains.attends (retains : page.Retains after) : page.Attends after := by
  refine ⟨fun vital => ?_, .inl retains.hearings⟩
  rw [retains.scene]
  exact vital.mono retains.pinned

/-- What was aside before something happened makes no difference to it. -/
theorem Retains.trans_attends
    {middle : Page}
    (retains : page.Retains middle)
    (attends : middle.Attends after) :
    page.Attends after := by
  refine ⟨fun vital => attends.vital (retains.attends.vital vital), ?_⟩
  refine attends.hearings.imp (fun same => same.trans retains.hearings) ?_
  rintro ⟨key, subscription, script, pinned, listens, heard⟩
  refine ⟨key, subscription, script, retains.pinned pinned, ?_, ?_⟩
  · rwa [← retains.scene]
  · rw [heard, retains.scene, retains.hearings]

theorem Attends.of_push
    (added : List Call)
    (scene : after.scene = page.scene)
    (stack : after.stack = added ++ page.stack)
    (hearings : after.hearings = page.hearings)
    (unpinned : added.flatMap Call.pinned = []) :
    page.Attends after :=
  (Retains.of_push added scene stack hearings unpinned).attends

theorem Attends.of_scene
    {scene : Scene}
    (vital : page.scene.Vital page.pinned → scene.Vital page.pinned) :
    page.Attends { page with scene } :=
  ⟨vital, .inl rfl⟩

theorem Attends.then_retains
    {middle : Page}
    (attends : page.Attends middle)
    (retains : middle.Retains after) :
    page.Attends after := by
  refine ⟨fun vital => retains.attends.vital (attends.vital vital), ?_⟩
  rw [retains.hearings]
  exact attends.hearings

theorem attends_refresh
    {change : Scene × List MonitorId}
    (vital : page.scene.Vital page.pinned → change.1.Vital (change.2 ++ page.pinned)) :
    page.Attends (page.refresh change) := by
  refine ⟨fun before => ?_, .inl rfl⟩
  have pinned : (page.refresh change).pinned = change.2 ++ page.pinned := by
    simp [refresh, Page.pinned, push, Call.pinned]
  rw [pinned]
  exact vital before

theorem attends_start (page : Page) (key : BindingId) : page.Attends (page.start key) := by
  have starts := page.starts key
  generalize page.start key = after at starts ⊢
  cases starts with
  | late => exact .of_push [] rfl rfl rfl rfl
  | unread => exact .of_push _ rfl rfl rfl rfl
  | @refused binding context scene fault _ _ _ _ result =>
      have watched (vital : page.scene.Vital page.pinned) :=
        vital.watch binding.hooks.factories binding.element context
      rw [result] at watched
      exact (Attends.of_scene watched).then_retains (.of_push _ rfl rfl rfl rfl)
  | @watched binding context scene watch _ _ _ _ result =>
      have watched (vital : page.scene.Vital page.pinned) :=
        vital.watch binding.hooks.factories binding.element context
      rw [result] at watched
      have listens : page.Attends { page with scene := scene.listen watch (.binding key) } :=
        .of_scene fun vital => (watched vital).listen watch _
      refine listens.then_retains (.of_push _ rfl rfl rfl ?_)
      split <;> rfl

theorem attends_obey (page : Page) (verb : Verb) (key : BindingId) :
    page.Attends (page.obey verb key) := by
  cases verb with
  | start => exact attends_start page key
  | mount => exact (Retains.of_confined (.mount page key)).attends
  | unmount => exact (Retains.of_confined (.unmount page key)).attends
  | destroy =>
      simp only [obey, destroy]
      split
      · exact .of_push [] rfl rfl rfl rfl
      · exact .of_push _ rfl rfl rfl rfl

theorem attends_answer (page : Page) (request : Request) :
    page.Attends (page.answer request) := by
  cases request with
  | bind verb key => exact attends_obey page verb key
  | drive queue =>
      simp only [answer, drive]
      split
      · exact .of_push [] rfl rfl rfl rfl
      · exact .of_push [_] rfl rfl rfl rfl
  | toggle name value => exact attends_refresh fun vital => vital.setToggle name value
  | resize viewport => exact attends_refresh fun vital => vital.resize viewport
  | reveal element visible => exact attends_refresh fun vital => vital.reveal element visible
  | mark => exact .of_scene fun vital => vital.changeTree _
  | append => exact .of_scene fun vital => vital.changeTree _
  | release => exact .of_push [] rfl rfl rfl rfl
  | cancel subscription => exact .of_scene fun vital => vital.unsubscribe subscription
  | dropSubscription subscription =>
      exact .of_scene fun vital => vital.dropSubscription subscription
  | dropMonitor handle => exact .of_scene fun vital => vital.unhold handle
  | hydrate => exact .of_push [_] rfl rfl rfl rfl
  | destroyAll => exact .of_push [_] rfl rfl rfl rfl

theorem retains_runScript (page : Page) (key : ScriptId) (position : Nat)
    (subject : Option BindingId) :
    page.Retains (page.runScript key position subject) := by
  have plays := page.plays key position subject
  generalize page.runScript key position subject = after at plays ⊢
  cases plays with
  | finished => exact .of_push [] rfl rfl rfl rfl
  | skips => exact .of_push [_] rfl rfl rfl rfl
  | plays => exact .of_push _ rfl rfl rfl (by simp [List.flatMap_map, Call.pinned])

theorem attends_bury (page : Page) (key : BindingId) : page.Attends (page.bury key) := by
  unfold bury
  dsimp only
  split
  · exact .of_push _ rfl rfl rfl rfl
  · next watch _ =>
      have dropped : page.Attends { page with scene := page.scene.dropWatch watch } :=
        .of_scene fun vital => vital.silence (Scene.silences_dropWatch page.scene watch)
      exact dropped.then_retains (.of_push _ rfl rfl rfl rfl)

theorem retains_hydrateNext (page : Page) (hooks : Hooks) (elements : List ElementId) :
    page.Retains (page.hydrateNext hooks elements) := by
  cases elements with
  | nil => exact .of_push [] rfl rfl rfl rfl
  | cons element rest =>
      simp only [hydrateNext]
      split
      · exact .of_push [_] rfl rfl rfl rfl
      · exact .of_push [_, _] rfl rfl rfl rfl

theorem retains_driveNext (page : Page) (queue : QueueName) :
    page.Retains (page.driveNext queue) := by
  obtain ⟨_, _, added, same, brings⟩ := driveNext_eq page queue
  rw [same]
  refine .of_push added rfl rfl rfl ?_
  rcases brings with rfl | rfl | ⟨_, _, _, rfl⟩ <;> rfl

/-- Most calls leave the scene and what listeners have heard as they are. -/
theorem retains_carryOn
    {call : Call}
    (undelivered : ∀ monitors, call ≠ .deliver monitors)
    (unasked : ∀ request, call ≠ .request request)
    (unburied : ∀ key, call ≠ .bury key) :
    page.Retains (page.carryOn call) := by
  have own {key : BindingId} (isOf : call.isOf key) (gentle : call.ends = false) :
      page.Retains (page.carryOn call) := by
    obtain ⟨_, confined, _⟩ := Confined.carryOn isOf gentle
    exact .of_confined confined
  cases call with
  | request request => exact (unasked request rfl).elim
  | deliver monitors => exact (undelivered monitors rfl).elim
  | bury key => exact (unburied key rfl).elim
  | script script position subject => exact retains_runScript page script position subject
  | pin => exact .of_push [] rfl rfl rfl rfl
  | hydrate hooks elements => exact retains_hydrateNext page hooks elements
  | destroyEach bindings =>
      cases bindings with
      | nil => exact .of_push [] rfl rfl rfl rfl
      | cons first rest => exact .of_push [_, _] rfl rfl rfl rfl
  | drive queue => exact retains_driveNext page queue
  | retire key =>
      simp only [carryOn, retire]
      split
      · exact .of_push [_, _] rfl rfl rfl rfl
      · exact .of_push [_] rfl rfl rfl rfl
  | notice key | launch key | arrive key | construct key | settle key | teardown key
  | dismantle key | vacated key | remount key =>
      exact own (decide_eq_true (Eq.refl key)) rfl

/-- A call that delivers nothing attends to the monitors. -/
theorem attends_carryOn
    {call : Call}
    (undelivered : ∀ monitors, call ≠ .deliver monitors) :
    page.Attends (page.carryOn call) := by
  by_cases asks : ∃ request, call = .request request
  · obtain ⟨request, rfl⟩ := asks
    exact attends_answer page request
  · by_cases buries : ∃ key, call = .bury key
    · obtain ⟨key, rfl⟩ := buries
      exact attends_bury page key
    · push Not at asks buries
      exact (retains_carryOn undelivered asks buries).attends

/-- A listener of the host is told the value of a monitor that lives until it has heard it. -/
theorem attends_hear_host
    {key : MonitorId}
    {subscription script : Nat}
    (pinned : key ∈ page.pinned)
    (listens : page.scene.listener? key = some (.host subscription script)) :
    page.Attends (page.hear (.host subscription script) (page.scene.value key)) := by
  have same : (page.hear (.host subscription script) (page.scene.value key)).pinned =
      page.pinned := by
    simp [hear, Page.pinned, push, record, Call.pinned]
  refine ⟨fun vital => ?_, .inr ⟨key, subscription, script, pinned, listens, rfl⟩⟩
  rw [same]
  exact vital

/-- A watch that is told of a monitor keeps its monitors until its audience was told. -/
theorem attends_hear_watch
    {key : MonitorId}
    {watch : WatchId}
    (listens : page.scene.listener? key = some (.watch watch))
    (value : Bool) :
    page.Attends (page.hear (.watch watch) value) := by
  unfold hear
  dsimp only
  split
  · exact .of_push [] rfl rfl rfl rfl
  · next entry there =>
      split
      · exact .of_push [] rfl rfl rfl rfl
      · next audience _ =>
          have pinned : page.Attends (page.push [.pin entry.monitors]) := by
            refine ⟨fun vital => ?_, .inl rfl⟩
            obtain ⟨monitor, found, tells⟩ := Option.bind_eq_some_iff.mp listens
            rw [pinned_push]
            simpa [Call.pinned, push] using
              vital.pin (vital.isAlive_of_listener found tells there)
          refine pinned.then_retains ?_
          cases audience with
          | binding binding => exact .of_push [_] rfl rfl rfl rfl
          | host handle round => exact .of_push [] rfl rfl rfl rfl

theorem attends_deliver
    {monitors : List MonitorId}
    {rest : List Call}
    (stack : page.stack = .deliver monitors :: rest) :
    page.Attends (({ page with stack := rest } : Page).deliver monitors) := by
  have pinned : page.pinned = monitors ++ ({ page with stack := rest } : Page).pinned := by
    simp [Page.pinned, stack, Call.pinned]
  cases monitors with
  | nil =>
      refine Retains.attends ⟨rfl, ?_, rfl⟩
      rw [pinned]
      exact List.subset_append_right _ _
  | cons key monitors =>
      have waits : page.Retains
          ((({ page with stack := rest } : Page).push [.deliver monitors]).push
            [.pin [key]]) := by
        refine ⟨rfl, ?_, rfl⟩
        rw [pinned, pinned_push, pinned_push]
        simp [Call.pinned]
      simp only [deliver]
      split
      · refine Retains.attends ⟨rfl, ?_, rfl⟩
        rw [pinned, pinned_push]
        simp [Call.pinned]
      · next listener listens =>
          rw [← waits.scene] at listens
          have pinned : key ∈ ((({ page with stack := rest } : Page).push
              [.deliver monitors]).push [.pin [key]]).pinned := by
            rw [pinned_push]
            exact List.mem_append_left _ List.mem_cons_self
          cases listener with
          | host subscription script =>
              exact waits.trans_attends (attends_hear_host pinned listens)
          | watch watch => exact waits.trans_attends (attends_hear_watch listens _)

/-- Every step attends to the monitors and to those who listen to them. -/
theorem attends_step (page : Page) : page.Attends page.step := by
  cases stack : page.stack with
  | nil =>
      rw [step_of_nil stack]
      exact .of_push [] rfl rfl rfl rfl
  | cons call rest =>
      have popped : page.Retains { page with stack := rest } := by
        refine ⟨rfl, ?_, rfl⟩
        rw [Page.pinned, Page.pinned, stack]
        exact List.subset_append_right _ _
      rw [step_of_stack stack]
      by_cases delivers : ∃ monitors, call = .deliver monitors
      · obtain ⟨monitors, rfl⟩ := delivers
        exact attends_deliver stack
      · exact popped.trans_attends
          (attends_carryOn fun monitors same => delivers ⟨monitors, same⟩)

end Page

end Hydration
