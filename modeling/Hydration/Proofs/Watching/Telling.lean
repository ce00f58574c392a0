import Hydration.Proofs.CurrentMonitors
import Hydration.Proofs.Watching.Flipping

/-!
# What is still to be told

Monitors that flipped stand on the lists of the calls that are to tell of them.  A
monitor is put on a list whenever its value changes and only then, and a step that
tells of a monitor takes it off and changes nothing.  All else that may be done
leaves both the lists and the values as they are.
-/

namespace Hydration

/-- The monitors that a call is still to tell of. -/
def Call.undelivered : Call → List MonitorId
  | deliver monitors => monitors
  | _ => []

namespace Scene

variable {scene : Scene}

/-- The monitors that a resize reports are those that changed, each once. -/
theorem distinct_resize (scene : Scene) (pinned : List MonitorId) (viewport : Viewport) :
    (scene.resize pinned viewport).2.Nodup :=
  (List.nodup_range.filter _).filter _

theorem Tracks.distinct_reveal
    {kept : MonitorId → Prop}
    (tracks : scene.Tracks kept)
    (pinned : List MonitorId)
    (element : ElementId)
    (visible : Bool) :
    (scene.reveal pinned element visible).2.Nodup := by
  have watchers : ((scene.visibility.set element visible).watchers element).Nodup := by
    rw [Visibility.watchers_set]
    exact tracks.single element
  exact (watchers.filter _).filter _

end Scene

namespace Page

/-- The monitors that are still to be told of, in the order in which this will be done. -/
def undelivered (page : Page) : List MonitorId :=
  page.stack.flatMap Call.undelivered

/-- No monitor changes its value, and none is put on a list or taken off one. -/
structure Abstains (before after : Page) : Prop where
  values : before.scene.KeepsValues after.scene
  undelivered : after.undelivered = before.undelivered

variable {page after : Page}

theorem Abstains.trans
    {middle : Page}
    (earlier : page.Abstains middle)
    (later : middle.Abstains after) :
    page.Abstains after :=
  ⟨earlier.values.trans later.values, later.undelivered.trans earlier.undelivered⟩

theorem Abstains.of_push
    (added : List Call)
    (scene : after.scene = page.scene)
    (stack : after.stack = added ++ page.stack)
    (silent : added.flatMap Call.undelivered = []) :
    page.Abstains after := by
  refine ⟨.of_eq (congrArg Scene.monitors scene), ?_⟩
  rw [Page.undelivered, stack, List.flatMap_append, silent]
  rfl

theorem Abstains.of_scene {scene : Scene} (values : page.scene.KeepsValues scene) :
    page.Abstains { page with scene } :=
  ⟨values, rfl⟩

theorem Abstains.of_confined
    {key : BindingId}
    {heft : Nat}
    (confined : page.Confined key heft after) :
    page.Abstains after := by
  obtain ⟨added, stack, own, _⟩ := confined.stack
  refine .of_push added confined.scene stack (List.flatMap_eq_nil_iff.mpr ?_)
  intro call member
  have subject := (own call member).1
  cases call with
  | deliver => cases subject
  | _ => rfl

theorem abstains_start (vital : page.scene.Vital page.pinned) (key : BindingId) :
    page.Abstains (page.start key) := by
  have starts := page.starts key
  generalize page.start key = after at starts ⊢
  cases starts with
  | late => exact .of_push [] rfl rfl rfl
  | unread => exact .of_push _ rfl rfl rfl
  | @refused binding context scene fault _ _ _ _ result =>
      have watched := vital.keepsValues_watch binding.hooks.factories binding.element context
      rw [result] at watched
      exact (Abstains.of_scene watched).trans (.of_push _ rfl rfl rfl)
  | @watched binding context scene watch _ _ _ _ result =>
      have watched := vital.keepsValues_watch binding.hooks.factories binding.element context
      rw [result] at watched
      have listens : page.Abstains { page with scene := scene.listen watch (.binding key) } :=
        .of_scene (watched.trans (Scene.keepsValues_listen scene watch _))
      refine listens.trans (.of_push _ rfl rfl ?_)
      split <;> rfl

theorem abstains_obey (vital : page.scene.Vital page.pinned) (verb : Verb) (key : BindingId) :
    page.Abstains (page.obey verb key) := by
  cases verb with
  | start => exact abstains_start vital key
  | mount => exact .of_confined (.mount page key)
  | unmount => exact .of_confined (.unmount page key)
  | destroy =>
      simp only [obey, destroy]
      split
      · exact .of_push [] rfl rfl rfl
      · exact .of_push _ rfl rfl rfl

theorem abstains_runScript (page : Page) (key : ScriptId) (position : Nat)
    (subject : Option BindingId) :
    page.Abstains (page.runScript key position subject) := by
  have plays := page.plays key position subject
  generalize page.runScript key position subject = after at plays ⊢
  cases plays with
  | finished => exact .of_push [] rfl rfl rfl
  | skips => exact .of_push [_] rfl rfl rfl
  | plays => exact .of_push _ rfl rfl (by simp [List.flatMap_map, Call.undelivered])

theorem abstains_bury (page : Page) (key : BindingId) : page.Abstains (page.bury key) := by
  unfold bury
  dsimp only
  split
  · exact .of_push _ rfl rfl rfl
  · next watch _ =>
      have dropped : page.Abstains { page with scene := page.scene.dropWatch watch } :=
        .of_scene (Scene.silences_dropWatch page.scene watch).keepsValues
      exact dropped.trans (.of_push _ rfl rfl rfl)

theorem abstains_hydrateNext (page : Page) (hooks : Hooks) (elements : List ElementId) :
    page.Abstains (page.hydrateNext hooks elements) := by
  cases elements with
  | nil => exact .of_push [] rfl rfl rfl
  | cons element rest =>
      simp only [hydrateNext]
      split
      · exact .of_push [_] rfl rfl rfl
      · exact .of_push [_, _] rfl rfl rfl

theorem abstains_driveNext (page : Page) (queue : QueueName) :
    page.Abstains (page.driveNext queue) := by
  obtain ⟨_, _, added, same, brings⟩ := driveNext_eq page queue
  rw [same]
  refine .of_push added rfl rfl ?_
  rcases brings with rfl | rfl | ⟨_, _, _, rfl⟩ <;> rfl

/-- Telling an audience or a listener puts nothing on a list. -/
theorem abstains_hear (page : Page) (listener : Listener) (value : Bool) :
    page.Abstains (page.hear listener value) := by
  unfold hear tell
  cases listener with
  | host => exact .of_push [_] rfl rfl rfl
  | watch watch =>
      dsimp only
      split
      · exact .of_push [] rfl rfl rfl
      · split
        · exact .of_push [] rfl rfl rfl
        · split
          · exact .of_push [_, _] rfl rfl rfl
          · exact .of_push [_] rfl rfl rfl

/-- Monitors flip, each once, and are put on the list that comes first. -/
structure Flips (flipped : List MonitorId) (before after : Page) : Prop where
  distinct : flipped.Nodup
  values :
    ∀ key monitor, before.scene.monitors.get? key = some monitor →
      (key ∈ flipped ↔ after.scene.value key ≠ before.scene.value key)
  undelivered : after.undelivered = flipped ++ before.undelivered

theorem Abstains.flips (abstains : page.Abstains after) : Flips [] page after := by
  refine ⟨List.nodup_nil, fun key monitor found => ?_, abstains.undelivered⟩
  obtain ⟨now, here, same⟩ := abstains.values key monitor found
  simp [Scene.value, found, here, same]

/-- What was aside before monitors flip makes no difference. -/
theorem Abstains.trans_flips
    {middle : Page}
    {flipped : List MonitorId}
    (abstains : page.Abstains middle)
    (flips : Flips flipped middle after) :
    Flips flipped page after := by
  refine ⟨flips.distinct, fun key monitor found => ?_,
    flips.undelivered.trans (congrArg _ abstains.undelivered)⟩
  obtain ⟨now, here, same⟩ := abstains.values key monitor found
  have unchanged : middle.scene.value key = page.scene.value key := by
    simp [Scene.value, found, here, same]
  rw [flips.values key now here, unchanged]

theorem flips_refresh
    {change : Scene × List MonitorId}
    {judge : Source → Bool}
    {keys : List MonitorId}
    (monitors : change.1.monitors = (page.scene.store judge keys).monitors)
    (flipped : change.2 = page.scene.flipped judge keys)
    (distinct : change.2.Nodup) :
    Flips change.2 page (page.refresh change) := by
  refine ⟨distinct, fun key monitor _ => ?_, rfl⟩
  have value : (page.refresh change).scene.value key = (page.scene.store judge keys).value key :=
    congrArg (fun table => ((table.get? key).map Monitor.value).getD false) monitors
  rw [flipped, Scene.mem_flipped_iff, value]

/-- A toggle is found or made first, which changes nothing. -/
theorem flips_setToggle (vital : page.scene.Vital page.pinned) (name : String) (value : Bool) :
    Flips (page.scene.setToggle name value).2 page
      (page.refresh (page.scene.setToggle name value)) := by
  obtain ⟨grows, _⟩ := vital.tracks.toggle name
  have found : page.Abstains { page with scene := (page.scene.toggle name).2 } :=
    .of_scene grows.keepsValues
  have distinct : (page.scene.setToggle name value).2.Nodup :=
    List.Nodup.filter _ (List.nodup_singleton (page.scene.toggle name).1)
  have stored : Flips (page.scene.setToggle name value).2
      { page with scene := (page.scene.toggle name).2 }
      (page.refresh (page.scene.setToggle name value)) :=
    flips_refresh rfl rfl distinct
  exact found.trans_flips stored

theorem flips_answer (vital : page.scene.Vital page.pinned) (request : Request) :
    ∃ flipped, Flips flipped page (page.answer request) := by
  cases request with
  | bind verb key => exact ⟨[], (abstains_obey vital verb key).flips⟩
  | drive queue =>
      refine ⟨[], Abstains.flips ?_⟩
      simp only [answer, drive]
      split
      · exact .of_push [] rfl rfl rfl
      · exact .of_push [_] rfl rfl rfl
  | toggle name value => exact ⟨_, flips_setToggle vital name value⟩
  | resize viewport => exact ⟨_, flips_refresh rfl rfl (Scene.distinct_resize _ _ viewport)⟩
  | reveal element visible =>
      exact ⟨_, flips_refresh rfl rfl (vital.tracks.distinct_reveal _ element visible)⟩
  | mark | append | release | dropMonitor => exact ⟨[], Abstains.flips ⟨.of_eq rfl, rfl⟩⟩
  | cancel subscription =>
      exact ⟨[], (Abstains.of_scene (Scene.keepsValues_unsubscribe _ subscription)).flips⟩
  | dropSubscription subscription =>
      exact ⟨[], (Abstains.of_scene (Scene.keepsValues_dropSubscription _ subscription)).flips⟩
  | hydrate | destroyAll => exact ⟨[], Abstains.flips (.of_push [_] rfl rfl rfl)⟩

/-- Only a call that is to tell of a monitor tells of one; all others may flip monitors. -/
theorem flips_carryOn
    {call : Call}
    (vital : page.scene.Vital page.pinned)
    (silent : call.undelivered = []) :
    ∃ flipped, Flips flipped page (page.carryOn call) := by
  have own {key : BindingId} (isOf : call.isOf key) (gentle : call.ends = false) :
      ∃ flipped, Flips flipped page (page.carryOn call) := by
    obtain ⟨_, confined, _⟩ := Confined.carryOn isOf gentle
    exact ⟨[], (Abstains.of_confined confined).flips⟩
  cases call with
  | request request => exact flips_answer vital request
  | script script position subject =>
      exact ⟨[], (abstains_runScript page script position subject).flips⟩
  | deliver monitors =>
      cases silent
      exact ⟨[], Abstains.flips (.of_push [] rfl rfl rfl)⟩
  | pin => exact ⟨[], Abstains.flips (.of_push [] rfl rfl rfl)⟩
  | hydrate hooks elements => exact ⟨[], (abstains_hydrateNext page hooks elements).flips⟩
  | destroyEach bindings =>
      cases bindings with
      | nil => exact ⟨[], Abstains.flips (.of_push [] rfl rfl rfl)⟩
      | cons first rest => exact ⟨[], Abstains.flips (.of_push [_, _] rfl rfl rfl)⟩
  | drive queue => exact ⟨[], (abstains_driveNext page queue).flips⟩
  | retire key =>
      refine ⟨[], Abstains.flips ?_⟩
      simp only [carryOn, retire]
      split
      · exact .of_push [_, _] rfl rfl rfl
      · exact .of_push [_] rfl rfl rfl
  | bury key => exact ⟨[], (abstains_bury page key).flips⟩
  | notice key | launch key | arrive key | construct key | settle key | teardown key
  | dismantle key | vacated key | remount key =>
      exact own (decide_eq_true (Eq.refl key)) rfl

/-- The monitor that is told of by a deed, which is then a step that comes to it. -/
def delivered? (page : Page) : Deed → Option MonitorId
  | .step => page.stack.head?.bind fun call => call.undelivered.head?
  | _ => none

/-- What is delivered comes off the lists, and no value changes. -/
theorem undelivered_step_of_deliver
    {monitor : MonitorId}
    {monitors : List MonitorId}
    {rest : List Call}
    (stack : page.stack = .deliver (monitor :: monitors) :: rest) :
    page.undelivered = monitor :: page.step.undelivered ∧
      page.scene.KeepsValues page.step.scene := by
  let waiting : Page := { page with stack := .deliver monitors :: rest }
  have told : waiting.Abstains page.step := by
    rw [step_of_stack stack]
    simp only [carryOn, deliver]
    split
    · exact .of_push [] rfl rfl rfl
    · next listener _ =>
        have pinned : waiting.Abstains (waiting.push [.pin [monitor]]) := .of_push [_] rfl rfl rfl
        exact pinned.trans (abstains_hear _ listener _)
  refine ⟨?_, told.values⟩
  rw [told.undelivered, undelivered, stack]
  rfl

theorem flips_afterDeed_of_ne_step
    {deed : Deed}
    (vital : page.scene.Vital page.pinned)
    (other : deed ≠ .step) :
    Flips [] page (page.afterDeed deed) := by
  refine Abstains.flips ?_
  cases deed with
  | step => exact (other rfl).elim
  | ask request => exact .of_push [_] rfl rfl rfl
  | chore chore => exact .of_scene (vital.keepsValues_run chore)
  | make factories element condition =>
      simp only [afterDeed]
      split
      · next refused =>
          obtain ⟨rfl, _⟩ := Scene.makeOf_error refused
          exact .of_push [] rfl rfl rfl
      · next made =>
          obtain ⟨grows, _⟩ := vital.tracks.makeOf (fun _ => id) made
          exact .of_scene (grows.keepsValues.trans (.of_eq rfl))
  | subscribe handle script =>
      simp only [afterDeed]
      split
      · exact .of_push [] rfl rfl rfl
      · next monitor _ => exact .of_scene (Scene.keepsValues_subscribe _ monitor script)

/-- A deed either tells of the monitor that is next, or it may flip monitors. -/
theorem afterDeed_cases (vital : page.scene.Vital page.pinned) (deed : Deed) :
    (page.delivered? deed = none ∧ ∃ flipped, Flips flipped page (page.afterDeed deed)) ∨
      ∃ monitor, page.delivered? deed = some monitor ∧
        page.undelivered = monitor :: (page.afterDeed deed).undelivered ∧
        page.scene.KeepsValues (page.afterDeed deed).scene := by
  by_cases goes : deed = .step
  · subst goes
    cases stack : page.stack with
    | nil =>
        refine .inl ⟨by simp [delivered?, stack], [], Abstains.flips ?_⟩
        rw [afterDeed, step_of_nil stack]
        exact .of_push [] rfl rfl rfl
    | cons call rest =>
        cases calls : call.undelivered with
        | nil =>
            let popped : Page := { page with stack := rest }
            have aside : page.Abstains popped := by
              refine ⟨.of_eq rfl, ?_⟩
              rw [undelivered, undelivered, stack, List.flatMap_cons, calls]
              rfl
            have vital : popped.scene.Vital popped.pinned := by
              refine vital.mono ?_
              rw [pinned, pinned, stack]
              exact List.subset_append_right _ _
            obtain ⟨flipped, flips⟩ := flips_carryOn vital calls
            refine .inl ⟨by simp [delivered?, stack, calls], flipped, ?_⟩
            rw [afterDeed, step_of_stack stack]
            exact aside.trans_flips flips
        | cons monitor monitors =>
            have delivers : call = .deliver (monitor :: monitors) := by
              cases call with
              | deliver listed => exact congrArg Call.deliver calls
              | _ => cases calls
            rw [delivers] at stack
            refine .inr ⟨monitor, by rw [delivered?, stack]; rfl, ?_⟩
            exact undelivered_step_of_deliver stack
  · refine .inl ⟨?_, [], flips_afterDeed_of_ne_step vital goes⟩
    cases deed with
    | step => exact (goes rfl).elim
    | _ => rfl

end Page

end Hydration
