import Hydration.Proofs.Passive.Settling
import Hydration.Proofs.Watching.Dropping
import Hydration.Proofs.Watching.Heeding

/-!
# What a step does to the surroundings

On a page whose scripts are all idle most calls leave the scene alone and change
nothing that a binding looks at.  The others are listed here, each with what it
puts on the stack: a binding is made, started or buried, the viewport or an
element changes, and a flipped monitor is delivered.
-/

namespace Hydration

/-- Whether a request leaves the toggles, the monitors and the subscriptions of the host alone. -/
def Request.isPlain : Request → Bool
  | toggle _ _ | cancel _ | dropSubscription _ | dropMonitor _ => false
  | _ => true

/-- Whether a request says that a binding is wanted, or that it is not. -/
def Request.isWish : Request → Bool
  | bind .mount _ | bind .unmount _ => true
  | _ => false

def Call.isPlain : Call → Bool
  | request asked => asked.isPlain
  | _ => true

/-- Whether a call is plain and wishes nothing of a binding. -/
def Call.isMeek : Call → Bool
  | request asked => asked.isPlain && !asked.isWish
  | _ => true

/-- Whether a call changes what is watched or who is told, as other calls never do. -/
def Call.steers : Call → Bool
  | request (.bind .start _) | deliver (_ :: _) | retire _ | bury _ => true
  | _ => false

theorem Call.isPlain_of_isMeek {call : Call} (meek : call.isMeek) : call.isPlain := by
  cases call with
  | request asked =>
      simp only [isMeek, Bool.and_eq_true] at meek
      exact meek.1
  | _ => rfl

theorem Call.isMeek_of_subject?
    {call : Call}
    {key : BindingId}
    (own : call.subject? = some key) :
    call.isMeek := by
  cases call with
  | request => cases own
  | _ => rfl

namespace Page

/-- What carrying on with a plain call makes of the surroundings; the call was taken off before. -/
inductive Turn (before after : Page) : Call → Prop where
  /-- Nothing changes that anybody looks at. -/
  | aside
      {call : Call}
      (frames : before.Frames after)
      (gentle : call.steers = false)
      (added : List Call)
      (stack : after.stack = added ++ before.stack)
      (meek : ∀ call ∈ added, call.isMeek) :
      Turn before after call
  /-- A binding that has ended, is watching or has no context to watch is not started. -/
  | declined
      {key : BindingId}
      (frames : before.Frames after)
      (reason :
        ∀ outlook, before.outlook? key = some outlook → outlook.watch = none →
          before.phase key = .destroyed ∨ ∃ fault, outlook.context = .error fault)
      (added : List Call)
      (stack : after.stack = added ++ before.stack)
      (meek : ∀ call ∈ added, call.isMeek) :
      Turn before after (.request (.bind .start key))
  /-- A context cannot be watched. -/
  | refused
      {key : BindingId}
      {outlook : Outlook}
      {context : Context}
      {scene : Scene}
      {fault : ContextFault}
      (found : before.outlook? key = some outlook)
      (read : outlook.context = .ok context)
      (result :
        before.scene.watch before.pinned outlook.hooks.factories outlook.element context =
          (scene, .error fault))
      (frames : { before with scene }.Frames after)
      (added : List Call)
      (stack : after.stack = added ++ before.stack)
      (meek : ∀ call ∈ added, call.isMeek) :
      Turn before after (.request (.bind .start key))
  /-- A binding is given a watch, and it is asked to mount if the watch holds. -/
  | watched
      {key : BindingId}
      {outlook : Outlook}
      {context : Context}
      {scene : Scene}
      {watch : WatchId}
      (found : before.outlook? key = some outlook)
      (unwatched : outlook.watch = none)
      (read : outlook.context = .ok context)
      (result :
        before.scene.watch before.pinned outlook.hooks.factories outlook.element context =
          (scene, .ok watch))
      (listens : after.scene = scene.listen watch (.binding key))
      (scripts : after.scripts = before.scripts)
      (outlooks :
        ∀ other, after.outlook? other =
          if other = key then some { outlook with watch := some watch }
          else before.outlook? other)
      (stack :
        after.stack =
          (if after.scene.watchValue watch then [.request (.bind .mount key)] else []) ++
            before.stack)
      (living : before.phase key ≠ .destroyed) :
      Turn before after (.request (.bind .start key))
  /-- The viewport or the visible elements change. -/
  | refreshed
      {request : Request}
      {scene : Scene}
      {flipped : List MonitorId}
      (refreshes : before.scene.Wired → before.scene.Refreshes scene flipped)
      (held : scene.held = before.scene.held)
      (changed : after = before.refresh (scene, flipped))
      (unstarted : ∀ key, request ≠ .bind .start key)
      (watches : scene.watches = before.scene.watches)
      (sources : ∀ key, scene.source? key = before.scene.source? key) :
      Turn before after (.request request)
  /-- The element tree changes. -/
  | replanted
      {request : Request}
      (change : Tree → Tree)
      (changed : after = { before with scene := before.scene.changeTree change })
      (unstarted : ∀ key, request ≠ .bind .start key) :
      Turn before after (.request request)
  /-- A monitor that flipped tells no binding. -/
  | silent
      {monitor : MonitorId}
      {rest : List MonitorId}
      (untold :
        ∀ watch entry key, before.scene.listener? monitor = some (.watch watch) →
          before.scene.watches.get? watch = some entry → entry.audience ≠ some (.binding key))
      (frames : before.Frames after)
      (added : List Call)
      (stack : after.stack = added ++ .deliver rest :: before.stack)
      (meek : ∀ call ∈ added, call.isMeek) :
      Turn before after (.deliver (monitor :: rest))
  /-- A monitor that flipped has a binding told the value of its watch. -/
  | told
      {monitor : MonitorId}
      {rest : List MonitorId}
      {watch : WatchId}
      {entry : Watch}
      {key : BindingId}
      (listens : before.scene.listener? monitor = some (.watch watch))
      (there : before.scene.watches.get? watch = some entry)
      (audience : entry.audience = some (.binding key))
      (frames : before.Frames after)
      (pins : List Call)
      (meek : ∀ call ∈ pins, call.isMeek)
      (stack :
        after.stack =
          .request
              (.bind (if before.scene.watchValue watch then .mount else .unmount) key) ::
            (pins ++ .deliver rest :: before.stack)) :
      Turn before after (.deliver (monitor :: rest))
  /-- A binding is not wanted any more and is going to end. -/
  | retired
      {key : BindingId}
      (frames : before.Frames after)
      (added : List Call)
      (stack : after.stack = added ++ .bury key :: before.stack)
      (meek : ∀ call ∈ added, call.isMeek) :
      Turn before after (.retire key)
  /-- A binding ends, and its watch is dropped. -/
  | buried
      {key : BindingId}
      (dropped :
        after.scene =
          match before.watch? key with
          | none => before.scene
          | some watch => before.scene.dropWatch watch)
      (scripts : after.scripts = before.scripts)
      (outlooks :
        ∀ other, after.outlook? other =
          if other = key then
            (before.outlook? other).map fun outlook => { outlook with watch := none }
          else before.outlook? other)
      (stack :
        after.stack =
          [.notice key .didDestroy none, .notice key .onDestroy none] ++ before.stack) :
      Turn before after (.bury key)
  /-- A binding is made that is to be started. -/
  | born
      {hooks : Hooks}
      {element : ElementId}
      {elements : List ElementId}
      {key : BindingId}
      {binding : Binding}
      (fresh : binding.IsFresh)
      (absent : before.binding? key = none)
      (scene : after.scene = before.scene)
      (scripts : after.scripts = before.scripts)
      (bindings :
        ∀ other, after.binding? other =
          if other = key then some binding else before.binding? other)
      (stack :
        after.stack =
          .request (.bind .start key) :: .hydrate hooks elements :: before.stack) :
      Turn before after (.hydrate hooks (element :: elements))

variable {page : Page} {key : BindingId}

theorem Turn.of_confined
    {after : Page}
    {call : Call}
    {heft : Nat}
    (confined : page.Confined key heft after)
    (gentle : call.steers = false) :
    page.Turn after call := by
  obtain ⟨frames, _, added, stack, own, _⟩ := confined
  exact .aside frames gentle added stack fun call member =>
    Call.isMeek_of_subject? (own call member).1

theorem outlook?_of_found
    {binding : Binding}
    (found : page.binding? key = some binding) :
    page.outlook? key = some binding.outlook := by
  simp [outlook?, found]

theorem outlook?_giveWatch
    {binding : Binding}
    (found : page.binding? key = some binding)
    (scene : Scene)
    (watch : WatchId)
    (other : BindingId) :
    (page.giveWatch key scene watch).outlook? other =
      if other = key then some { binding.outlook with watch := some watch }
      else page.outlook? other := by
  simp only [outlook?, binding?_giveWatch]
  split
  · next same =>
      subst same
      rw [found]
      rfl
  · rfl

theorem turn_start (page : Page) (key : BindingId) :
    page.Turn (page.start key) (.request (.bind .start key)) := by
  have starts := page.starts key
  generalize page.start key = after at starts ⊢
  cases starts with
  | late done =>
      refine .declined (.refl page) ?_ [] rfl (by simp)
      intro outlook there unwatched
      obtain ⟨binding, found, rfl⟩ := Option.map_eq_some_iff.mp there
      have unwatched : binding.watch = none := unwatched
      exact .inl ((phase_of_found found).trans
        ((done binding found).resolve_right (by simp [unwatched])))
  | @unread binding fault found living unwatched unread =>
      refine .declined ⟨rfl, rfl, fun _ => rfl⟩ ?_ _ rfl (by simp [Call.isMeek])
      intro known there _
      cases (outlook?_of_found found).symm.trans there
      exact .inr ⟨fault, unread⟩
  | refused found _ _ read result =>
      exact .refused (outlook?_of_found found) read result ⟨rfl, rfl, fun _ => rfl⟩ _ rfl
        (by simp [Call.isMeek])
  | @watched binding context scene watch found living unwatched read result =>
      have outlooks := outlook?_giveWatch found scene watch
      rw [← phase_of_found found] at living
      exact .watched (outlook?_of_found found) unwatched read result rfl rfl outlooks rfl living

/-- What changes nothing but the stack, the registry of bindings or the executor is aside. -/
theorem Turn.of_push
    {after : Page}
    {call : Call}
    (added : List Call)
    (scene : after.scene = page.scene)
    (scripts : after.scripts = page.scripts)
    (bindings : after.bindings = page.bindings)
    (stack : after.stack = added ++ page.stack)
    (meek : ∀ call ∈ added, call.isMeek)
    (gentle : call.steers = false) :
    page.Turn after call :=
  .aside ⟨scene, scripts, fun key => by simp only [outlook?, binding?, bindings]⟩ gentle added
    stack meek

theorem turn_answer
    (page : Page)
    {request : Request}
    (plain : request.isPlain) :
    page.Turn (page.answer request) (.request request) := by
  cases request with
  | toggle | cancel | dropSubscription | dropMonitor => cases plain
  | bind verb key =>
      cases verb with
      | start => exact turn_start page key
      | mount => exact .of_confined (.mount page key) rfl
      | unmount => exact .of_confined (.unmount page key) rfl
      | destroy =>
          simp only [answer, obey, destroy]
          split
          · exact .of_push [] rfl rfl rfl rfl (by simp) rfl
          · exact .of_push _ rfl rfl rfl rfl (by simp [Call.isMeek]) rfl
  | drive queue =>
      simp only [answer, drive]
      split
      · exact .of_push [] rfl rfl rfl rfl (by simp) rfl
      · exact .of_push _ rfl rfl rfl rfl (by simp [Call.isMeek]) rfl
  | resize viewport =>
      exact .refreshed (fun wired => wired.resize page.pinned viewport) rfl rfl (by simp) rfl
        (Scene.source?_store _ _)
  | reveal element visible =>
      exact .refreshed (fun wired => wired.reveal page.pinned element visible) rfl rfl (by simp)
        rfl (Scene.source?_store _ _)
  | mark => exact .replanted _ rfl (by simp)
  | append => exact .replanted _ rfl (by simp)
  | release => exact .of_push [] rfl rfl rfl rfl (by simp) rfl
  | hydrate root =>
      exact .of_push [_] rfl rfl rfl rfl (by simp [Call.isMeek]) rfl
  | destroyAll => exact .of_push [_] rfl rfl rfl rfl (by simp [Call.isMeek]) rfl

/-- A monitor of whose change only the host is told puts some meek calls on the stack. -/
theorem Turn.of_unheard
    {after : Page}
    {monitor : MonitorId}
    {rest : List MonitorId}
    (untold :
      ∀ watch entry key, page.scene.listener? monitor = some (.watch watch) →
        page.scene.watches.get? watch = some entry → entry.audience ≠ some (.binding key))
    (added : List Call)
    (scene : after.scene = page.scene)
    (scripts : after.scripts = page.scripts)
    (bindings : after.bindings = page.bindings)
    (stack : after.stack = added ++ .deliver rest :: page.stack)
    (meek : ∀ call ∈ added, call.isMeek) :
    page.Turn after (.deliver (monitor :: rest)) :=
  .silent untold ⟨scene, scripts, fun key => by simp only [outlook?, binding?, bindings]⟩ added
    stack meek

theorem turn_deliver (page : Page) (monitors : List MonitorId) :
    page.Turn (page.deliver monitors) (.deliver monitors) := by
  cases monitors with
  | nil => exact .of_push [] rfl rfl rfl rfl (by simp) rfl
  | cons monitor rest =>
      simp only [Page.deliver]
      split
      · next unheard =>
          refine .of_unheard ?_ [] rfl rfl rfl rfl (by simp)
          intro watch entry key listens
          cases unheard.symm.trans listens
      · next listener listens =>
          cases listener with
          | host subscription script =>
              simp only [hear, record, push]
              refine .of_unheard ?_ [.script script 0 none, .pin [monitor]] rfl rfl rfl rfl
                (by simp [Call.isMeek])
              intro watch entry key same
              cases listens.symm.trans same
          | watch watch =>
              simp only [hear, push]
              split
              · next absent =>
                  refine .of_unheard ?_ [.pin [monitor]] rfl rfl rfl rfl (by simp [Call.isMeek])
                  intro other entry key same there
                  cases listens.symm.trans same
                  cases absent.symm.trans there
              · next entry there =>
                  have there : page.scene.watches.get? watch = some entry := there
                  split
                  · next nobody =>
                      refine .of_unheard ?_ [.pin [monitor]] rfl rfl rfl rfl (by simp [Call.isMeek])
                      intro other known key same isThere
                      cases listens.symm.trans same
                      cases there.symm.trans isThere
                      simp [nobody]
                  · next audience told =>
                      cases audience with
                      | host handle round =>
                          simp only [tell, record]
                          refine .of_unheard ?_ [.pin entry.monitors, .pin [monitor]] rfl rfl
                            rfl rfl (by simp [Call.isMeek])
                          intro other known key same isThere
                          cases listens.symm.trans same
                          cases there.symm.trans isThere
                          simp [told]
                      | binding key =>
                          simp only [tell, push]
                          have value : page.scene.watchValue watch =
                              page.scene.allHold entry.monitors := by
                            simp only [Scene.watchValue, there]
                          refine .told listens there told ⟨rfl, rfl, fun _ => rfl⟩
                            [.pin entry.monitors, .pin [monitor]] (by simp [Call.isMeek]) ?_
                          rw [value]
                          rfl

theorem turn_bury (page : Page) (key : BindingId) :
    page.Turn (page.bury key) (.bury key) := by
  have watches : (page.binding? key).bind Binding.watch = page.watch? key := by
    cases found : page.binding? key <;> simp [watch?, outlook?, found, Binding.outlook]
  have outlooks (base : Page) (same : base.bindings = page.bindings) (other : BindingId) :
      ((base.changeBinding key fun binding =>
          { binding with watch := none, phase := .destroyed }).push
        [.notice key .didDestroy none, .notice key .onDestroy none]).outlook? other =
        if other = key then
          (page.outlook? other).map fun outlook => { outlook with watch := none }
        else page.outlook? other := by
    have there : base.binding? other = page.binding? other := by
      simp only [binding?, same]
    change ((base.changeBinding key fun binding =>
      { binding with watch := none, phase := .destroyed }).binding? other).map Binding.outlook = _
    rw [binding?_changeBinding, there, outlook?]
    split
    · simp only [Option.map_map]
      rfl
    · rfl
  unfold bury
  rw [watches]
  split
  · next unwatched =>
      exact .buried (by rw [unwatched]; rfl) rfl (outlooks page rfl) rfl
  · next watch watched =>
      exact .buried (by rw [watched]; rfl) rfl
        (outlooks { page with scene := page.scene.dropWatch watch } rfl) rfl

theorem turn_hydrateNext (page : Page) (hooks : Hooks) (elements : List ElementId) :
    page.Turn (page.hydrateNext hooks elements) (.hydrate hooks elements) := by
  cases elements with
  | nil => exact .of_push [] rfl rfl rfl rfl (by simp) rfl
  | cons element rest =>
      simp only [hydrateNext]
      split
      · exact .of_push [.hydrate hooks rest] rfl rfl rfl rfl (by simp [Call.isMeek]) rfl
      · next label _ =>
          have absent : page.binding? page.bindings.size = none := Table.get?_size _
          have fresh : (page.bindingOf hooks element label).IsFresh :=
            Binding.isFresh_fresh label _ element _ hooks
          refine .born fresh absent rfl rfl ?_ rfl
          intro other
          exact binding?_addBinding page _ other

theorem turn_driveNext (page : Page) (queue : QueueName) :
    page.Turn (page.driveNext queue) (.drive queue) := by
  obtain ⟨_, _, added, same, brings⟩ := driveNext_eq page queue
  rw [same]
  refine .of_push added rfl rfl rfl rfl ?_ rfl
  rcases brings with rfl | rfl | ⟨_, _, _, rfl⟩ <;> simp [Call.isMeek]

theorem turn_retire (page : Page) (key : BindingId) :
    page.Turn (page.retire key) (.retire key) := by
  have unwanted : page.Confined key 0 (page.setWanted key false) := .setWanted page key false
  simp only [retire]
  split
  · exact .retired ⟨rfl, rfl, unwanted.outlook⟩ [.teardown key] rfl (by simp [Call.isMeek])
  · exact .retired ⟨rfl, rfl, unwanted.outlook⟩ [] rfl (by simp)

/-- What a plain call does to the surroundings if all scripts are idle. -/
theorem turn_carryOn
    {call : Call}
    (idle : page.HasIdleScripts)
    (plain : call.isPlain) :
    page.Turn (page.carryOn call) call := by
  have own {key : BindingId}
      (isOf : call.isOf key)
      (gentle : call.ends = false) :
      page.Turn (page.carryOn call) call := by
    obtain ⟨_, confined, _⟩ := Confined.carryOn isOf gentle
    refine .of_confined confined ?_
    cases call with
    | request | script | deliver | pin | hydrate | destroyEach | drive => cases isOf
    | retire | bury => cases gentle
    | _ => rfl
  cases call with
  | request request => exact turn_answer page plain
  | script script position subject =>
      rw [carryOn, runScript_of_idle idle]
      exact .of_push [] rfl rfl rfl rfl (by simp) rfl
  | deliver monitors => exact turn_deliver page monitors
  | pin => exact .of_push [] rfl rfl rfl rfl (by simp) rfl
  | hydrate hooks elements => exact turn_hydrateNext page hooks elements
  | destroyEach bindings =>
      cases bindings with
      | nil => exact .of_push [] rfl rfl rfl rfl (by simp) rfl
      | cons first rest =>
          exact .of_push [.request (.bind .destroy first), .destroyEach rest] rfl rfl rfl rfl
            (by simp [Call.isMeek, Request.isPlain, Request.isWish]) rfl
  | drive queue => exact turn_driveNext page queue
  | retire key => exact turn_retire page key
  | bury key => exact turn_bury page key
  | notice key | launch key | arrive key | construct key | settle key | teardown key
  | dismantle key | vacated key | remount key =>
      exact own (decide_eq_true (Eq.refl key)) rfl

/-- What a step does to the surroundings if all scripts are idle and all calls are plain. -/
theorem turn_step
    {call : Call}
    {rest : List Call}
    (idle : page.HasIdleScripts)
    (plain : ∀ call ∈ page.stack, call.isPlain)
    (stack : page.stack = call :: rest) :
    ({ page with stack := rest } : Page).Turn page.step call := by
  have resting : ({ page with stack := rest } : Page).HasIdleScripts := idle
  rw [step_of_stack stack]
  exact turn_carryOn resting (plain call (by rw [stack]; exact List.mem_cons_self))

end Page

end Hydration
