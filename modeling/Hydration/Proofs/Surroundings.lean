import Hydration.Proofs.Run
import Hydration.Proofs.Watching.Attending

/-!
# What surrounds the bindings of a page

Bindings look at the viewport and at which elements can be seen.  Both are what
was asked for last: the answer of a request changes them as the request says, and
nothing else that happens on a page changes them at all.
-/

namespace Hydration

/-- What bindings look at. -/
structure Surroundings where
  viewport : Viewport
  visible : ElementId → Bool

namespace Surroundings

/-- The surroundings that a request asks for. -/
def answer (surroundings : Surroundings) : Request → Surroundings
  | .resize viewport => { surroundings with viewport }
  | .reveal element visible =>
      { surroundings with
        visible := fun other => if other = element then visible else surroundings.visible other }
  | _ => surroundings

/-- The surroundings after some requests, the latest of them first. -/
def answerAll (surroundings : Surroundings) (requests : List Request) : Surroundings :=
  requests.foldr (fun request earlier => earlier.answer request) surroundings

@[simp]
theorem answer_resize_viewport (surroundings : Surroundings) (viewport : Viewport) :
    (surroundings.answer (.resize viewport)).viewport = viewport :=
  rfl

theorem answerAll_append (surroundings : Surroundings) (later earlier : List Request) :
    surroundings.answerAll (later ++ earlier) =
      (surroundings.answerAll earlier).answerAll later :=
  List.foldr_append

end Surroundings

namespace Scene

variable {scene after : Scene} {pinned : List MonitorId} {kept : MonitorId → Prop}
variable {watch : WatchId}

def surroundings (scene : Scene) : Surroundings :=
  ⟨scene.viewport, scene.isVisible⟩

@[simp]
theorem surroundings_viewport (scene : Scene) : scene.surroundings.viewport = scene.viewport :=
  rfl

theorem surroundings_of_eq
    (viewport : after.viewport = scene.viewport)
    (visibility : after.visibility = scene.visibility) :
    after.surroundings = scene.surroundings := by
  have visible : after.isVisible = scene.isVisible :=
    funext fun _ => by rw [isVisible, isVisible, visibility]
  rw [surroundings, viewport, visible]
  rfl

theorem Grows.surroundings (grows : scene.Grows after) :
    after.surroundings = scene.surroundings := by
  rw [Scene.surroundings, grows.viewport, funext grows.visible]
  rfl

theorem Silences.surroundings (silences : scene.Silences after watch) :
    after.surroundings = scene.surroundings :=
  surroundings_of_eq silences.viewport silences.visibility

theorem surroundings_listen (scene : Scene) (watch : WatchId) (audience : Audience) :
    (scene.listen watch audience).surroundings = scene.surroundings := by
  rcases listen_cases scene watch audience with ⟨_, silences⟩ | ⟨_, _, _, listens⟩
  · exact silences.surroundings
  · exact surroundings_of_eq listens.viewport listens.visibility

theorem Vital.surroundings_watch
    (vital : scene.Vital pinned)
    (factories : Factories)
    (element : ElementId)
    (context : Context) :
    (scene.watch pinned factories element context).1.surroundings = scene.surroundings := by
  rcases vital.tracks.watch_cases (fun _ => id) factories element context with
    ⟨_, _, result, grows, _⟩ | ⟨_, _, result, _, grows, _⟩
  all_goals
    rw [result]
    exact grows.surroundings

theorem Vital.surroundings_run (vital : scene.Vital pinned) (chore : Chore) :
    (scene.run pinned chore).surroundings = scene.surroundings := by
  cases chore with
  | watch factories element context => exact vital.surroundings_watch factories element context
  | listen watch handle round => exact surroundings_listen scene watch _
  | dispose watch => exact (silences_disposeWatch scene watch).surroundings
  | drop watch => exact (silences_dropWatch scene watch).surroundings

theorem surroundings_cancel (scene : Scene) (subscription : Subscription Attachment) :
    (scene.cancel subscription).surroundings = scene.surroundings := by
  unfold cancel
  split <;> rfl

theorem surroundings_unsubscribe (scene : Scene) (subscription : Nat) :
    (scene.unsubscribe subscription).surroundings = scene.surroundings := by
  unfold unsubscribe
  split
  · rfl
  · exact surroundings_cancel scene _

theorem Tracks.surroundings_setToggle
    (tracks : scene.Tracks kept)
    (name : String)
    (value : Bool) :
    (scene.setToggle name value).1.surroundings = scene.surroundings :=
  (tracks.toggle name).1.surroundings

/-- After a resize the viewport is the one that was given, and the same elements can be seen. -/
theorem surroundings_resize (scene : Scene) (pinned : List MonitorId) (viewport : Viewport) :
    (scene.resize pinned viewport).1.surroundings =
      scene.surroundings.answer (.resize viewport) := by
  rw [surroundings, viewport_resize]
  rfl

/-- After a report its element looks as reported, and all else looks as it did. -/
theorem Tracks.surroundings_reveal
    (tracks : scene.Tracks kept)
    (pinned : List MonitorId)
    (element : ElementId)
    (visible : Bool) :
    (scene.reveal pinned element visible).1.surroundings =
      scene.surroundings.answer (.reveal element visible) := by
  rw [surroundings,
    funext fun other => isVisible_reveal tracks.distinct pinned element other visible]
  rfl

end Scene

namespace Page

variable {page : Page} {call : Call}

/-- The request that is answered by the next step. -/
def answering? (page : Page) : Option Request :=
  match page.stack with
  | .request request :: _ => some request
  | _ => none

theorem surroundings_start (vital : page.scene.Vital page.pinned) (key : BindingId) :
    (page.start key).scene.surroundings = page.scene.surroundings := by
  have starts := page.starts key
  generalize page.start key = after at starts ⊢
  cases starts with
  | late | unread => rfl
  | @refused binding context _ _ _ _ _ _ result =>
      have watched :=
        vital.surroundings_watch binding.hooks.factories binding.element context
      rw [result] at watched
      exact watched
  | @watched binding context scene watch _ _ _ _ result =>
      have watched :=
        vital.surroundings_watch binding.hooks.factories binding.element context
      rw [result] at watched
      exact (Scene.surroundings_listen scene watch _).trans watched

/-- The answer of a request brings about the surroundings that the request asks for. -/
theorem surroundings_answer (vital : page.scene.Vital page.pinned) (request : Request) :
    (page.answer request).scene.surroundings = page.scene.surroundings.answer request := by
  cases request with
  | bind verb key =>
      cases verb with
      | start => exact surroundings_start vital key
      | mount => exact congrArg Scene.surroundings (Confined.mount page key).scene
      | unmount => exact congrArg Scene.surroundings (Confined.unmount page key).scene
      | destroy =>
          simp only [answer, obey, destroy]
          split <;> rfl
  | drive queue =>
      simp only [answer, drive]
      split <;> rfl
  | toggle name value => exact vital.tracks.surroundings_setToggle name value
  | resize viewport => exact Scene.surroundings_resize page.scene page.pinned viewport
  | reveal element visible => exact vital.tracks.surroundings_reveal page.pinned element visible
  | cancel subscription => exact Scene.surroundings_unsubscribe page.scene subscription
  | dropSubscription subscription => exact Scene.surroundings_unsubscribe page.scene subscription
  | mark | append | release | dropMonitor | hydrate | destroyAll => rfl

theorem surroundings_bury (page : Page) (key : BindingId) :
    (page.bury key).scene.surroundings = page.scene.surroundings := by
  unfold bury
  dsimp only
  split
  · rfl
  · next watch _ => exact (Scene.silences_dropWatch page.scene watch).surroundings

/-- Whoever is told of a monitor, the scene stays as it is. -/
theorem scene_deliver (page : Page) (monitors : List MonitorId) :
    (page.deliver monitors).scene = page.scene := by
  cases monitors with
  | nil => rfl
  | cons monitor rest =>
      unfold deliver
      dsimp only
      split
      · rfl
      · next listener _ =>
          cases listener with
          | host => rfl
          | watch watch =>
              unfold hear
              dsimp only
              split
              · rfl
              · split
                · rfl
                · next audience _ => cases audience <;> rfl

theorem surroundings_step (vital : page.scene.Vital page.pinned) :
    page.step.scene.surroundings = page.scene.surroundings.answerAll page.answering?.toList := by
  cases stack : page.stack with
  | nil =>
      rw [step_of_nil stack]
      simp only [answering?, stack]
      rfl
  | cons call rest =>
      rw [step_of_stack stack]
      by_cases asks : ∃ request, call = .request request
      · obtain ⟨request, rfl⟩ := asks
        have pinned : ({ page with stack := rest } : Page).pinned ⊆ page.pinned := by
          rw [Page.pinned, Page.pinned, stack]
          exact List.subset_append_right _ _
        simp only [answering?, stack]
        have fewer : ({ page with stack := rest } : Page).scene.Vital
            ({ page with stack := rest } : Page).pinned := vital.mono pinned
        exact surroundings_answer fewer request
      · push Not at asks
        have nothing : page.answering? = none := by
          simp only [answering?, stack]
          cases call with
          | request request => exact (asks request rfl).elim
          | _ => rfl
        rw [nothing]
        by_cases delivers : ∃ monitors, call = .deliver monitors
        · obtain ⟨monitors, rfl⟩ := delivers
          exact congrArg Scene.surroundings (scene_deliver _ monitors)
        · by_cases buries : ∃ key, call = .bury key
          · obtain ⟨key, rfl⟩ := buries
            exact surroundings_bury _ key
          · push Not at delivers buries
            exact congrArg Scene.surroundings (retains_carryOn delivers asks buries).scene

/-- On a page on which nobody watches anything yet all living monitors are up to date. -/
theorem vital_of_unwatched
    (stack : page.stack = [])
    (unwatched : ∃ tree viewport, page.scene = { Scene.empty viewport with tree }) :
    page.scene.Vital page.pinned := by
  obtain ⟨tree, viewport, scene⟩ := unwatched
  rw [pinned, stack, List.flatMap_nil, scene]
  exact .empty tree viewport

end Page

/-- Whether a move of the host leaves the scene alone. -/
def Move.sparesScene : Move → Bool
  | scene _ => false
  | _ => true

namespace Run

variable {free : Move → Prop} {start page : Page} {passed : List Page}

/--
All along a run on which the host does not replace the scene, living monitors are
up to date, and the surroundings are those that the requests ask for that were
answered on the way.
-/
theorem surroundings_eq
    (vital : start.scene.Vital start.pinned)
    (spares : ∀ move, free move → move.sparesScene)
    (run : Run free start passed page) :
    page.scene.Vital page.pinned ∧
      page.scene.surroundings =
        start.scene.surroundings.answerAll (passed.filterMap Page.answering?) := by
  induction run with
  | begin => exact ⟨vital, rfl⟩
  | @move passed page move _ rest permitted inductionHypothesis =>
      obtain ⟨vital, surroundings⟩ := inductionHypothesis
      have stack := Page.stack_of_rest rest
      have nothing : page.answering? = none := by simp only [Page.answering?, stack]
      rw [List.filterMap_cons, nothing]
      have spared := spares move permitted
      cases move with
      | scene => cases spared
      | _ => exact ⟨vital, surroundings⟩
  | @step passed page _ inductionHypothesis =>
      obtain ⟨vital, surroundings⟩ := inductionHypothesis
      have stepped := Page.surroundings_step vital
      rw [surroundings, ← Surroundings.answerAll_append] at stepped
      refine ⟨(Page.attends_step page).vital vital, stepped.trans ?_⟩
      rw [List.filterMap_cons]
      cases page.answering? <;> rfl

end Run

end Hydration
