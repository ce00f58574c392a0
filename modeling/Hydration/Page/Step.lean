import Hydration.Page.Driving
import Hydration.Page.Hydration
import Hydration.Page.Lifecycle
import Hydration.Page.Watching

/-!
# Steps and runs

One step takes the innermost call off the stack and does what it stands for,
which may put other calls in its place.  A request of the host is run until the
page is at rest.
-/

namespace Hydration

namespace Page

/-- Whether an action is for a binding with this label. -/
def Action.isFor (action : Action) (label? : Option String) : Bool :=
  match action.label, label? with
  | some wanted, some label => wanted = label
  | _, _ => true

/-- What an action asks, if it is run for this binding. -/
def Act.request? (act : Act) (subject : Option BindingId) : Option Request :=
  match act, subject with
  | .page request, _ => some request
  | .own verb, some key => some (.bind verb key)
  | .own _, none => none

/-- The script after one more run of an action. -/
def Script.spend (script : Script) (position : Nat) : Script :=
  ⟨script.actions.modify position fun action =>
    { action with remaining := action.remaining - 1 }⟩

/-- Runs a script from one of its actions on. -/
def runScript (page : Page) (key : ScriptId) (position : Nat)
    (subject : Option BindingId) : Page :=
  match (page.scripts.get? key).bind fun script => script.actions[position]? with
  | none => page
  | some action =>
      let waiting := page.push [.script key (position + 1) subject]
      let label? := (subject.bind page.binding?).map Binding.label
      if Action.isFor action label? && 0 < action.remaining then
        let spent :=
          { waiting with
            scripts := page.scripts.modify key fun script => Script.spend script position }
        match Act.request? action.act subject with
        | none => spent
        | some request => spent.push [.request request]
      else
        waiting

/-- Does what a request asks. -/
def answer (page : Page) : Request → Page
  | .bind verb key => page.obey verb key
  | .drive queue => page.drive queue
  | .toggle name value => page.refresh (page.scene.setToggle name value)
  | .resize viewport => page.refresh (page.scene.resize page.pinned viewport)
  | .reveal element visible =>
      page.refresh (page.scene.reveal page.pinned element visible)
  | .mark element name value =>
      { page with
        scene := page.scene.changeTree fun tree =>
          match value with
          | none => tree.removeAttribute element name
          | some value => tree.setAttribute element name value }
  | .append parent child =>
      { page with scene := page.scene.changeTree fun tree => tree.append parent child }
  | .release gate => { page with executor := page.executor.release gate }
  | .cancel subscription => { page with scene := page.scene.unsubscribe subscription }
  | .dropSubscription subscription =>
      { page with scene := page.scene.dropSubscription subscription }
  | .dropMonitor handle => { page with scene := page.scene.unhold handle }
  | .hydrate root => page.hydrate root
  | .destroyAll => page.destroyAll

/-- Carries on with a call that was taken off the stack. -/
def carryOn (page : Page) : Call → Page
  | .request request => page.answer request
  | .script key position subject => page.runScript key position subject
  | .notice key notice fault => page.notice key notice fault
  | .deliver monitors => page.deliver monitors
  | .pin _ => page
  | .launch key attempt => page.launch key attempt
  | .arrive key attempt outcome => page.arrive key attempt outcome
  | .construct key attempt stage => page.construct key attempt stage
  | .settle key => page.settle key
  | .teardown key => page.teardown key
  | .dismantle key => page.dismantle key
  | .vacated key => page.vacated key
  | .remount key => page.remount key
  | .retire key => page.retire key
  | .bury key => page.bury key
  | .hydrate hooks elements => page.hydrateNext hooks elements
  | .destroyEach bindings => page.destroyNext bindings
  | .drive queue => page.driveNext queue

/-- One step; a page at rest stays as it is. -/
def step (page : Page) : Page :=
  match page.stack with
  | [] => page
  | call :: rest => { page with stack := rest }.carryOn call

/-- Whether no call is under way. -/
def isAtRest (page : Page) : Bool :=
  page.stack.isEmpty

/-- Steps until the page is at rest, at most `limit` of them. -/
def run : Nat → Page → Page
  | 0, page => page
  | limit + 1, page => if page.isAtRest then page else run limit page.step

/--
More steps than any request takes: every action is done a limited number of
times, and what happens between two actions is short.
-/
def stepLimit : Nat := 1000000000

/-- What a request of the host makes of a page. -/
def perform (page : Page) (request : Request) : Page :=
  run stepLimit (page.push [.request request])

end Page

end Hydration
