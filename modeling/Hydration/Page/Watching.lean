import Hydration.Page.Basic

/-!
# Watching from a page

What happens when monitors flip: each one in turn tells its listener, which may
be a script of the host or a watch.  A watch passes the conjunction of its
monitors on to a binding, as a wish, or to the host.
-/

namespace Hydration

namespace Page

/-- Tells an audience the value of a watch. -/
def tell (page : Page) (audience : Audience) (value : Bool) : Page :=
  match audience with
  | .binding binding =>
      page.push [.request (.bind (if value then .mount else .unmount) binding)]
  | .host handle round => page.record (.told handle round value)

/-- Passes the value of a monitor to its listener. -/
def hear (page : Page) (listener : Listener) (value : Bool) : Page :=
  match listener with
  | .host subscription script =>
      (page.record (.heard subscription value page.scene.heldValues)).push
        [.script script 0 none]
  | .watch watch =>
      match page.scene.watches.get? watch with
      | none => page
      | some entry =>
          match entry.audience with
          | none => page
          | some audience =>
              (page.push [.pin entry.monitors]).tell audience
                (page.scene.allHold entry.monitors)

/-- Lets the first of the monitors that flipped tell its listener. -/
def deliver (page : Page) : List MonitorId → Page
  | [] => page
  | monitor :: rest =>
      let waiting := page.push [.deliver rest]
      match page.scene.listener? monitor with
      | none => waiting
      | some listener =>
          (waiting.push [.pin [monitor]]).hear listener (page.scene.value monitor)

/-- Changes the scene and has the flipped monitors delivered. -/
def refresh (page : Page) (change : Scene × List MonitorId) : Page :=
  { page with scene := change.1 }.push [.deliver change.2]

end Page

end Hydration
