import Hydration.Context.Parser
import Hydration.Page.Basic

/-!
# Binding a page

Hydration binds every selected element that names a module, once for each name
it carries, and starts each binding before it looks at the next element.
-/

namespace Hydration

namespace Page

/-- The name of the module that a label stands for. -/
def nameOf (page : Page) (naming : Naming) (label : String) : String :=
  match naming with
  | .redirect => page.registry.redirect label
  | .fronted front => front ++ label

/-- Whether a binding that was not forgotten ties a label to an element. -/
def isBound (page : Page) (element : ElementId) (label : String) : Bool :=
  page.modules.any fun key =>
    (page.binding? key).any fun binding => binding.element = element && binding.label = label

/-- The label of an element that is to be bound: not blank, and not bound yet. -/
def labelOf? (page : Page) (hooks : Hooks) (element : ElementId) : Option String :=
  match (hooks.readName.read page.scene.tree element).map Text.trimmed with
  | none => none
  | some label =>
      if label.isEmpty || page.isBound element label then none else some label

theorem labelOf?_eq_some_iff
    {page : Page}
    {hooks : Hooks}
    {element : ElementId}
    {label : String} :
    page.labelOf? hooks element = some label ↔
      (hooks.readName.read page.scene.tree element).map Text.trimmed = some label ∧
        label ≠ "" ∧ page.isBound element label = false := by
  unfold labelOf?
  cases (hooks.readName.read page.scene.tree element).map Text.trimmed with
  | none => simp
  | some found =>
      by_cases same : found = label
      · simp [same]
      · simp [same]

/-- A binding of an element by its label, with the context written on the element. -/
def bindingOf (page : Page) (hooks : Hooks) (element : ElementId) (label : String) : Binding :=
  let source := (hooks.readContext.read page.scene.tree element).getD ""
  Binding.fresh label (page.nameOf hooks.naming label) element
    (Context.parseWith source hooks.defaultMonitor) hooks

/-- Binds the first of the elements that are still to be bound. -/
def hydrateNext (page : Page) (hooks : Hooks) : List ElementId → Page
  | [] => page
  | element :: rest =>
      let waiting := page.push [.hydrate hooks rest]
      match page.labelOf? hooks element with
      | none => waiting
      | some label =>
          let key := page.bindings.size
          let bound := waiting.addBinding (page.bindingOf hooks element label)
          { bound with modules := bound.modules ++ [key] }.push [.request (.bind .start key)]

/-- Forgets the bindings that have ended and binds the elements that a root stands for. -/
def hydrate (page : Page) (root : ElementId) : Page :=
  let living := page.modules.filter fun key => page.phase key ≠ .destroyed
  { page with modules := living }.push
    [.hydrate page.hooks (page.hooks.selection.elements page.scene.tree root)]

/-- Forgets all bindings and destroys them in the order they were made. -/
def destroyAll (page : Page) : Page :=
  { page with modules := [] }.push [.destroyEach page.modules]

/-- Destroys the first of the bindings that are still to be destroyed. -/
def destroyNext (page : Page) : List BindingId → Page
  | [] => page
  | key :: rest => page.push [.request (.bind .destroy key), .destroyEach rest]

/--
The bindings that were not forgotten whose label is `name` or whose module is
the one that `name` stands for.
-/
def find (page : Page) (name : String) : List BindingId :=
  let resolved := page.registry.absolute (page.registry.redirect name)
  page.modules.filter fun key =>
    (page.binding? key).any fun binding =>
      binding.label = name || page.registry.absolute binding.name = resolved

/-- Watches a context for the host; `handle` is its name for the watch. -/
def watchFor (page : Page) (handle : Nat) (source : String) (element : ElementId) :
    Page × Except ContextFault WatchId :=
  match Context.parseWith source page.hooks.defaultMonitor with
  | .error fault => (page, .error fault)
  | .ok context =>
      match page.scene.watch page.pinned page.hooks.factories element context with
      | (scene, .error fault) => ({ page with scene }, .error fault)
      | (scene, .ok watch) =>
          ({ page with scene := scene.listen watch (.host handle 1) }, .ok watch)

end Page

end Hydration
