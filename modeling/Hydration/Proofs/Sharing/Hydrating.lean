import Hydration.Proofs.Sharing.Toggle
import Hydration.Proofs.Sharing.Wishes
import Hydration.Proofs.Watching.Heeding

/-!
# Binding elements that share a toggle

While a page is hydrated whose elements all have one toggle for their context,
the toggle keeps its value, every binding is wanted by this value as soon as it
has been started, and the toggle tells the binding that was started last.
-/

namespace Hydration

/-- Whether the context written on an element asks a toggle and nothing else. -/
def Hooks.ReadsToggle (hooks : Hooks) (tree : Tree) (name : String) (element : ElementId) :
    Prop :=
  ∃ condition : Condition,
    Context.parseWith ((hooks.readContext.read tree element).getD "") hooks.defaultMonitor =
        .ok ⟨[condition]⟩ ∧
      condition.toggle? hooks.factories = some name

/-- Whether the context of a binding asks a toggle and nothing else. -/
def Binding.AsksToggle (binding : Binding) (name : String) : Prop :=
  ∃ condition : Condition,
    binding.context = .ok ⟨[condition]⟩ ∧
      condition.toggle? binding.hooks.factories = some name

/-- Whether a call belongs to a binding or makes bindings whose contexts are a toggle. -/
def Call.Hydrates (tree : Tree) (name : String) : Call → Prop
  | hydrate hooks elements => ∀ element ∈ elements, hooks.ReadsToggle tree name element
  | call => call.isInward

theorem Call.hydrates_of_isInward
    {call : Call}
    (inward : call.isInward)
    (tree : Tree)
    (name : String) :
    call.Hydrates tree name := by
  cases call with
  | hydrate => cases inward
  | _ => exact inward

namespace Page

variable
  {page after : Page} {name : String} {value : Bool} {loose : BindingId → Prop}
  {key : BindingId} {binding : Binding}

/-- The toggle keeps its value, and all bindings but the `loose` ones are wanted by it. -/
structure Hydrating (name : String) (value : Bool) (loose : BindingId → Prop) (page : Page) :
    Prop extends page.Wanting value loose where
  holds : page.scene.toggleValue name = value
  knows : page.scene.KnowsToggle name
  calls : ∀ call ∈ page.stack, call.Hydrates page.scene.tree name

/-- Whether the toggle tells the binding that was made last. -/
def TellsLast (name : String) (page : Page) : Prop :=
  ∀ key, key + 1 = page.bindings.size → page.scene.Tells name key

/-- Whether bindings are made for a toggle, or the last one is started or told its value. -/
inductive IsHydrating (name : String) (value : Bool) : Page → Prop where
  | asked
      {page : Page}
      {root : ElementId}
      (hydrating : page.Hydrating name value fun _ => False)
      (tells : page.TellsLast name)
      (reads :
        ∀ element ∈ page.hooks.selection.elements page.scene.tree root,
          page.hooks.ReadsToggle page.scene.tree name element) :
      IsHydrating name value (page.push [.request (.hydrate root)])
  | settled
      {page : Page}
      (hydrating : page.Hydrating name value fun _ => False)
      (tells : page.TellsLast name) :
      IsHydrating name value page
  | starting
      {page : Page}
      {key : BindingId}
      {binding : Binding}
      (hydrating : page.Hydrating name value fun other => other = key)
      (last : key + 1 = page.bindings.size)
      (found : page.binding? key = some binding)
      (fresh : binding.IsFresh)
      (asks : binding.AsksToggle name) :
      IsHydrating name value (page.push [.request (.bind .start key)])
  | telling
      {page : Page}
      {key : BindingId}
      (hydrating : page.Hydrating name value fun other => other = key)
      (tells : page.TellsLast name)
      (holds : value = true) :
      IsHydrating name value (page.push [.request (.bind .mount key)])

theorem Hydrating.keep
    (hydrating : page.Hydrating name value loose)
    (inner : page.Inner after) :
    after.Hydrating name value loose := by
  refine ⟨hydrating.toWanting.keep inner, ?_, ?_, ?_⟩
  · rw [inner.scene]
    exact hydrating.holds
  · rw [inner.scene]
    exact hydrating.knows
  · rw [inner.scene]
    exact inner.forall_calls (Call.hydrates_of_isInward · _ _) hydrating.calls

theorem TellsLast.keep
    (tells : page.TellsLast name)
    (scene : after.scene = page.scene)
    (size : after.bindings.size = page.bindings.size) :
    after.TellsLast name := by
  simpa only [TellsLast, scene, size] using tells

/-- A binding that asks a toggle gets a watch that the toggle tells, and a wish if it holds. -/
theorem start_of_toggle
    (found : page.binding? key = some binding)
    (fresh : binding.IsFresh)
    (asks : binding.AsksToggle name)
    (knows : page.scene.KnowsToggle name) :
    ∃ scene watch,
      let given := page.giveWatch key scene watch
      page.start key =
          (if page.scene.toggleValue name then given.push [.request (.bind .mount key)]
          else given) ∧
        given.scene.Tells name key ∧
        given.scene.toggleValue name = page.scene.toggleValue name ∧
        given.scene.tree = page.scene.tree := by
  obtain ⟨condition, read, asked⟩ := asks
  have result := Scene.watch_toggle asked page.scene page.pinned binding.element
  obtain ⟨named, isMonitor, value, tree⟩ := Scene.toggle_named knows
  generalize page.scene.toggle name = toggled at result named isMonitor value tree
  obtain ⟨tells, holds, watched⟩ :=
    Scene.listen_addWatch ⟨[condition]⟩ named isMonitor key
  refine ⟨_, toggled.2.watches.size, ?_, tells, holds.trans value,
    (Scene.tree_listen _ _ _).trans tree⟩
  have waiting : ¬ (binding.phase = .destroyed ∨ binding.watch.isSome = true) := by
    simp [fresh.phase, fresh.watch]
  simp only [Page.start, found, if_neg waiting, read, result]
  change (if (page.giveWatch key _ toggled.2.watches.size).matchesContext key then
    (page.giveWatch key _ toggled.2.watches.size).push [.request (.bind .mount key)]
    else page.giveWatch key _ toggled.2.watches.size) = _
  rw [(matchesContext_giveWatch found _ _).trans (watched.trans value)]

@[simp] theorem size_giveWatch
    (page : Page)
    (key : BindingId)
    (scene : Scene)
    (watch : WatchId) :
    (page.giveWatch key scene watch).bindings.size = page.bindings.size :=
  Table.size_modify _ _ _

/-- A binding that is started is wanted as it should be, or it is to be told so. -/
theorem Hydrating.start
    (hydrating : page.Hydrating name value fun other => other = key)
    (last : key + 1 = page.bindings.size)
    (found : page.binding? key = some binding)
    (fresh : binding.IsFresh)
    (asks : binding.AsksToggle name) :
    (page.start key).IsHydrating name value := by
  obtain ⟨scene, watch, started, told, holds, tree⟩ :=
    start_of_toggle found fresh asks hydrating.knows
  have rescened (scene : Scene) :
      ({ page with scene } : Page).Wanting value fun other => other = key :=
    ⟨hydrating.idle, hydrating.living, hydrating.wishes⟩
  have given : (page.giveWatch key scene watch).Hydrating name value fun other => other = key := by
    refine ⟨(rescened _).changeBinding rfl fun _ => rfl, holds.trans hydrating.holds,
      told.knowsToggle, ?_⟩
    rw [tree]
    exact hydrating.calls
  have tells : (page.giveWatch key scene watch).TellsLast name := by
    intro other isLast
    rw [size_giveWatch, ← last] at isLast
    cases Nat.succ.inj isLast
    exact told
  rw [started, hydrating.holds]
  cases value with
  | true => exact .telling given tells rfl
  | false =>
      refine .settled { given with toWanting := given.tighten ?_ } tells
      intro now there
      rw [binding?_giveWatch, if_pos rfl, found] at there
      cases there
      exact fresh.wanted

/-- A binding that is told to mount while the toggle holds is wanted by it. -/
theorem Hydrating.mount
    (hydrating : page.Hydrating name true fun other => other = key)
    (tells : page.TellsLast name) :
    (page.mount key).IsHydrating name true := by
  have inner : (page.setWanted key true).Inner (page.mount key) :=
    .obey (hydrating.living key) true
  have wished : (page.setWanted key true).Hydrating name true fun other => other = key :=
    { hydrating with toWanting := hydrating.setWanted rfl true }
  have after := wished.keep inner
  refine .settled { after with toWanting := after.tighten fun _ => inner.wanted } ?_
  exact tells.keep inner.scene (inner.size.trans (size_setWanted page key true))

/-- The next element is passed over, or a binding is made that is to be started. -/
theorem Hydrating.hydrateNext
    {hooks : Hooks}
    {elements : List ElementId}
    (hydrating : page.Hydrating name value fun _ => False)
    (tells : page.TellsLast name)
    (reads : ∀ element ∈ elements, hooks.ReadsToggle page.scene.tree name element) :
    (page.hydrateNext hooks elements).IsHydrating name value := by
  cases elements with
  | nil => exact .settled hydrating tells
  | cons element others =>
      obtain ⟨first, later⟩ := List.forall_mem_cons.mp reads
      have waiting : (page.push [.hydrate hooks others]).Hydrating name value fun _ => False :=
        { hydrating with calls := List.forall_mem_cons.mpr ⟨later, hydrating.calls⟩ }
      simp only [Page.hydrateNext]
      split
      · exact .settled waiting tells
      · next label _ =>
          have bindings := binding?_addBinding page (page.bindingOf hooks element label)
          refine .starting ⟨⟨hydrating.idle, ?_, ?_⟩, hydrating.holds, hydrating.knows,
            waiting.calls⟩ (Table.size_push _ _).symm ((bindings _).trans (if_pos rfl))
            (Binding.isFresh_fresh label _ element _ hooks) first
          · intro key binding there
            rcases eq_or_ne key page.bindings.size with rfl | different
            · cases ((bindings _).trans (if_pos rfl)).symm.trans there
              simp [bindingOf, Binding.fresh]
            · have old := (bindings key).trans (if_neg different)
              exact hydrating.living key binding (old.symm.trans there)
          · intro key binding there different
            have old := (bindings key).trans (if_neg different)
            exact hydrating.wishes key binding (old.symm.trans there) id

/-- Whatever is under way, bindings are made for the toggle or brought to its value. -/
theorem IsHydrating.step (isHydrating : page.IsHydrating name value) :
    page.step.IsHydrating name value := by
  cases isHydrating with
  | asked hydrating tells reads =>
      rw [step_of_stack rfl]
      refine .settled { hydrating with calls := ?_ } tells
      exact List.forall_mem_cons.mpr ⟨reads, hydrating.calls⟩
  | starting hydrating last found fresh asks =>
      rw [step_of_stack rfl]
      exact hydrating.start last found fresh asks
  | telling hydrating tells holds =>
      subst holds
      rw [step_of_stack rfl]
      exact hydrating.mount tells
  | settled hydrating tells =>
      cases stack : page.stack with
      | nil =>
          rw [step_of_nil stack]
          exact .settled hydrating tells
      | cons call rest =>
          have calls := hydrating.calls
          rw [stack] at calls
          obtain ⟨first, others⟩ := List.forall_mem_cons.mp calls
          have popped : ({ page with stack := rest } : Page).Hydrating name value fun _ => False :=
            { hydrating with calls := others }
          rw [step_of_stack stack]
          cases call with
          | hydrate hooks elements => exact popped.hydrateNext tells first
          | _ =>
              have inner := Inner.carryOn popped.idle first
              exact .settled (popped.keep inner) (tells.keep inner.scene inner.size)

/-- At rest all bindings are wanted as the toggle says, which tells the last one. -/
theorem IsHydrating.of_rest
    (isHydrating : page.IsHydrating name value)
    (rest : page.isAtRest) :
    page.Hydrating name value (fun _ => False) ∧ page.TellsLast name := by
  cases isHydrating with
  | settled hydrating tells => exact ⟨hydrating, tells⟩
  | asked | starting | telling => simp [isAtRest, push] at rest

end Page

end Hydration
