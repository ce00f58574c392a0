import Hydration.Proofs.Life.Working
import Hydration.Proofs.Sharing.Toggle

/-!
# Lives that proceed

What goes on in the lives of bindings leaves much of a page alone: the registry,
the tree, the strategies, the bindings that hydration knows, and what each
binding ties together.  Most of it leaves the catalog and the queues alone as
well; only an import that is started or looked at does not.
-/

namespace Hydration

/-- What a binding ties together from the moment it is made. -/
structure Bond where
  label : String
  name : String
  element : ElementId
  context : Except ContextFault Context
  hooks : Hooks

def Binding.bond (binding : Binding) : Bond :=
  ⟨binding.label, binding.name, binding.element, binding.context, binding.hooks⟩

theorem Binding.Evolves.bond {before after : Binding} (evolves : before.Evolves after) :
    after.bond = before.bond := by
  obtain ⟨_, _, _, rfl, _⟩ := evolves
  rfl

namespace Scene

theorem tree_make
    (scene : Scene)
    (pinned : List MonitorId)
    (factory : Factory)
    (element : ElementId)
    (query : String) :
    (scene.make pinned factory element query).1.tree = scene.tree := by
  have toggled (name : String) : (scene.toggle name).2.tree = scene.tree := by
    unfold toggle
    split <;> rfl
  cases factory with
  | media | visible =>
      simp only [make]
      split <;> rfl
  | toggle | shared => exact toggled _
  | fixed | carried | reject => rfl

theorem tree_makeOf
    (scene : Scene)
    (pinned : List MonitorId)
    (factories : Factories)
    (kind : String)
    (element : ElementId)
    (query : String) :
    (scene.makeOf pinned factories kind element query).1.tree = scene.tree := by
  unfold makeOf
  split
  · rfl
  · exact tree_make scene pinned _ element query

theorem tree_makeAll
    (pinned : List MonitorId)
    (factories : Factories)
    (element : ElementId)
    (made : List MonitorId)
    (scene : Scene)
    (conditions : List Condition) :
    (makeAll pinned factories element made scene conditions).1.tree = scene.tree := by
  induction conditions generalizing scene made with
  | nil => rfl
  | cons condition rest inductionHypothesis =>
      have first := tree_makeOf scene (made ++ pinned) factories condition.monitor element
        condition.query
      simp only [makeAll]
      split
      · next refused =>
          rw [refused] at first
          exact first
      · next found =>
          rw [found] at first
          exact (inductionHypothesis _ _).trans first

/-- Watching a context does not touch the elements. -/
theorem tree_watch
    (scene : Scene)
    (pinned : List MonitorId)
    (factories : Factories)
    (element : ElementId)
    (context : Context) :
    (scene.watch pinned factories element context).1.tree = scene.tree := by
  have made := tree_makeAll pinned factories element [] scene context.conditions
  unfold watch
  split
  · next refused =>
      rw [refused] at made
      exact made
  · next found =>
      rw [found] at made
      exact made

theorem tree_dropWatch (scene : Scene) (watch : WatchId) :
    (scene.dropWatch watch).tree = scene.tree :=
  tree_silence scene watch

end Scene

namespace Page

/-- What a binding ties together, once it has been made. -/
def bond? (page : Page) (key : BindingId) : Option Bond :=
  (page.binding? key).map Binding.bond

theorem bond?_of_found
    {page : Page}
    {key : BindingId}
    {binding : Binding}
    (found : page.binding? key = some binding) :
    page.bond? key = some binding.bond := by
  rw [bond?, found, Option.map_some]

/-- The surroundings and the bonds of all bindings are as before. -/
structure Persists (before after : Page) : Prop where
  registry : after.registry = before.registry
  tree : after.scene.tree = before.scene.tree
  scripts : after.scripts = before.scripts
  hooks : after.hooks = before.hooks
  modules : after.modules = before.modules
  size : after.bindings.size = before.bindings.size
  bond : ∀ key, after.bond? key = before.bond? key

/-- What is more, nothing was imported, and what came under way is ordinary. -/
structure Proceeds (before after : Page) : Prop extends before.Persists after where
  catalog : after.catalog = before.catalog
  executor : after.executor = before.executor
  stack :
    ∃ added, after.stack = added ++ before.stack ∧ ∀ call ∈ added, call.isOrdinary

theorem Persists.refl (page : Page) : page.Persists page :=
  ⟨rfl, rfl, rfl, rfl, rfl, rfl, fun _ => rfl⟩

theorem Persists.trans
    {first second third : Page}
    (earlier : first.Persists second)
    (later : second.Persists third) :
    first.Persists third where
  registry := later.registry.trans earlier.registry
  tree := later.tree.trans earlier.tree
  scripts := later.scripts.trans earlier.scripts
  hooks := later.hooks.trans earlier.hooks
  modules := later.modules.trans earlier.modules
  size := later.size.trans earlier.size
  bond key := (later.bond key).trans (earlier.bond key)

namespace Proceeds

variable {page : Page} {key : BindingId}

theorem refl (page : Page) : page.Proceeds page :=
  ⟨.refl page, rfl, rfl, [], rfl, by simp⟩

theorem trans
    {first second third : Page}
    (earlier : first.Proceeds second)
    (later : second.Proceeds third) :
    first.Proceeds third := by
  refine ⟨earlier.toPersists.trans later.toPersists, later.catalog.trans earlier.catalog,
    later.executor.trans earlier.executor, ?_⟩
  obtain ⟨inner, before, ordinaryBefore⟩ := earlier.stack
  obtain ⟨outer, after, ordinaryAfter⟩ := later.stack
  refine ⟨outer ++ inner, by rw [after, before, List.append_assoc], ?_⟩
  intro call member
  exact (List.mem_append.mp member).elim (ordinaryAfter call) (ordinaryBefore call)

theorem push
    (page : Page)
    {calls : List Call}
    (ordinary : ∀ call ∈ calls, call.isOrdinary) :
    page.Proceeds (page.push calls) :=
  ⟨⟨rfl, rfl, rfl, rfl, rfl, rfl, fun _ => rfl⟩, rfl, rfl, calls, rfl, ordinary⟩

theorem record (page : Page) (event : Event) : page.Proceeds (page.record event) :=
  ⟨⟨rfl, rfl, rfl, rfl, rfl, rfl, fun _ => rfl⟩, rfl, rfl, [], rfl, by simp⟩

/-- A binding may change in all but its bond. -/
theorem changeBinding
    {change : Binding → Binding}
    (same : ∀ binding, (change binding).bond = binding.bond) :
    page.Proceeds (page.changeBinding key change) := by
  refine ⟨⟨rfl, rfl, rfl, rfl, rfl, Table.size_modify _ _ _, ?_⟩, rfl, rfl, [], rfl, by simp⟩
  intro other
  simp only [bond?, binding?_changeBinding]
  split
  · rw [Option.map_map]
    exact congrArg (Option.map · _) (funext same)
  · rfl

theorem setWanted (page : Page) (key : BindingId) (wanted : Bool) :
    page.Proceeds (page.setWanted key wanted) :=
  .changeBinding fun _ => rfl

theorem setCallback (page : Page) (key : BindingId) (notice : Notice) (script : ScriptId) :
    page.Proceeds (page.setCallback key notice script) :=
  .changeBinding fun _ => rfl

/-- The scene may change in all but its tree. -/
theorem rescene
    {scene : Scene}
    (tree : scene.tree = page.scene.tree) :
    page.Proceeds { page with scene } :=
  ⟨⟨rfl, tree, rfl, rfl, rfl, rfl, fun _ => rfl⟩, rfl, rfl, [], rfl, by simp⟩

/-- A life at work leaves alone what bindings tie together. -/
theorem of_works
    {heft : Nat}
    {after : Page}
    (works : page.Works key heft after) :
    page.Proceeds after := by
  obtain ⟨change, bindings, evolves⟩ := works.bindings
  obtain ⟨added, stack, own, _⟩ := works.stack
  have changed : page.Proceeds (page.changeBinding key change) :=
    .changeBinding fun binding => (evolves binding).bond
  refine ⟨⟨works.registry, congrArg Scene.tree works.scene, works.scripts, works.hooks,
    works.modules, ?_, fun other => ?_⟩, works.catalog, works.executor, added, stack,
    fun call member => (own call member).2.2⟩
  · rw [bindings, Table.size_modify]
  · rw [← changed.bond other]
    simp only [bond?, binding?, bindings, Page.changeBinding]

theorem mount (page : Page) (key : BindingId) : page.Proceeds (page.mount key) := by
  rcases Works.mount_cases page key with ⟨_, same⟩ | ⟨_, works⟩
  · rw [same]
    exact .refl page
  · exact (setWanted page key true).trans (.of_works works)

theorem unmount (page : Page) (key : BindingId) : page.Proceeds (page.unmount key) := by
  rcases Works.unmount_cases page key with ⟨_, same⟩ | ⟨_, works⟩
  · rw [same]
    exact .refl page
  · exact (setWanted page key false).trans (.of_works works)

theorem remount (page : Page) (key : BindingId) : page.Proceeds (page.remount key) := by
  unfold Page.remount
  split
  · exact .mount page key
  · exact .refl page

theorem destroy (page : Page) (key : BindingId) : page.Proceeds (page.destroy key) := by
  unfold Page.destroy
  split
  · exact .refl page
  · exact .push page (by simp [Call.isOrdinary])

theorem retire (page : Page) (key : BindingId) : page.Proceeds (page.retire key) := by
  have unwanted := setWanted page key false
  unfold Page.retire
  dsimp only
  split
  · exact unwanted.trans (.push _ (by simp [Call.isOrdinary]))
  · exact unwanted.trans (.push _ (by simp [Call.isOrdinary]))

theorem bury (page : Page) (key : BindingId) : page.Proceeds (page.bury key) := by
  have buried (page : Page) :
      page.Proceeds ((page.changeBinding key fun binding =>
        { binding with watch := none, phase := .destroyed }).push
          [.notice key .didDestroy none, .notice key .onDestroy none]) := by
    refine Proceeds.trans (.changeBinding ?_) (.push _ (by simp [Call.isOrdinary]))
    exact fun _ => rfl
  unfold Page.bury
  dsimp only
  split
  · exact buried page
  · exact (rescene (Scene.tree_dropWatch _ _)).trans (buried _)

theorem start (page : Page) (key : BindingId) : page.Proceeds (page.start key) := by
  have starts := page.starts key
  generalize page.start key = after at starts ⊢
  cases starts with
  | late => exact .refl page
  | unread => exact .of_works (.report page key _)
  | @refused binding context scene fault _ _ _ _ result =>
      have tree := Scene.tree_watch page.scene page.pinned binding.hooks.factories
        binding.element context
      rw [result] at tree
      exact (rescene tree).trans (.of_works (.report _ key _))
  | @watched binding context scene watch _ _ _ _ result =>
      have tree := Scene.tree_watch page.scene page.pinned binding.hooks.factories
        binding.element context
      rw [result] at tree
      have listening : page.Proceeds { page with scene := scene.listen watch (.binding key) } :=
        rescene ((Scene.tree_listen scene watch (.binding key)).trans tree)
      have given : page.Proceeds (page.giveWatch key scene watch) :=
        listening.trans (.changeBinding fun _ => rfl)
      refine given.trans (.push _ ?_)
      split <;> simp [Call.isOrdinary]

theorem obey (page : Page) (verb : Verb) (key : BindingId) :
    page.Proceeds (page.obey verb key) := by
  cases verb with
  | start => exact .start page key
  | mount => exact .mount page key
  | unmount => exact .unmount page key
  | destroy => exact .destroy page key

theorem tell (page : Page) (audience : Audience) (value : Bool) :
    page.Proceeds (page.tell audience value) := by
  cases audience with
  | binding key => exact .push page (by simp [Call.isOrdinary])
  | host => exact .record page _

theorem hear (page : Page) (listener : Listener) (value : Bool) :
    page.Proceeds (page.hear listener value) := by
  cases listener with
  | host subscription script =>
      exact (record page _).trans (.push _ (by simp [Call.isOrdinary]))
  | watch watch =>
      simp only [Page.hear]
      split
      · exact .refl page
      · split
        · exact .refl page
        · exact (push page (by simp [Call.isOrdinary])).trans (.tell _ _ _)

theorem deliver (page : Page) (monitors : List MonitorId) :
    page.Proceeds (page.deliver monitors) := by
  cases monitors with
  | nil => exact .refl page
  | cons monitor rest =>
      have waiting : page.Proceeds (page.push [.deliver rest]) :=
        .push page (by simp [Call.isOrdinary])
      simp only [Page.deliver]
      split
      · exact waiting
      · exact (waiting.trans (.push _ (by simp [Call.isOrdinary]))).trans (.hear _ _ _)

/-- Carrying on with a call of a binding, an import apart, leaves all else alone. -/
theorem carryOn
    {call : Call}
    (own : call.isOf key)
    (settled : ∀ attempt, call ≠ .launch key attempt) :
    page.Proceeds (page.carryOn call) := by
  have worked (works : call.works) : page.Proceeds (page.carryOn call) := by
    obtain ⟨_, _, works⟩ := Works.carryOn page own works
    exact .of_works works
  cases call with
  | request | script | deliver | pin | hydrate | destroyEach | drive => cases own
  | launch other attempt =>
      obtain rfl : other = key := of_decide_eq_true own
      exact (settled attempt rfl).elim
  | remount other => exact .remount page other
  | retire other => exact .retire page other
  | bury other => exact .bury page other
  | notice | arrive | construct | settle | teardown | dismantle | vacated => exact worked rfl

end Proceeds

end Page

end Hydration
