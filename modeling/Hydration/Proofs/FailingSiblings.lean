import Hydration.Proofs.ContextConvergence
import Hydration.Proofs.Siblings.Rejecting
import Hydration.Proofs.Siblings.Returning

/-!
# Failing elements do not disturb their siblings

A page is hydrated twice, on trees that agree on all elements but some extra ones
whose context is malformed, names an unknown monitor or carries an invalid query.
Whatever viewports, visible elements and imports come afterwards, the bindings of
the other elements go through the same life on both pages.  The extra elements are
bound in their places, each reports that its context is amiss, and that is all.

An extra element may have made monitors for the conditions that stand before the
one that is amiss.  They have keys of their own and are listed with the others, so
the monitors of the other elements have other keys than on the page without them.
-/

namespace Hydration

/-- Nothing stands for anything. -/
def Links.none : Links := ⟨fun _ _ => False, fun _ _ => False⟩

/-- Scenes on which nobody watches anything are alike if only their trees differ. -/
theorem Scene.Alike.of_empty
    (isExtra : ElementId → Bool)
    (tree more : Tree)
    (hooks : Hooks)
    (viewport : Viewport) :
    Scene.Alike ⟨isExtra, tree, more, hooks⟩ .none { Scene.empty viewport with tree }
      { Scene.empty viewport with tree := more } := by
  have tidy (tree : Tree) : ({ Scene.empty viewport with tree } : Scene).Tidy :=
    ⟨List.nodup_nil, fun element key member => by cases member⟩
  have unkept (tree : Tree) (key : MonitorId) :
      ({ Scene.empty viewport with tree } : Scene).keeps key = false :=
    rfl
  exact {
    plainTree := rfl
    mixedTree := rfl
    viewport := rfl
    seen := fun _ => rfl
    plainUnheld := rfl
    mixedUnheld := rfl
    plainTidy := tidy tree
    mixedTidy := tidy more
    ordered := fun _ _ _ _ none => none.elim
    monitors := fun _ _ none => none.elim
    plainKept := fun key => by simp [unkept, Links.none]
    mixedKept := fun key => by simp [unkept, Links.none]
    watches := fun watch => .none
    watchers := fun element => .nil }

namespace Page

/-- A page that hydrates another tree. -/
def onTree (page : Page) (tree : Tree) : Page :=
  { page with scene := { page.scene with tree } }

/-- The trees of a page that is hydrated twice. -/
def contrast (page : Page) (isExtra : ElementId → Bool) (mixed : Tree) : Contrast :=
  ⟨isExtra, page.scene.tree, mixed, page.hooks⟩

/-- What becomes of a page if requests are made in turn, each once the page is at rest. -/
inductive Performs : List Request → Page → Page → Prop where
  | done (page : Page) : Performs [] page page
  | next
      {request : Request}
      {requests : List Request}
      {page middle after : Page}
      (leads : (page.push [.request request]).Leads middle)
      (rest : middle.isAtRest)
      (later : Performs requests middle after) :
      Performs (request :: requests) page after

/-- What becomes of a page that hydrates a root, and then of requests that are made in turn. -/
structure HydratesThen (root : ElementId) (requests : List Request) (page bound after : Page) :
    Prop where
  hydrates : page.Performs [.hydrate root] bound
  performs : bound.Performs requests after

/-- Bindings of elements that are not extra, in order. -/
def originals (page : Page) (contrast : Contrast) (keys : List BindingId) : List BindingId :=
  keys.filter fun key => !page.isExtra contrast key

/-- Whether a binding and one of another page are alike, and so is all that happened to them. -/
structure LivesAs (page other : Page) (key twin : BindingId) : Prop where
  made : (page.binding? key).isSome
  binding : other.binding? twin = page.binding? key
  matching : other.matchesContext twin = page.matchesContext key
  story : other.story twin = (page.story key).map (Event.retell twin)

variable {page after : Page} {contrast : Contrast} {links : Links} {plain mixed : Page}
  {requests : List Request} {key : BindingId}

theorem isExtra_eq (page : Page) (contrast : Contrast) (key : BindingId) :
    page.isExtra contrast key =
      (page.bond? key).any fun bond => contrast.isExtra bond.element := by
  unfold isExtra bond?
  cases page.binding? key <;> rfl

/-- Mild requests make no bindings. -/
theorem Performs.remains
    {isExtra : ElementId → Bool}
    (performs : page.Performs requests after)
    (rest : page.isAtRest)
    (tame : page.IsTame)
    (mild : ∀ request ∈ requests, request.isMild isExtra) :
    page.Remains after := by
  induction performs with
  | done page => exact .refl page
  | @next request requests page middle after leads done _ inductionHypothesis =>
      obtain ⟨first, others⟩ := List.forall_mem_cons.mp mild
      have gentle : request.isTame := by
        cases request <;> first | rfl | cases first
      have asked : (page.push [.request request]).stack = [.request request] ++ [] := by
        simp [push, stack_of_rest rest]
      have still : (page.push [.request request]).IsTame := tame
      obtain ⟨settled, reached, stack, remains⟩ :=
        settles_tame still asked (by simpa [Call.isTame])
      obtain rfl := leads.unique reached done (by simp [isAtRest, stack])
      have begun : page.Remains { page.push [.request request] with stack := [] } :=
        .of_eq rfl rfl rfl rfl (stack_of_rest rest).symm
      have earlier := begun.trans remains
      exact earlier.trans (inductionHypothesis done (earlier.scripts tame) others)

namespace Parallel

theorem isAtRest (parallel : plain.Parallel contrast links mixed) (rest : plain.isAtRest) :
    mixed.isAtRest := by
  have matching := parallel.stack
  rw [stack_of_rest rest, List.forall₂_nil_left_iff] at matching
  simp [Page.isAtRest, matching]

/-- A page comes to rest, and so does one that runs in parallel to it. -/
theorem comes_to_rest (parallel : plain.Parallel contrast links mixed) :
    ∃ more after afterTwin, plain.Leads after ∧ mixed.Leads afterTwin ∧ after.isAtRest ∧
      after.Parallel contrast more afterTwin := by
  obtain ⟨after, leads, rest⟩ := exists_rest plain
  obtain ⟨more, afterTwin, leadsTwin, followed⟩ := parallel.follows leads
  exact ⟨more, after, afterTwin, leads, leadsTwin, rest, followed⟩

/-- Mild requests find pages in parallel and leave them so. -/
theorem performs
    (parallel : plain.Parallel contrast links mixed)
    (mild : ∀ request ∈ requests, request.isMild contrast.isExtra) :
    ∃ more after afterTwin, plain.Performs requests after ∧ mixed.Performs requests afterTwin ∧
      after.Parallel contrast more afterTwin := by
  induction requests generalizing links plain mixed with
  | nil => exact ⟨links, plain, mixed, .done plain, .done mixed, parallel⟩
  | cons request requests inductionHypothesis =>
      obtain ⟨first, others⟩ := List.forall_mem_cons.mp mild
      obtain ⟨_, middle, middleTwin, leads, leadsTwin, rest, reached⟩ :=
        (parallel.push (.cons (.asked first) .nil)).comes_to_rest
      obtain ⟨more, after, afterTwin, performs, performsTwin, followed⟩ :=
        inductionHypothesis reached others
      exact ⟨more, after, afterTwin, .next leads rest performs,
        .next leadsTwin (reached.isAtRest rest) performsTwin, followed⟩

/-- Bindings that stand for each other live alike. -/
theorem livesAs
    {key twin : BindingId}
    (parallel : plain.Parallel contrast links mixed)
    (pair : links.bindings key twin) :
    plain.LivesAs mixed key twin := by
  obtain ⟨binding, found, foundTwin, _⟩ := parallel.twins key twin pair
  exact ⟨by simp [found], foundTwin.trans found.symm, parallel.matchesContext_eq pair,
    parallel.stories key twin pair⟩

/-- A binding of an extra element stands for none. -/
theorem rejects_of_isExtra
    {twin : BindingId}
    (parallel : plain.Parallel contrast links mixed)
    (extra : mixed.isExtra contrast twin) :
    mixed.Rejects twin := by
  have known : twin < mixed.bindings.size := by
    cases found : mixed.binding? twin with
    | none => simp [Page.isExtra, found] at extra
    | some binding => exact Table.lt_size_of_found found
  refine (parallel.others twin known fun key pair => ?_).2
  obtain ⟨binding, _, found, spared, _⟩ := parallel.twins key twin pair
  simp [Page.isExtra, found, spared] at extra

/-- The bindings of elements that are not extra stand for those of the other page, in order. -/
theorem forall₂_originals (parallel : plain.Parallel contrast links mixed) :
    List.Forall₂ links.bindings (List.range plain.bindings.size)
      (mixed.originals contrast (List.range mixed.bindings.size)) := by
  refine parallel.ordered.forall₂ List.pairwise_lt_range
    (List.pairwise_lt_range.sublist List.filter_sublist) (fun key member => ?_)
    fun twin member => ?_
  · obtain ⟨twin, pair⟩ := parallel.covered key (List.mem_range.mp member)
    obtain ⟨binding, _, found, spared, _⟩ := parallel.twins key twin pair
    refine ⟨twin, List.mem_filter.mpr ⟨?_, ?_⟩, pair⟩
    · exact List.mem_range.mpr (parallel.mixedKnown pair)
    · simp [Page.isExtra, found, spared]
  · obtain ⟨known, original⟩ := List.mem_filter.mp member
    by_contra unlinked
    have extra := (parallel.others twin (List.mem_range.mp known) fun key pair =>
      unlinked ⟨key, List.mem_range.mpr (parallel.plainKnown pair), pair⟩).1
    simp [extra] at original

/-- Two pages on which nothing has happened are parallel. -/
theorem of_begins
    {isExtra : ElementId → Bool}
    {more : Tree}
    (begins : page.Begins)
    (bare : page.IsBare)
    (unbound : page.modules = [])
    (idle : page.HasIdleScripts)
    (fair : (page.contrast isExtra more).IsFair) :
    page.Parallel (page.contrast isExtra more) .none (page.onTree more) := by
  have silent (key : BindingId) : page.story key = [] := by
    simp [story, begins.history]
  have alike : page.scene.Alike (page.contrast isExtra more) .none (page.onTree more).scene := by
    obtain ⟨tree, viewport, scene⟩ := bare.scene
    simp only [contrast, onTree, scene]
    exact .of_empty isExtra tree more page.hooks viewport
  exact {
    fair
    registry := rfl
    catalog := rfl
    constructors := rfl
    instances := rfl
    scripts := rfl
    idle
    scene := alike
    executor := .of_unfinished begins.unfinished
    stack := by simp [onTree, begins.rest]
    ordered := fun _ _ _ _ none => none.elim
    twins := fun _ _ none => none.elim
    covered := fun key known => by simp [bare.bindings, Table.size, Table.empty] at known
    stories := fun _ _ none => none.elim
    plainSilent := fun key _ => silent key
    mixedSilent := fun key _ => silent key
    others := fun key known => by simp [onTree, bare.bindings, Table.size, Table.empty] at known
    plainModules := by simp [unbound, bare.bindings, Table.size, Table.empty]
    mixedModules := by simp [onTree, unbound, bare.bindings, Table.size, Table.empty] }

end Parallel

/-- A page without bindings begins to bind the elements that a root stands for. -/
theorem performs_hydrate
    {root : ElementId}
    (unbound : page.modules = [])
    (leads :
      (page.push
        [.hydrate page.hooks (page.hooks.selection.elements page.scene.tree root)]).Leads after)
    (rest : after.isAtRest) :
    page.Performs [.hydrate root] after := by
  have next : (page.push [.request (.hydrate root)]).step =
      page.push [.hydrate page.hooks (page.hooks.selection.elements page.scene.tree root)] := by
    cases page
    cases unbound
    rfl
  exact .next (.step (next ▸ leads)) rest (.done after)

/--
Hydrating a page with or without extra elements whose context is amiss, and asking
the same of it afterwards, comes to the same for the bindings of all other elements:
they are alike and all that happened to them was.  The bindings of all selected
elements that carry a name are returned in order, and all that ever happens to those
of extra elements is one report that their context is amiss.
-/
theorem siblings_undisturbed
    {root : ElementId}
    {isExtra : ElementId → Bool}
    {more : Tree}
    (begins : page.Begins)
    (bare : page.IsBare)
    (unbound : page.modules = [])
    (idle : page.HasIdleScripts)
    (fair : (page.contrast isExtra more).IsFair)
    (selected :
      (page.contrast isExtra more).originals (page.hooks.selection.elements more root) =
        page.hooks.selection.elements page.scene.tree root)
    (mild : ∀ request ∈ requests, request.isMild isExtra) :
    let contrast := page.contrast isExtra more
    let mixed := page.onTree more
    ∃ bound after boundMixed afterMixed,
      page.HydratesThen root requests bound after ∧
        mixed.HydratesThen root requests boundMixed afterMixed ∧
        List.Forall₂ (after.LivesAs afterMixed) (bound.newBindings page)
          (boundMixed.originals contrast (boundMixed.newBindings mixed)) ∧
        (boundMixed.newBindings mixed).map boundMixed.pair? =
          (page.hooks.pairs more (page.hooks.selection.elements more root)).eraseDups.map some ∧
        ∀ key, boundMixed.isExtra contrast key →
          boundMixed.Rejects key ∧ afterMixed.Rejects key := by
  intro contrast mixed
  let elements := page.hooks.selection.elements more root
  -- One page passes over all elements, the other one over those that are not extra.
  have begun : (page.push [.hydrate page.hooks (contrast.originals elements)]).Parallel contrast
      .none (mixed.push [.hydrate page.hooks elements]) :=
    (Parallel.of_begins begins bare unbound idle fair).push (.cons (.hydrate elements) .nil)
  obtain ⟨_, bound, boundMixed, leads, leadsMixed, rest, reached⟩ := begun.comes_to_rest
  obtain ⟨_, after, afterMixed, performs, performsMixed, followed⟩ := reached.performs mild
  have restMixed := reached.isAtRest rest
  have idleMixed : boundMixed.HasIdleScripts := by
    rw [HasIdleScripts, reached.scripts]
    exact reached.idle
  have remains := performs.remains rest reached.idle.isTame mild
  have remainsMixed := performsMixed.remains restMixed idleMixed.isTame mild
  have extraStill (key : BindingId) :
      afterMixed.isExtra contrast key = boundMixed.isExtra contrast key := by
    rw [isExtra_eq, isExtra_eq, remainsMixed.bond]
  have news : bound.newBindings page = List.range after.bindings.size := by
    rw [newBindings, bare.bindings, remains.size]
    rfl
  have unboundMixed : mixed.modules = [] := unbound
  have newsMixed : boundMixed.newBindings mixed = List.range boundMixed.bindings.size := by
    have none : mixed.bindings = Table.empty := bare.bindings
    rw [newBindings, none]
    rfl
  refine ⟨bound, after, boundMixed, afterMixed, ⟨?_, performs⟩, ⟨?_, performsMixed⟩, ?_, ?_, ?_⟩
  · rw [selected] at leads
    exact performs_hydrate unbound leads rest
  · exact performs_hydrate unboundMixed leadsMixed restMixed
  · have pairs := followed.forall₂_originals
    have same : boundMixed.originals contrast (boundMixed.newBindings mixed) =
        afterMixed.originals contrast (List.range afterMixed.bindings.size) := by
      simp only [originals, newsMixed, remainsMixed.size, extraStill]
    rw [news, same]
    exact pairs.imp fun key twin pair => followed.livesAs pair
  · rw [newsMixed, ← reached.mixedModules]
    have still : mixed.HasIdleScripts := idle
    exact returns_pairs still begins.rest unboundMixed leadsMixed restMixed
  · intro key extra
    exact ⟨reached.rejects_of_isExtra extra,
      followed.rejects_of_isExtra ((extraStill key).trans extra)⟩

/-- A page with two elements, of which only the second one is below the root. -/
def crowded : Page :=
  let hooks := { Hooks.standard .standard with factories := Factories.empty.install }
  { Page.lone hooks ⟨"Lone", none, true, none, 0, 0, 0⟩ [] with
    hooks
    bindings := Table.empty
    scene :=
      { Scene.empty .standard with
        tree := ⟨⟨[⟨"div", [], [2], none, true, true⟩,
          ⟨"p", [("data-context", "@visible and @bogus"), ("data-module", "lone")], [], none, true,
            true⟩,
          ⟨"p", [("data-context", "@visible"), ("data-module", "lone")], [], some 0, false,
            true⟩]⟩⟩ } }

/-- The elements of the page once both are below the root. -/
def crowd : Tree :=
  ⟨⟨[⟨"div", [], [1, 2], none, true, true⟩,
    ⟨"p", [("data-context", "@visible and @bogus"), ("data-module", "lone")], [], some 0, true,
      true⟩,
    ⟨"p", [("data-context", "@visible"), ("data-module", "lone")], [], some 0, false, true⟩]⟩⟩

theorem begins_crowded : Page.crowded.Begins :=
  ⟨rfl, rfl, fun _ member => (by cases member), rfl⟩

theorem hasIdleScripts_crowded : Page.crowded.HasIdleScripts := by
  intro script member
  rw [List.mem_singleton.mp member]

theorem isBare_crowded : Page.crowded.IsBare := by
  refine ⟨⟨_, .standard, rfl⟩, rfl, fun script member action inside => ?_⟩
  rw [hasIdleScripts_crowded script member] at inside
  cases inside

theorem isFair_crowded : (Page.crowded.contrast (· == 1) crowd).IsFair := by
  refine ⟨.install, fun element _ name => ?_, fun element extra => ?_⟩
  · match element with
    | 0 | 1 | 2 | _ + 3 => rfl
  · obtain rfl : element = 1 := by simpa [contrast] using extra
    have read : Context.parseWith "@visible and @bogus" "media" =
        .ok ⟨[⟨"visible", ""⟩, ⟨"bogus", ""⟩]⟩ := by
      decide +kernel
    change Factories.Refuses _ _ (Context.parseWith "@visible and @bogus" "media")
    rw [read]
    exact ⟨⟨"bogus", ""⟩, by simp, rfl⟩

/-- An element of a kind of monitor that nobody knows stands before one that is shown later. -/
theorem siblings_undisturbed_crowded :
    let contrast := Page.crowded.contrast (· == 1) crowd
    let mixed := Page.crowded.onTree crowd
    let requests := [.reveal 2 true, .drive .page, .resize .standard]
    ∃ bound after boundMixed afterMixed,
      Page.crowded.HydratesThen 0 requests bound after ∧
        mixed.HydratesThen 0 requests boundMixed afterMixed ∧
        List.Forall₂ (after.LivesAs afterMixed) (bound.newBindings Page.crowded)
          (boundMixed.originals contrast (boundMixed.newBindings mixed)) ∧
        (boundMixed.newBindings mixed).map boundMixed.pair? =
          [some (1, "lone"), some (2, "lone")] ∧
        ∀ key, boundMixed.isExtra contrast key →
          boundMixed.Rejects key ∧ afterMixed.Rejects key := by
  intro contrast mixed requests
  have selected :
      (Page.crowded.contrast (· == 1) crowd).originals
          (Page.crowded.hooks.selection.elements crowd 0) =
        Page.crowded.hooks.selection.elements Page.crowded.scene.tree 0 := by
    decide +kernel
  have mild : ∀ request ∈ requests, request.isMild (· == 1) := by
    simp [requests, Request.isMild]
  have pairs :
      ((Page.crowded.hooks.pairs crowd
        (Page.crowded.hooks.selection.elements crowd 0)).eraseDups.map some) =
        [some (1, "lone"), some (2, "lone")] := by
    decide +kernel
  rw [← pairs]
  exact siblings_undisturbed begins_crowded isBare_crowded rfl hasIdleScripts_crowded
    isFair_crowded selected mild

end Page

end Hydration
