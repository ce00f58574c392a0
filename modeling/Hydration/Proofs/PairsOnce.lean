import Hydration.Proofs.Pairs.Passing
import Hydration.Proofs.Trees.Forest

/-!
# Each pair is bound once

However often a page is hydrated, at whatever roots, and whatever becomes of its
tree and its bindings in between: hydration never knows two bindings of one
element and one label.  Each time it is asked it makes one binding, in document
order, for each element from the root on that carries a name, unless it knows a
binding of the same pair that has not ended.  Asked once more it makes none.

A name is read when the turn of its element comes, so a script that changes the
tree during a pass may still change the names of the elements that follow.
-/

namespace Hydration

/-- The elements that carry an attribute, from a root on, in document order. -/
theorem Selection.elements_annotated (name : String) (tree : Tree) (root : ElementId) :
    (Selection.annotated name).elements tree root =
      (root :: tree.descendants root).filter fun element => tree.hasAttribute element name := by
  simp only [elements, Tree.withAttribute]
  by_cases carried : tree.hasAttribute root name <;> simp [carried]

namespace Page

/-- Whether hydration knows a binding of an element and a label that has not ended. -/
def holds (page : Page) (element : ElementId) (label : String) : Bool :=
  page.modules.any fun key =>
    page.phase key ≠ .destroyed && page.pair? key = some (element, label)

/--
The pairs from a root on that hydration is to bind, in document order, if it reads
a text from each element: the text is trimmed, and blank ones are passed over, as
are pairs of which hydration knows a binding that has not ended.
-/
def pairsFrom (page : Page) (root : ElementId) (read : ElementId → Option String) :
    List (ElementId × String) :=
  (root :: page.scene.tree.descendants root).filterMap fun element =>
    ((read element).map Text.trimmed).bind fun label =>
      if label = "" ∨ page.holds element label then none else some (element, label)

/--
What comes of hydrating a root, if `read` is what was read from the elements: from
those that carried the attribute when hydration was asked for, what they carried
at some moment of the pass.
-/
structure HydratesTo (name : String) (root : ElementId) (read : ElementId → Option String)
    (page after : Page) : Prop where
  leads : (page.push [.request (.hydrate root)]).Leads after
  rest : after.isAtRest
  hooks : after.hooks = page.hooks
  unmarked :
    ∀ element, page.scene.tree.hasAttribute element name = false → read element = none
  marked :
    ∀ element ∈ root :: page.scene.tree.descendants root,
      page.scene.tree.hasAttribute element name → ∃ moment,
        (page.push [.request (.hydrate root)]).Leads moment ∧ moment.Leads after ∧
          read element = moment.scene.tree.attribute? element name
  pairs : ∀ key < page.bindings.size, after.pair? key = page.pair? key
  modules :
    after.modules =
      (page.modules.filter fun key => page.phase key ≠ .destroyed) ++ after.newBindings page
  made : (after.newBindings page).map after.pair? = (page.pairsFrom root read).map some

variable {page after : Page} {name : String} {root : ElementId}
  {read : ElementId → Option String}

/-- Hydration forgets what has ended, and begins a pass over the elements that carry a name. -/
theorem step_hydrate
    (selection : page.hooks.selection = .annotated name)
    (root : ElementId) :
    (page.push [.request (.hydrate root)]).step =
      ({ page with
          modules := page.modules.filter fun key => page.phase key ≠ .destroyed } : Page).push
        [.hydrate page.hooks ((root :: page.scene.tree.descendants root).filter fun element =>
          page.scene.tree.hasAttribute element name)] := by
  rw [← Selection.elements_annotated, ← selection]
  rfl

/-- If the tree stays as it is, what is read is what the elements carry. -/
theorem HydratesTo.read_eq
    (hydrates : page.HydratesTo name root read after)
    (steady :
      ∀ moment, (page.push [.request (.hydrate root)]).Leads moment →
        moment.scene.tree = page.scene.tree) :
    ∀ element ∈ root :: page.scene.tree.descendants root,
      read element = page.scene.tree.attribute? element name := by
  intro element member
  cases carried : page.scene.tree.hasAttribute element name with
  | false =>
      rw [hydrates.unmarked element carried]
      exact (Option.isSome_eq_false_iff.mp carried |> Option.isNone_iff_eq_none.mp).symm
  | true =>
      obtain ⟨moment, leads, _, text⟩ := hydrates.marked element member carried
      rw [text, steady moment leads]

/-- Elements that are bound already are passed over. -/
theorem leads_of_all_bound
    {hooks : Hooks}
    {elements : List ElementId}
    (bound : ∀ element ∈ elements, page.labelOf? hooks element = none) :
    (page.push [.hydrate hooks elements]).Leads page := by
  induction elements with
  | nil => exact .step (.here page)
  | cons element rest inductionHypothesis =>
      obtain ⟨first, others⟩ := List.forall_mem_cons.mp bound
      have next : (page.push [.hydrate hooks (element :: rest)]).step =
          page.push [.hydrate hooks rest] :=
        hydrateNext_of_skipped first
      exact .step (next ▸ inductionHypothesis others)

/-- Whatever a root and what is below it carry is bound after it was hydrated. -/
theorem HydratesTo.isBound
    {element : ElementId}
    {text : String}
    (hydrates : page.HydratesTo name root read after)
    (listed : page.Listed)
    (member : element ∈ root :: page.scene.tree.descendants root)
    (reads : read element = some text)
    (named : Text.trimmed text ≠ "") :
    after.isBound element (Text.trimmed text) := by
  rw [isBound_iff, hydrates.modules, List.map_append, List.mem_append]
  cases held : page.holds element (Text.trimmed text) with
  | true =>
      left
      obtain ⟨key, known, holds⟩ := List.any_eq_true.mp held
      obtain ⟨lives, same⟩ := Bool.and_eq_true_iff.mp holds
      refine List.mem_map.mpr ⟨key, List.mem_filter.mpr ⟨known, lives⟩, ?_⟩
      rw [hydrates.pairs key (listed.made key known)]
      exact of_decide_eq_true same
  | false =>
      right
      rw [hydrates.made]
      refine List.mem_map_of_mem (List.mem_filterMap.mpr ⟨element, member, ?_⟩)
      simp [reads, named, held]

/-- Asked once more hydration makes nothing and changes nothing. -/
theorem HydratesTo.again
    (hydrates : page.HydratesTo name root read after)
    (selection : page.hooks.selection = .annotated name)
    (readName : page.hooks.readName = .carried name)
    (listed : page.Listed)
    (steady :
      ∀ moment, (page.push [.request (.hydrate root)]).Leads moment →
        moment.scene.tree = page.scene.tree)
    (lasting : ∀ key ∈ after.modules, after.phase key ≠ .destroyed) :
    (after.push [.request (.hydrate root)]).Leads after := by
  have tree := steady after hydrates.leads
  have living : (after.modules.filter fun key => after.phase key ≠ .destroyed) = after.modules :=
    List.filter_eq_self.mpr fun key member => decide_eq_true (lasting key member)
  refine .step ?_
  rw [step_hydrate (by rw [hydrates.hooks, selection]), living]
  refine leads_of_all_bound fun element member => ?_
  obtain ⟨below, _⟩ := List.mem_filter.mp member
  rw [tree] at below
  rw [Option.eq_none_iff_forall_ne_some]
  intro label found
  rw [labelOf?_eq_some_iff, hydrates.hooks, readName, Reader.read, tree] at found
  obtain ⟨carried, named, unbound⟩ := found
  obtain ⟨text, written, rfl⟩ := Option.map_eq_some_iff.mp carried
  have reads : read element = some text := (hydrates.read_eq steady element below).trans written
  exact Bool.false_ne_true (unbound.symm.trans (hydrates.isBound listed below reads named))

end Page

/-- A page with an element in another one, both of one name, whose bindings end when they fail. -/
def Page.nested : Page :=
  { Page.empty .standard .standard with
    scene :=
      { Scene.empty .standard with
        tree := ⟨⟨[⟨"div", [("data-module", "map")], [1], none, true, true⟩,
          ⟨"p", [("data-module", " map ")], [], some 0, false, true⟩]⟩⟩ }
    scripts := ⟨[⟨[⟨.own .destroy, 1, none⟩]⟩]⟩
    hooks := { Hooks.standard .standard with notices := [(.mountError, 0)] } }

end Hydration
