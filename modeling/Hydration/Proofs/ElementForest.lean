import Hydration.Proofs.Trees.Editing
import Hydration.Proofs.Trees.Positions

/-!
# Trees that edits have made

Whatever elements were made, appended, moved and let go: each one is listed once by
the parent that it knows and by no other element, an appended element goes to the
end of its new siblings and leaves all others where they are, and the elements below
another one are found once each, in document order.
-/

namespace Hydration

namespace Tree

variable {tree : Tree} {element parent child : ElementId}

/-- An element is listed once by the parent that it knows, and by no other one. -/
theorem IsTied.count_children (tied : tree.IsTied []) (parent child : ElementId) :
    (tree.children parent).count child = if tree.parent? child = some parent then 1 else 0 := by
  split
  · next known =>
      exact List.count_eq_one_of_mem (tied.nodup parent) (tied.listed parent child known)
  · next apart =>
      exact List.count_eq_zero.mpr fun listed => apart (tied.parent parent child listed)

/-- The elements below another one that carry an attribute. -/
theorem IsForest.mem_withAttribute (forest : tree.IsForest) (root : ElementId) (name : String) :
    element ∈ tree.withAttribute root name ↔
      tree.Below root element ∧ tree.hasAttribute element name = true := by
  rw [withAttribute, List.mem_filter, forest.mem_descendants]

/--
Elements are made, appended where that makes no cycle, given attributes, held and let
go, in any order.  Each element occurs among the children of its parent once, and
among those of no other element.  Another one that is appended to a parent becomes
its last child, also if it was a child of it before, and is a child of no other
element; all other children stay in their order and all other parents as they are.
Asking for an attribute finds each element below the root that carries it once, in
document order, and no other element.
-/
theorem built_tree_is_forest (built : tree.IsBuilt) :
    (∀ parent child, tree.isAlive parent = true → tree.isAlive child = true →
      (tree.children parent).count child =
        if tree.parent? child = some parent then 1 else 0) ∧
      (∀ parent child, tree.Allows (.append parent child) →
        let appended := tree.append parent child
        (∀ element, appended.children element =
          if element = parent then (tree.children element).filter (· ≠ child) ++ [child]
          else (tree.children element).filter (· ≠ child)) ∧
        ∀ element, appended.parent? element =
          if element = child then some parent else tree.parent? element) ∧
      ∀ root name,
        (tree.withAttribute root name).Nodup ∧
        (tree.withAttribute root name).Pairwise (tree.Precedes root) ∧
        ∀ element, element ∈ tree.withAttribute root name ↔
          tree.Below root element ∧ tree.hasAttribute element name = true := by
  have tied := built.isTied
  refine ⟨fun parent child _ _ => tied.count_children parent child, ?_, fun root name => ?_⟩
  · rintro parent child ⟨alive, aliveToo, _, _⟩
    exact ⟨children_append tied.toIsForest alive child, parent?_append aliveToo parent⟩
  · have nodup := (tied.nodup_descendants root).filter (tree.hasAttribute · name)
    have ordered := (tied.pairwise_descendants root).filter (tree.hasAttribute · name)
    exact ⟨nodup, ordered, fun _ => tied.mem_withAttribute root name⟩

/-- Two elements with an attribute and a third to append them to. -/
def marked : Tree :=
  empty.edit (.create "main") |>.edit (.create "p") |>.edit (.create "span")
    |>.edit (.setAttribute 1 "data-module" "first")
    |>.edit (.setAttribute 2 "data-module" "second")

/-- Both are appended, the first of them once more, and it is let go. -/
def reordered : Tree :=
  marked.edit (.append 0 1) |>.edit (.append 0 2) |>.edit (.append 0 1) |>.edit (.release 1)

theorem isBuilt_reordered : reordered.IsBuilt := by
  have made : marked.IsBuilt :=
    .edit (.edit (.edit (.edit (.edit .empty trivial) trivial) trivial) trivial) trivial
  have once := made.edit (made.allows_append 0 1 (by decide) (by decide) (by decide))
  have both := once.edit (once.allows_append 0 2 (by decide) (by decide) (by decide))
  have again := both.edit (both.allows_append 0 1 (by decide) (by decide) (by decide))
  exact again.edit trivial

/-- The element that was appended again is the last one now, and still listed once. -/
theorem reordered_is_forest :
    reordered.IsBuilt ∧ reordered.withAttribute 0 "data-module" = [2, 1] ∧
      (reordered.children 0).count 1 = 1 ∧ reordered.Precedes 0 2 1 := by
  obtain ⟨listed, _, asked⟩ := built_tree_is_forest isBuilt_reordered
  have found : reordered.withAttribute 0 "data-module" = [2, 1] := by decide
  have ordered := (asked 0 "data-module").2.1
  rw [found] at ordered
  refine ⟨isBuilt_reordered, found, ?_, ?_⟩
  · rw [listed 0 1 (by decide) (by decide)]
    decide
  · exact List.rel_of_pairwise_cons ordered (List.mem_singleton.mpr rfl)

end Tree

end Hydration
