import Hydration.Proofs.Trees.Forest

/-!
# Positions in a forest

What is below an element stands at a position: which child of it leads there,
which child of that one, and so on.  Document order is the lexicographic order of
positions.  In a forest an element stands at one position only, and what is below
an element is listed in document order.
-/

namespace Hydration

namespace Tree

/-- The element at a position below another one, which itself is at the empty position. -/
def at? (tree : Tree) : ElementId → List Nat → Option ElementId
  | root, [] => some root
  | root, index :: rest => ((tree.children root)[index]?).bind fun child => tree.at? child rest

/-- An element comes before another one in document order, as seen from above both. -/
def Precedes (tree : Tree) (root first second : ElementId) : Prop :=
  ∃ position later,
    tree.at? root position = some first ∧ tree.at? root later = some second ∧ position < later

variable {tree : Tree} {root element first second child : ElementId}
variable {index : Nat} {position later rest : List Nat}

theorem at?_cons_eq_some_iff :
    tree.at? root (index :: rest) = some element ↔
      ∃ child, (tree.children root)[index]? = some child ∧ tree.at? child rest = some element :=
  Option.bind_eq_some_iff

/-- What is below an element is at a position that is not empty. -/
theorem below_iff_at? :
    tree.Below root element ↔
      ∃ index rest, tree.at? root (index :: rest) = some element := by
  constructor
  · intro below
    induction below using Relation.TransGen.head_induction_on with
    | single listed =>
        obtain ⟨index, found⟩ := List.mem_iff_getElem?.mp listed
        exact ⟨index, [], at?_cons_eq_some_iff.mpr ⟨element, found, rfl⟩⟩
    | head listed _ inductionHypothesis =>
        obtain ⟨next, rest, there⟩ := inductionHypothesis
        obtain ⟨index, found⟩ := List.mem_iff_getElem?.mp listed
        exact ⟨index, next :: rest, at?_cons_eq_some_iff.mpr ⟨_, found, there⟩⟩
  · rintro ⟨index, rest, there⟩
    induction rest generalizing root index with
    | nil =>
        obtain ⟨child, found, same⟩ := at?_cons_eq_some_iff.mp there
        cases same
        exact .single (List.mem_of_getElem? found)
    | cons next rest inductionHypothesis =>
        obtain ⟨child, found, onward⟩ := at?_cons_eq_some_iff.mp there
        exact .head (List.mem_of_getElem? found) (inductionHypothesis _ onward)

namespace IsForest

/-- An element and what is below it are at the positions below it. -/
theorem mem_subtree_iff (forest : tree.IsForest) :
    element ∈ root :: tree.descendants root ↔
      ∃ position, tree.at? root position = some element := by
  rw [List.mem_cons, forest.mem_descendants, below_iff_at?]
  constructor
  · rintro (rfl | ⟨index, rest, there⟩)
    · exact ⟨[], rfl⟩
    · exact ⟨index :: rest, there⟩
  · rintro ⟨_ | ⟨index, rest⟩, there⟩
    · exact .inl (Option.some.inj there).symm
    · exact .inr ⟨index, rest, there⟩

/-- No element is at two positions. -/
theorem at?_inj
    (forest : tree.IsForest)
    (there : tree.at? root position = some element)
    (too : tree.at? root later = some element) :
    position = later := by
  induction position generalizing root later with
  | nil =>
      cases there
      cases later with
      | nil => rfl
      | cons index rest => exact (forest.acyclic _ (below_iff_at?.mpr ⟨index, rest, too⟩)).elim
  | cons index rest inductionHypothesis =>
      cases later with
      | nil =>
          cases too
          exact (forest.acyclic _ (below_iff_at?.mpr ⟨index, rest, there⟩)).elim
      | cons other more =>
          obtain ⟨child, found, inChild⟩ := at?_cons_eq_some_iff.mp there
          obtain ⟨sibling, foundToo, inSibling⟩ := at?_cons_eq_some_iff.mp too
          -- Nothing is below two children of one element.
          obtain rfl : child = sibling := by
            by_contra different
            exact forest.disjoint_siblings (List.mem_of_getElem? found)
              (List.mem_of_getElem? foundToo) different
              (forest.mem_subtree_iff.mpr ⟨rest, inChild⟩)
              (forest.mem_subtree_iff.mpr ⟨more, inSibling⟩)
          obtain rfl : index = other :=
            (List.getElem?_inj (List.getElem?_eq_some_iff.mp found).1 (forest.nodup root)).mp
              (found.trans foundToo.symm)
          rw [inductionHypothesis inChild inSibling]

/-- Of two elements only one comes before the other. -/
theorem precedes_asymm
    (forest : tree.IsForest)
    (precedes : tree.Precedes root first second) :
    ¬ tree.Precedes root second first := by
  obtain ⟨position, later, there, thereToo, before⟩ := precedes
  rintro ⟨other, more, isSecond, isFirst, after⟩
  rw [forest.at?_inj thereToo isSecond, forest.at?_inj there isFirst] at before
  exact List.lt_asymm before after

end IsForest

/-- Document order below a child is that below its parent. -/
theorem Precedes.of_child
    (listed : child ∈ tree.children root)
    (precedes : tree.Precedes child first second) :
    tree.Precedes root first second := by
  obtain ⟨position, later, there, thereToo, before⟩ := precedes
  obtain ⟨index, found⟩ := List.mem_iff_getElem?.mp listed
  exact ⟨index :: position, index :: later, at?_cons_eq_some_iff.mpr ⟨child, found, there⟩,
    at?_cons_eq_some_iff.mpr ⟨child, found, thereToo⟩, List.cons_lt_cons_self.mpr before⟩

/-- What is below an element is listed in document order. -/
theorem IsForest.pairwise_descendants (forest : tree.IsForest) (root : ElementId) :
    (tree.descendants root).Pairwise (tree.Precedes root) := by
  induction weight : tree.weight root using Nat.strong_induction_on generalizing root with
  | _ weight inductionHypothesis =>
      rw [forest.descendants_eq root, List.pairwise_flatMap]
      constructor
      · intro child listed
        refine List.pairwise_cons.mpr ⟨fun below member => ?_, ?_⟩
        · obtain ⟨index, rest, there⟩ := below_iff_at?.mp (forest.mem_descendants.mp member)
          exact .of_child listed ⟨[], index :: rest, rfl, there, List.nil_lt_cons index rest⟩
        · have ordered :=
            inductionHypothesis _ (by rw [← weight]; exact forest.weight_lt listed) child rfl
          exact ordered.imp (.of_child listed)
      · refine List.pairwise_iff_getElem.mpr fun index other known knownToo less => ?_
        intro first inFirst second inSecond
        obtain ⟨position, there⟩ := forest.mem_subtree_iff.mp inFirst
        obtain ⟨later, thereToo⟩ := forest.mem_subtree_iff.mp inSecond
        exact ⟨index :: position, other :: later,
          at?_cons_eq_some_iff.mpr ⟨_, List.getElem?_eq_getElem known, there⟩,
          at?_cons_eq_some_iff.mpr ⟨_, List.getElem?_eq_getElem knownToo, thereToo⟩,
          .rel less⟩

end Tree

end Hydration
