import Hydration.Tree
import Mathlib.Data.Finset.Card
import Mathlib.Data.Finset.Range
import Mathlib.Data.List.Nodup
import Mathlib.Logic.Relation

/-!
# Forests

As long as no element is listed twice and none comes below itself, what is below
an element is its children, each with what is below it in turn.  The depth to
which a tree is walked is never reached then.
-/

namespace Hydration

namespace Tree

/-- A child comes below its parent, and so does what comes below the child. -/
def Below (tree : Tree) : ElementId → ElementId → Prop :=
  Relation.TransGen fun parent child => child ∈ tree.children parent

/-- An element is listed once at most, by the parent that it knows, and not below itself. -/
structure IsForest (tree : Tree) : Prop where
  nodup : ∀ parent, (tree.children parent).Nodup
  parent : ∀ parent child, child ∈ tree.children parent → tree.parent? child = some parent
  acyclic : ∀ element, ¬ tree.Below element element

variable {tree : Tree} {root element parent child : ElementId}

theorem lt_size_of_parent? (known : tree.parent? child = some parent) :
    child < tree.nodes.size := by
  obtain ⟨node, isNode, _⟩ := Option.bind_eq_some_iff.mp known
  exact Table.lt_size_of_found (Option.filter_eq_some_iff.mp isNode).1

open Classical in
/-- How many elements come below an element. -/
noncomputable def weight (tree : Tree) (element : ElementId) : Nat :=
  ((Finset.range tree.nodes.size).filter (tree.Below element)).card

namespace IsForest

/-- Less comes below a child than below its parent. -/
theorem weight_lt
    (forest : tree.IsForest)
    (listed : child ∈ tree.children parent) :
    tree.weight child < tree.weight parent := by
  classical
  refine Finset.card_lt_card ⟨?_, ?_⟩
  · intro element member
    obtain ⟨known, below⟩ := Finset.mem_filter.mp member
    exact Finset.mem_filter.mpr ⟨known, .head listed below⟩
  · intro contained
    have known : child ∈ Finset.range tree.nodes.size :=
      Finset.mem_range.mpr (lt_size_of_parent? (forest.parent parent child listed))
    have itself := contained (Finset.mem_filter.mpr ⟨known, .single listed⟩)
    exact forest.acyclic child (Finset.mem_filter.mp itself).2

/-- Fewer elements come below a child than there are. -/
theorem weight_lt_size
    (forest : tree.IsForest)
    (listed : child ∈ tree.children parent) :
    tree.weight child < tree.nodes.size := by
  classical
  have within : tree.weight parent ≤ tree.nodes.size :=
    (Finset.card_filter_le _ _).trans (Nat.le_of_eq (Finset.card_range _))
  exact Nat.lt_of_lt_of_le (forest.weight_lt listed) within

/-- A walk that is deep enough does not reach its depth. -/
theorem walk_eq
    (forest : tree.IsForest)
    {depth more : Nat}
    (deep : tree.weight element < depth)
    (deeper : tree.weight element < more) :
    tree.walk depth element = tree.walk more element := by
  induction depth generalizing element more with
  | zero => cases deep
  | succ depth inductionHypothesis =>
      cases more with
      | zero => cases deeper
      | succ more =>
          refine congrArg (element :: ·) (List.flatMap_congr fun child listed => ?_)
          have less := forest.weight_lt listed
          exact inductionHypothesis (by omega) (by omega)

/-- What is below an element is its children, each with what is below it. -/
theorem descendants_eq (forest : tree.IsForest) (root : ElementId) :
    tree.descendants root =
      (tree.children root).flatMap fun child => child :: tree.descendants child := by
  refine List.flatMap_congr fun child listed => ?_
  have enough := forest.weight_lt_size listed
  obtain ⟨depth, size⟩ := Nat.exists_eq_add_one_of_ne_zero (Nat.ne_zero_of_lt enough)
  rw [size, walk, descendants]
  refine congrArg (child :: ·) (List.flatMap_congr fun grandchild later => ?_)
  have less := forest.weight_lt later
  exact forest.walk_eq (by omega) (by omega)

theorem mem_descendants (forest : tree.IsForest) :
    element ∈ tree.descendants root ↔ tree.Below root element := by
  induction weight : tree.weight root using Nat.strong_induction_on generalizing root with
  | _ weight inductionHypothesis =>
      have next {child : ElementId} (listed : child ∈ tree.children root) :
          element ∈ tree.descendants child ↔ tree.Below child element :=
        inductionHypothesis _ (by rw [← weight]; exact forest.weight_lt listed) rfl
      rw [forest.descendants_eq root, List.mem_flatMap]
      constructor
      · rintro ⟨child, listed, member⟩
        rcases List.mem_cons.mp member with rfl | later
        · exact .single listed
        · exact .head listed ((next listed).mp later)
      · intro below
        rcases Relation.TransGen.head'_iff.mp below with ⟨child, listed, reaches⟩
        refine ⟨child, listed, List.mem_cons.mpr ?_⟩
        rcases Relation.reflTransGen_iff_eq_or_transGen.mp reaches with same | later
        · exact .inl same
        · exact .inr ((next listed).mpr later)

/-- A child does not come below another child of its parent. -/
theorem not_below_sibling
    (forest : tree.IsForest)
    {first second : ElementId}
    (listedFirst : first ∈ tree.children parent)
    (listedSecond : second ∈ tree.children parent) :
    ¬ tree.Below first second := by
  intro below
  obtain ⟨last, reaches, listed⟩ := Relation.TransGen.tail'_iff.mp below
  obtain rfl : last = parent :=
    Option.some.inj ((forest.parent last second listed).symm.trans
      (forest.parent parent second listedSecond))
  exact forest.acyclic last (.head' listedFirst reaches)

/-- Nothing comes below two children of one parent. -/
theorem disjoint_siblings
    (forest : tree.IsForest)
    {first second : ElementId}
    (listedFirst : first ∈ tree.children parent)
    (listedSecond : second ∈ tree.children parent)
    (different : first ≠ second) :
    List.Disjoint (first :: tree.descendants first) (second :: tree.descendants second) := by
  -- parents are unique, so what is above an element is one chain
  have unique :
      Relator.RightUnique (Function.swap fun parent child => child ∈ tree.children parent) :=
    fun child upper lower listed listedToo =>
      Option.some.inj ((forest.parent upper child listed).symm.trans
        (forest.parent lower child listedToo))
  have upwards {above element : ElementId} (member : element ∈ above :: tree.descendants above) :
      Relation.ReflTransGen (Function.swap fun parent child => child ∈ tree.children parent)
        element above := by
    rw [Relation.reflTransGen_swap, Relation.reflTransGen_iff_eq_or_transGen]
    exact (List.mem_cons.mp member).imp_right forest.mem_descendants.mp
  intro element inFirst inSecond
  rcases Relation.ReflTransGen.total_of_right_unique unique (upwards inFirst) (upwards inSecond)
    with reaches | reaches
  all_goals
    rw [Relation.reflTransGen_swap, Relation.reflTransGen_iff_eq_or_transGen] at reaches
  · exact forest.not_below_sibling listedSecond listedFirst (reaches.resolve_left different)
  · exact forest.not_below_sibling listedFirst listedSecond (reaches.resolve_left different.symm)

/-- What is below an element is listed once. -/
theorem nodup_descendants (forest : tree.IsForest) (root : ElementId) :
    (tree.descendants root).Nodup := by
  induction weight : tree.weight root using Nat.strong_induction_on generalizing root with
  | _ weight inductionHypothesis =>
      rw [forest.descendants_eq root, List.nodup_flatMap]
      constructor
      · intro child listed
        refine List.nodup_cons.mpr ⟨fun below => ?_, ?_⟩
        · exact forest.acyclic child (forest.mem_descendants.mp below)
        · exact inductionHypothesis _ (by rw [← weight]; exact forest.weight_lt listed) child rfl
      · refine (forest.nodup root).pairwise_of_forall_ne
          fun first listed second listedToo differ => ?_
        exact forest.disjoint_siblings listed listedToo differ

/-- Elements that come below older ones alone are a forest. -/
theorem of_older
    (nodup : ∀ parent, (tree.children parent).Nodup)
    (known : ∀ parent child, child ∈ tree.children parent → tree.parent? child = some parent)
    (older : ∀ parent child, child ∈ tree.children parent → parent < child) :
    tree.IsForest := by
  refine ⟨nodup, known, fun element below => ?_⟩
  have ascends {above : ElementId} (below : tree.Below above element) : above < element := by
    induction below using Relation.TransGen.head_induction_on with
    | single listed => exact older _ _ listed
    | head listed _ inductionHypothesis =>
        exact Nat.lt_trans (older _ _ listed) inductionHypothesis
  exact Nat.lt_irrefl element (ascends below)

end IsForest

end Tree

end Hydration
