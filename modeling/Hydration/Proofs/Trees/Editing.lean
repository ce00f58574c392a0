import Hydration.Proofs.Trees.Forest
import Mathlib.Algebra.BigOperators.Group.Finset.Basic
import Mathlib.Algebra.Order.BigOperators.Group.Finset

/-!
# Editing a tree

Elements are made, appended to other ones, given attributes, held and let go.
Whatever is done so, each element is listed by the parent that it knows, and an
element that nothing keeps has ended: what is let go is ended first, then those
of its children that it alone has kept, and so on.
-/

namespace Hydration

namespace Tree

variable {tree later : Tree} {element other parent child : ElementId}
variable {loose pending : List ElementId}

/-- Whether an element exists. -/
def isAlive (tree : Tree) (element : ElementId) : Bool :=
  (tree.node? element).isSome

/-- Whether the host holds an element. -/
def isHeld (tree : Tree) (element : ElementId) : Bool :=
  (tree.node? element).any Node.held

/-- The host holds an element again that it has found in the tree. -/
def hold (tree : Tree) (element : ElementId) : Tree :=
  tree.modify element fun node => { node with held := true }

/-- What the host may do with a tree. -/
inductive Edit where
  | create (tag : String)
  | append (parent child : ElementId)
  | setAttribute (element : ElementId) (name value : String)
  | removeAttribute (element : ElementId) (name : String)
  | hold (element : ElementId)
  | release (element : ElementId)

def edit (tree : Tree) : Edit → Tree
  | .create tag => tree.create tag
  | .append parent child => tree.append parent child
  | .setAttribute element name value => tree.setAttribute element name value
  | .removeAttribute element name => tree.removeAttribute element name
  | .hold element => tree.hold element
  | .release element => tree.release element

/-- One has to have what one holds or appends, and nothing is appended to what is below it. -/
def Allows (tree : Tree) : Edit → Prop
  | .append parent child =>
      tree.isAlive parent = true ∧ tree.isAlive child = true ∧
        child ≠ parent ∧ ¬ tree.Below child parent
  | .hold element => tree.isAlive element = true
  | _ => True

/-- A tree that allowed edits have made from nothing. -/
inductive IsBuilt : Tree → Prop where
  | empty : IsBuilt .empty
  | edit {tree : Tree} {edit : Edit} :
      IsBuilt tree → tree.Allows edit → IsBuilt (tree.edit edit)

theorem node?_modify
    (tree : Tree)
    (element other : ElementId)
    {change : Node → Node}
    (lives : ∀ node, (change node).alive = node.alive) :
    (tree.modify element change).node? other =
      if other = element then (tree.node? other).map change else tree.node? other := by
  rw [node?, modify, Table.get?_modify]
  split
  · have same : Node.alive ∘ change = Node.alive := funext lives
    rw [Option.filter_map, same, node?]
  · rfl

/-! ## What a change of one node leaves as it is -/

section Modify

variable {change : Node → Node} (lives : ∀ node, (change node).alive = node.alive)

include lives

theorem isAlive_modify : (tree.modify element change).isAlive other = tree.isAlive other := by
  rw [isAlive, node?_modify _ _ _ lives]
  split
  · exact Option.isSome_map
  · rfl

theorem isHeld_modify (kept : ∀ node, (change node).held = node.held) :
    (tree.modify element change).isHeld other = tree.isHeld other := by
  rw [isHeld, node?_modify _ _ _ lives, isHeld]
  split
  · rw [Option.any_map]
    exact congrArg (Option.any · (tree.node? other)) (funext kept)
  · rfl

theorem children_modify (kept : ∀ node, (change node).children = node.children) :
    (tree.modify element change).children = tree.children := by
  funext other
  rw [children, node?_modify _ _ _ lives]
  split
  · have same : Node.children ∘ change = Node.children := funext kept
    rw [Option.map_map, same, children]
  · rfl

theorem parent?_modify (kept : ∀ node, (change node).parent = node.parent) :
    (tree.modify element change).parent? = tree.parent? := by
  funext other
  rw [parent?, node?_modify _ _ _ lives]
  split
  · have same : Node.parent ∘ change = Node.parent := funext kept
    rw [Option.bind_map, same, parent?]
  · rfl

end Modify

/-! ## Ties -/

/--
Each element is listed by the parent that it knows, and apart from loose ones
each is held or has a parent.
-/
structure IsTied (tree : Tree) (loose : List ElementId) : Prop extends tree.IsForest where
  listed : ∀ parent child, tree.parent? child = some parent → child ∈ tree.children parent
  kept : ∀ element, tree.isAlive element = true →
    tree.isHeld element = true ∨ (tree.parent? element).isSome = true ∨ element ∈ loose

theorem IsTied.relink
    (tied : tree.IsTied loose)
    (children : later.children = tree.children)
    (parents : later.parent? = tree.parent?)
    (kept : ∀ element, later.isAlive element = true →
      later.isHeld element = true ∨ (later.parent? element).isSome = true ∨ element ∈ pending) :
    later.IsTied pending := by
  have below : later.Below = tree.Below := by rw [Below, children, Below]
  refine ⟨⟨?_, ?_, ?_⟩, ?_, kept⟩
  · rw [children]; exact tied.nodup
  · rw [children, parents]; exact tied.parent
  · rw [below]; exact tied.acyclic
  · rw [children, parents]; exact tied.listed

theorem isTied_empty : empty.IsTied [] := by
  have childless (parent : ElementId) : empty.children parent = [] := rfl
  refine ⟨.of_older (fun parent => ?_) ?_ ?_, ?_, ?_⟩
  · rw [childless]; exact List.nodup_nil
  · intro parent child listed
    rw [childless] at listed
    cases listed
  · intro parent child listed
    rw [childless] at listed
    cases listed
  · intro parent child known
    cases known
  · intro element alive
    cases alive

/-- A change of one node that keeps its links, and keeps it held if it was. -/
theorem IsTied.modify
    (tied : tree.IsTied loose)
    {change : Node → Node}
    (lives : ∀ node, (change node).alive = node.alive)
    (children : ∀ node, (change node).children = node.children)
    (parent : ∀ node, (change node).parent = node.parent)
    (held : ∀ node, node.held = true → (change node).held = true) :
    (tree.modify element change).IsTied loose := by
  refine tied.relink (children_modify lives children) (parent?_modify lives parent) ?_
  intro other alive
  rw [isAlive_modify lives] at alive
  rw [parent?_modify lives parent]
  refine (tied.kept other alive).imp_left fun holds => ?_
  rw [isHeld, node?_modify _ _ _ lives]
  split
  · obtain ⟨node, found, heldBefore⟩ := (Option.any_eq_true _ _).mp holds
    rw [found]
    exact held node heldBefore
  · exact holds

/-! ## New elements -/

theorem node?_create (tree : Tree) (tag : String) (element : ElementId) :
    (tree.create tag).node? element =
      if element = tree.nodes.size then some ⟨tag, [], [], none, true, true⟩
      else tree.node? element := by
  rw [node?, create, Table.get?_push]
  split <;> rfl

theorem node?_size (tree : Tree) : tree.node? tree.nodes.size = none := by
  rw [node?, Table.get?_size, Option.filter_none]

theorem children_create (tree : Tree) (tag : String) :
    (tree.create tag).children = tree.children := by
  funext element
  rw [children, node?_create, children]
  split
  · next same => rw [same, node?_size]; rfl
  · rfl

theorem parent?_create (tree : Tree) (tag : String) :
    (tree.create tag).parent? = tree.parent? := by
  funext element
  rw [parent?, node?_create, parent?]
  split
  · next same => rw [same, node?_size]; rfl
  · rfl

theorem IsTied.create (tied : tree.IsTied loose) (tag : String) :
    (tree.create tag).IsTied loose := by
  refine tied.relink (children_create tree tag) (parent?_create tree tag) ?_
  intro element alive
  rw [isAlive, node?_create] at alive
  rw [isHeld, node?_create, parent?_create]
  split
  · exact .inl rfl
  · next elsewhere =>
      rw [if_neg elsewhere] at alive
      exact tied.kept element alive

/-! ## Appending -/

theorem children_detach (forest : tree.IsForest) (child element : ElementId) :
    (tree.detach child).children element = (tree.children element).filter (· ≠ child) := by
  -- only the parent that the child knows lists it
  have unlisted (apart : tree.parent? child ≠ some element) :
      (tree.children element).filter (· ≠ child) = tree.children element := by
    refine List.filter_eq_self.mpr fun sibling listed => decide_eq_true ?_
    rintro rfl
    exact apart (forest.parent element sibling listed)
  rw [detach]
  split
  · next alone => rw [unlisted (by rw [alone]; exact nofun)]
  · next parent known =>
      rw [children, node?_modify]
      · split
        · next same =>
            subst same
            rw [Option.map_map, children]
            cases tree.node? element <;> rfl
        · next elsewhere =>
            rw [unlisted (by rw [known]; exact fun same => elsewhere (Option.some.inj same).symm),
              children]
      · exact fun _ => rfl

theorem parent?_detach : (tree.detach child).parent? = tree.parent? := by
  rw [detach]
  split
  · rfl
  · exact parent?_modify (fun _ => rfl) fun _ => rfl

theorem isAlive_detach : (tree.detach child).isAlive element = tree.isAlive element := by
  rw [detach]
  split
  · rfl
  · exact isAlive_modify fun _ => rfl

theorem isHeld_detach : (tree.detach child).isHeld element = tree.isHeld element := by
  rw [detach]
  split
  · rfl
  · exact isHeld_modify (fun _ => rfl) fun _ => rfl

/-- The child knows its parent. -/
def adopt (tree : Tree) (parent child : ElementId) : Tree :=
  tree.modify child fun node => { node with parent := some parent }

/-- The parent lists its child. -/
def enlist (tree : Tree) (parent child : ElementId) : Tree :=
  tree.modify parent fun node => { node with children := node.children ++ [child] }

theorem append_eq (tree : Tree) (parent child : ElementId) :
    tree.append parent child = ((tree.detach child).adopt parent child).enlist parent child :=
  rfl

theorem isAlive_adopt : (tree.adopt parent child).isAlive element = tree.isAlive element :=
  isAlive_modify fun _ => rfl

theorem isAlive_append : (tree.append parent child).isAlive element = tree.isAlive element :=
  calc (tree.append parent child).isAlive element
    _ = ((tree.detach child).adopt parent child).isAlive element := isAlive_modify fun _ => rfl
    _ = tree.isAlive element := isAlive_adopt.trans isAlive_detach

theorem isHeld_append : (tree.append parent child).isHeld element = tree.isHeld element :=
  calc (tree.append parent child).isHeld element
    _ = ((tree.detach child).adopt parent child).isHeld element :=
        isHeld_modify (fun _ => rfl) fun _ => rfl
    _ = (tree.detach child).isHeld element := isHeld_modify (fun _ => rfl) fun _ => rfl
    _ = tree.isHeld element := isHeld_detach

theorem children_adopt : (tree.adopt parent child).children = tree.children :=
  children_modify (fun _ => rfl) fun _ => rfl

theorem children_enlist (alive : tree.isAlive parent = true) :
    (tree.enlist parent child).children element =
      if element = parent then tree.children element ++ [child] else tree.children element := by
  rw [children, enlist, node?_modify _ _ _ (by exact fun _ => rfl), children]
  split
  · next same =>
      obtain ⟨node, found⟩ := Option.isSome_iff_exists.mp alive
      rw [same, found]
      rfl
  · rfl

/-- An appended element is the last child of its parent and a child of no other element. -/
theorem children_append
    (forest : tree.IsForest)
    (alive : tree.isAlive parent = true)
    (child element : ElementId) :
    (tree.append parent child).children element =
      if element = parent then (tree.children element).filter (· ≠ child) ++ [child]
      else (tree.children element).filter (· ≠ child) := by
  rw [append_eq, children_enlist (isAlive_adopt.trans (isAlive_detach.trans alive)),
    children_adopt, children_detach forest]

theorem mem_children_append
    (forest : tree.IsForest)
    (alive : tree.isAlive parent = true) :
    other ∈ (tree.append parent child).children element ↔
      if other = child then element = parent else other ∈ tree.children element := by
  rw [children_append forest alive]
  split <;> split <;> simp_all

theorem parent?_adopt (alive : tree.isAlive child = true) :
    (tree.adopt parent child).parent? element =
      if element = child then some parent else tree.parent? element := by
  rw [parent?, adopt, node?_modify _ _ _ (by exact fun _ => rfl), parent?]
  split
  · next same =>
      obtain ⟨node, found⟩ := Option.isSome_iff_exists.mp alive
      rw [same, found]
      rfl
  · rfl

theorem parent?_append
    (alive : tree.isAlive child = true)
    (parent element : ElementId) :
    (tree.append parent child).parent? element =
      if element = child then some parent else tree.parent? element := by
  have enlisted : (tree.append parent child).parent? =
      ((tree.detach child).adopt parent child).parent? :=
    parent?_modify (fun _ => rfl) fun _ => rfl
  rw [enlisted, parent?_adopt (isAlive_detach.trans alive), parent?_detach]

/-- What an appended element brings below others is what the new parent is below. -/
theorem below_append
    (forest : tree.IsForest)
    (alive : tree.isAlive parent = true)
    (apart : child ≠ parent)
    (above : ¬ tree.Below child parent)
    (below : (tree.append parent child).Below element other) :
    tree.Below element other ∨
      (element = parent ∨ tree.Below element parent) ∧
        (other = child ∨ tree.Below child other) := by
  have next {upper lower : ElementId}
      (listed : lower ∈ (tree.append parent child).children upper) :
      lower ∈ tree.children upper ∨ upper = parent ∧ lower = child := by
    rw [mem_children_append forest alive] at listed
    split at listed
    · next same => exact .inr ⟨listed, same⟩
    · exact .inl listed
  induction below with
  | single listed =>
      rcases next listed with before | ⟨rfl, rfl⟩
      · exact .inl (.single before)
      · exact .inr ⟨.inl rfl, .inl rfl⟩
  | tail _ listed inductionHypothesis =>
      rcases next listed with before | ⟨rfl, rfl⟩
      · rcases inductionHypothesis with reaches | ⟨reaches, rfl | onward⟩
        · exact .inl (.tail reaches before)
        · exact .inr ⟨reaches, .inr (.single before)⟩
        · exact .inr ⟨reaches, .inr (.tail onward before)⟩
      · rcases inductionHypothesis with reaches | ⟨_, same | onward⟩
        · exact .inr ⟨.inr reaches, .inl rfl⟩
        · exact (apart same.symm).elim
        · exact (above onward).elim

theorem IsTied.append
    (tied : tree.IsTied loose)
    (alive : tree.isAlive parent = true)
    (aliveToo : tree.isAlive child = true)
    (apart : child ≠ parent)
    (above : ¬ tree.Below child parent) :
    (tree.append parent child).IsTied loose := by
  have parents := parent?_append aliveToo parent
  refine ⟨⟨fun upper => ?_, fun upper lower listed => ?_, fun element below => ?_⟩,
    fun upper lower known => ?_, fun element lives => ?_⟩
  · have before := (tied.nodup upper).filter (· ≠ child)
    rw [children_append tied.toIsForest alive]
    split
    · refine before.append (List.nodup_singleton child) fun sibling member last => ?_
      rw [List.mem_singleton.mp last] at member
      exact of_decide_eq_true (List.mem_filter.mp member).2 rfl
    · exact before
  · rw [mem_children_append tied.toIsForest alive] at listed
    rw [parents]
    split at listed
    · next same => rw [if_pos same, listed]
    · next elsewhere => rw [if_neg elsewhere, tied.parent upper lower listed]
  · rcases below_append tied.toIsForest alive apart above below with
      before | ⟨same | reaches, rfl | onward⟩
    · exact tied.acyclic element before
    · exact apart same
    · exact above (same ▸ onward)
    · exact above reaches
    · exact above (onward.trans reaches)
  · rw [parents] at known
    rw [mem_children_append tied.toIsForest alive]
    split at known
    · next same => rw [if_pos same, Option.some.inj known]
    · next elsewhere => rw [if_neg elsewhere]; exact tied.listed upper lower known
  · rw [isAlive_append] at lives
    rw [isHeld_append, parents]
    split
    · exact .inr (.inl rfl)
    · exact tied.kept element lives

/-! ## Letting go -/

/-- An element ends, and its children lose their parent. -/
def ended (tree : Tree) (element : ElementId) : Tree :=
  (tree.children element).foldl
    (fun tree child => tree.modify child fun node => { node with parent := none })
    (tree.modify element fun node => { node with alive := false, children := [] })

theorem node?_foldl_orphan (orphans : List ElementId) (tree : Tree) (element : ElementId) :
    (orphans.foldl
        (fun tree child => tree.modify child fun node => { node with parent := none })
        tree).node? element =
      if element ∈ orphans then (tree.node? element).map fun node => { node with parent := none }
      else tree.node? element := by
  induction orphans generalizing tree with
  | nil => rfl
  | cons orphan rest inductionHypothesis =>
      rw [List.foldl_cons, inductionHypothesis, node?_modify _ _ _ (by exact fun _ => rfl)]
      cases tree.node? element <;> by_cases same : element = orphan <;> simp [same]

theorem node?_ended :
    (tree.ended element).node? other =
      if other = element then none
      else if other ∈ tree.children element then
        (tree.node? other).map fun node => { node with parent := none }
      else tree.node? other := by
  have gone : (tree.modify element fun node => { node with alive := false, children := [] }).node?
      other = if other = element then none else tree.node? other := by
    rw [node?, modify, Table.get?_modify]
    split
    · cases tree.nodes.get? other <;> rfl
    · rfl
  rw [ended, node?_foldl_orphan, gone]
  by_cases same : other = element <;> simp [same]

theorem children_ended :
    (tree.ended element).children other = if other = element then [] else tree.children other := by
  rw [children, node?_ended, children]
  split
  · rfl
  · split
    · rw [Option.map_map]; rfl
    · rfl

theorem parent?_ended :
    (tree.ended element).parent? other =
      if other = element ∨ other ∈ tree.children element then none else tree.parent? other := by
  rw [parent?, node?_ended, parent?]
  by_cases same : other = element <;> by_cases listed : other ∈ tree.children element
  all_goals simp [same, listed]

theorem isHeld_ended (elsewhere : other ≠ element) :
    (tree.ended element).isHeld other = tree.isHeld other := by
  rw [isHeld, node?_ended, if_neg elsewhere, isHeld]
  split
  · exact Option.any_map
  · rfl

theorem isAlive_ended :
    (tree.ended element).isAlive other = true ↔ other ≠ element ∧ tree.isAlive other = true := by
  rw [isAlive, node?_ended, isAlive]
  split
  · next same => simp [same]
  · next elsewhere => split <;> simp [elsewhere]

/-- What an ended element alone has kept is loose now. -/
theorem IsTied.ended
    (tied : tree.IsTied (element :: loose))
    (free : tree.isHeld element = false)
    (alone : tree.parent? element = none) :
    (tree.ended element).IsTied (tree.children element ++ loose) := by
  have listedBefore {upper lower : ElementId}
      (listed : lower ∈ (tree.ended element).children upper) :
      upper ≠ element ∧ lower ∈ tree.children upper := by
    rw [children_ended] at listed
    split at listed
    · cases listed
    · next elsewhere => exact ⟨elsewhere, listed⟩
  refine ⟨⟨fun upper => ?_, fun upper lower listed => ?_, fun other below => ?_⟩,
    fun upper lower known => ?_, fun other lives => ?_⟩
  · rw [children_ended]
    split
    · exact List.nodup_nil
    · exact tied.nodup upper
  · obtain ⟨elsewhere, before⟩ := listedBefore listed
    have known := tied.parent upper lower before
    rw [parent?_ended, if_neg, known]
    rintro (rfl | orphaned)
    · rw [alone] at known
      cases known
    · rw [tied.parent element lower orphaned] at known
      exact elsewhere (Option.some.inj known).symm
  · exact tied.acyclic other
      (Relation.TransGen.mono (fun _ _ listed => (listedBefore listed).2) other other below)
  · rw [parent?_ended] at known
    split at known
    · cases known
    · next apart =>
        have before := tied.listed upper lower known
        rw [children_ended, if_neg]
        · exact before
        · rintro rfl
          exact apart (.inr before)
  · obtain ⟨elsewhere, aliveBefore⟩ := isAlive_ended.mp lives
    rw [isHeld_ended elsewhere, parent?_ended]
    by_cases orphaned : other ∈ tree.children element
    · exact .inr (.inr (List.mem_append_left _ orphaned))
    · rw [if_neg (not_or.mpr ⟨elsewhere, orphaned⟩)]
      refine (tied.kept other aliveBefore).imp_right (Or.imp_right fun member => ?_)
      exact List.mem_append_right _ ((List.mem_cons.mp member).resolve_left elsewhere)

/-- A loose element that something keeps is not loose. -/
theorem IsTied.tail
    (tied : tree.IsTied (element :: loose))
    (kept : tree.isAlive element = true →
      tree.isHeld element = true ∨ (tree.parent? element).isSome = true) :
    tree.IsTied loose := by
  refine { tied with kept := fun other alive => ?_ }
  by_cases same : other = element
  · subst same
    exact (kept alive).imp_right .inl
  · exact (tied.kept other alive).imp_right
      (Or.imp_right fun member => (List.mem_cons.mp member).resolve_left same)

theorem lt_size_of_isAlive (alive : tree.isAlive element = true) : element < tree.nodes.size := by
  by_contra beyond
  rw [isAlive, node?, (Table.get?_eq_none_iff _ _).mpr (Nat.le_of_not_lt beyond)] at alive
  cases alive

theorem size_ended : (tree.ended element).nodes.size = tree.nodes.size := by
  have orphaned (orphans : List ElementId) (tree : Tree) :
      (orphans.foldl
          (fun tree child => tree.modify child fun node => { node with parent := none })
          tree).nodes.size = tree.nodes.size := by
    induction orphans generalizing tree with
    | nil => rfl
    | cons orphan rest inductionHypothesis =>
        rw [List.foldl_cons, inductionHypothesis, modify, Table.size_modify]
  rw [ended, orphaned, modify, Table.size_modify]

open Finset in
/-- How often an element can still be looked at. -/
def slack (tree : Tree) (pending : List ElementId) : Nat :=
  pending.length + ∑ element ∈ range tree.nodes.size, (tree.children element).length

/-- Each ended element is looked at for the last time. -/
theorem slack_ended (alive : tree.isAlive element = true) (pending : List ElementId) :
    (tree.ended element).slack (tree.children element ++ pending) + 1 =
      tree.slack (element :: pending) := by
  have known := Finset.mem_range.mpr (lt_size_of_isAlive alive)
  have others : ∀ other ∈ (Finset.range tree.nodes.size).erase element,
      ((tree.ended element).children other).length = (tree.children other).length := by
    intro other member
    rw [children_ended, if_neg (Finset.ne_of_mem_erase member)]
  have childless : ((tree.ended element).children element).length = 0 := by
    rw [children_ended, if_pos rfl, List.length_nil]
  rw [slack, slack, size_ended, ← Finset.add_sum_erase _ _ known,
    ← Finset.add_sum_erase _ _ known, Finset.sum_congr rfl others, childless,
    List.length_append, List.length_cons]
  omega

/-- No element is a child of two, so there are no more children than elements. -/
theorem IsForest.slack_le (forest : tree.IsForest) (pending : List ElementId) :
    tree.slack pending ≤ pending.length + tree.nodes.size := by
  have distinct : (Finset.range tree.nodes.size : Set ElementId).PairwiseDisjoint
      fun element => (tree.children element).toFinset := by
    intro first _ second _ differ
    refine Finset.disjoint_left.mpr fun child listed listedToo => differ ?_
    exact Option.some.inj
      ((forest.parent first child (List.mem_toFinset.mp listed)).symm.trans
        (forest.parent second child (List.mem_toFinset.mp listedToo)))
  have within : (Finset.range tree.nodes.size).biUnion
      (fun element => (tree.children element).toFinset) ⊆ Finset.range tree.nodes.size := by
    intro child member
    obtain ⟨element, _, listed⟩ := Finset.mem_biUnion.mp member
    exact Finset.mem_range.mpr
      (lt_size_of_parent? (forest.parent element child (List.mem_toFinset.mp listed)))
  have counted := Finset.card_le_card within
  rw [Finset.card_biUnion distinct, Finset.card_range] at counted
  refine Nat.add_le_add_left ((Finset.sum_congr rfl fun element _ => ?_).trans_le counted) _
  exact (List.toFinset_card_of_nodup (forest.nodup element)).symm

/-- With enough fuel nothing remains loose. -/
theorem IsTied.collect
    (tied : tree.IsTied pending)
    {fuel : Nat}
    (enough : tree.slack pending ≤ fuel) :
    (Tree.collect fuel tree pending).IsTied [] := by
  induction fuel generalizing tree pending with
  | zero =>
      rw [slack, Nat.le_zero, Nat.add_eq_zero_iff] at enough
      rw [List.eq_nil_of_length_eq_zero enough.1] at tied
      exact tied
  | succ fuel inductionHypothesis =>
      cases pending with
      | nil => exact tied
      | cons element rest =>
          have fewer : tree.slack rest ≤ fuel := by
            rw [slack, List.length_cons] at enough
            rw [slack]
            omega
          rw [Tree.collect]
          split
          · next absent =>
              refine inductionHypothesis (tied.tail fun alive => ?_) fewer
              rw [isAlive, absent] at alive
              cases alive
          · next node found =>
              have held : tree.isHeld element = node.held := by rw [isHeld, found]; rfl
              have known : tree.parent? element = node.parent := by rw [parent?, found]; rfl
              split
              · next keeps =>
                  refine inductionHypothesis (tied.tail fun _ => ?_) fewer
                  rw [held, known]
                  exact Bool.or_eq_true_iff.mp keeps
              · next free =>
                  obtain ⟨notHeld, alone⟩ :=
                    not_or.mp fun keeps => free (Bool.or_eq_true_iff.mpr keeps)
                  have listed : tree.children element = node.children := by
                    rw [children, found]; rfl
                  rw [← listed]
                  refine inductionHypothesis (tied.ended ?_ ?_) ?_
                  · rw [held]; exact Bool.eq_false_iff.mpr notHeld
                  · rw [known]; exact Option.not_isSome_iff_eq_none.mp alone
                  · have alive : tree.isAlive element = true := Option.isSome_of_eq_some found
                    rw [← slack_ended alive] at enough
                    exact Nat.le_of_succ_le_succ enough

/-- An element that is let go ends with all that it alone has kept. -/
theorem IsTied.release (tied : tree.IsTied []) (element : ElementId) :
    (tree.release element).IsTied [] := by
  have released : (tree.modify element fun node => { node with held := false }).IsTied
      [element] := by
    refine tied.relink (children_modify (fun _ => rfl) fun _ => rfl)
      (parent?_modify (fun _ => rfl) fun _ => rfl) fun other alive => ?_
    by_cases same : other = element
    · exact .inr (.inr (List.mem_singleton.mpr same))
    · rw [isAlive_modify (by exact fun _ => rfl)] at alive
      rw [isHeld, node?_modify _ _ _ (by exact fun _ => rfl), if_neg same,
        parent?_modify (by exact fun _ => rfl) (by exact fun _ => rfl)]
      refine (tied.kept other alive).imp_right fun known => .inl ?_
      exact known.resolve_right List.not_mem_nil
  refine released.collect ((released.slack_le [element]).trans ?_)
  rw [List.length_singleton, Tree.modify, Table.size_modify, Nat.add_comm]

/-- Every tree that edits have made is tied together, and nothing in it is loose. -/
theorem IsBuilt.isTied (built : tree.IsBuilt) : tree.IsTied [] := by
  induction built with
  | empty => exact isTied_empty
  | @edit tree edit _ allowed inductionHypothesis =>
      cases edit with
      | create tag => exact inductionHypothesis.create tag
      | append parent child =>
          obtain ⟨alive, aliveToo, apart, above⟩ := allowed
          exact inductionHypothesis.append alive aliveToo apart above
      | setAttribute element name value =>
          exact inductionHypothesis.modify (fun _ => rfl) (fun _ => rfl) (fun _ => rfl) fun _ => id
      | removeAttribute element name =>
          exact inductionHypothesis.modify (fun _ => rfl) (fun _ => rfl) (fun _ => rfl) fun _ => id
      | hold element =>
          exact inductionHypothesis.modify (fun _ => rfl) (fun _ => rfl) (fun _ => rfl)
            fun _ _ => rfl
      | release element => exact inductionHypothesis.release element

/-- An element exists just as long as the host holds it or a living parent lists it. -/
theorem IsBuilt.isAlive_iff (built : tree.IsBuilt) :
    tree.isAlive element = true ↔
      tree.isHeld element = true ∨ ∃ parent, element ∈ tree.children parent := by
  constructor
  · intro alive
    refine (built.isTied.kept element alive).imp_right fun known => ?_
    obtain ⟨parent, known⟩ :=
      Option.isSome_iff_exists.mp (known.resolve_right List.not_mem_nil)
    exact ⟨parent, built.isTied.listed parent element known⟩
  · rintro (held | ⟨parent, listed⟩)
    · obtain ⟨node, found, _⟩ := (Option.any_eq_true _ _).mp held
      exact Option.isSome_of_eq_some found
    · have known := built.isTied.parent parent element listed
      obtain ⟨node, found, _⟩ := Option.bind_eq_some_iff.mp known
      exact Option.isSome_of_eq_some found

/-- An element may be appended to what is not at or below it. -/
theorem IsBuilt.allows_append
    (built : tree.IsBuilt)
    (parent child : ElementId)
    (alive : tree.isAlive parent = true)
    (aliveToo : tree.isAlive child = true)
    (outside : parent ∉ child :: tree.descendants child) :
    tree.Allows (.append parent child) := by
  obtain ⟨apart, above⟩ := not_or.mp (List.mem_cons.not.mp outside)
  exact ⟨alive, aliveToo, Ne.symm apart, built.isTied.mem_descendants.not.mp above⟩

end Tree

end Hydration
