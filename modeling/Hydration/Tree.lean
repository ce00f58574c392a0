import Hydration.Table
import Hydration.Text.Order

/-!
# Element trees

Elements form a forest: each one lists its children, and knows the parent that
lists it.  An element lives as long as the host holds it or a living parent
lists it; a child does not keep its parent alive.
-/

namespace Hydration

/-- The key of an element in its tree. -/
abbrev ElementId := Nat

/-- One element. -/
structure Node where
  tag : String
  /-- Ascending in the names. -/
  attributes : List (String × String)
  /-- From first to last. -/
  children : List ElementId
  parent : Option ElementId
  /-- Whether the host still holds the element. -/
  held : Bool
  /-- Whether the element still exists. -/
  alive : Bool
  deriving Repr

/-- All elements made so far. -/
structure Tree where
  nodes : Table Node

namespace Tree

/-- The tree without elements. -/
def empty : Tree := ⟨Table.empty⟩

/-- The element with a key, if it exists. -/
def node? (tree : Tree) (element : ElementId) : Option Node :=
  (tree.nodes.get? element).filter Node.alive

/-- Makes an element, held by the host, without parent and children. -/
def create (tree : Tree) (tag : String) : Tree :=
  ⟨tree.nodes.push ⟨tag, [], [], none, true, true⟩⟩

def modify (tree : Tree) (element : ElementId) (change : Node → Node) : Tree :=
  ⟨tree.nodes.modify element change⟩

def tag (tree : Tree) (element : ElementId) : String :=
  ((tree.node? element).map Node.tag).getD ""

/-- The value of an attribute. -/
def attribute? (tree : Tree) (element : ElementId) (name : String) : Option String :=
  (tree.node? element).bind fun node => Text.valueOf? name node.attributes

/-- Whether an element carries an attribute. -/
def hasAttribute (tree : Tree) (element : ElementId) (name : String) : Bool :=
  (tree.attribute? element name).isSome

/-- Gives an attribute a value. -/
def setAttribute (tree : Tree) (element : ElementId) (name value : String) : Tree :=
  tree.modify element fun node =>
    { node with attributes := Text.assign name value node.attributes }

def removeAttribute (tree : Tree) (element : ElementId) (name : String) : Tree :=
  tree.modify element fun node =>
    { node with attributes := Text.unassign name node.attributes }

/-- The children of an element, from first to last. -/
def children (tree : Tree) (element : ElementId) : List ElementId :=
  ((tree.node? element).map Node.children).getD []

def parent? (tree : Tree) (element : ElementId) : Option ElementId :=
  (tree.node? element).bind Node.parent

/-- Takes an element out of the children of its parent. -/
def detach (tree : Tree) (element : ElementId) : Tree :=
  match tree.parent? element with
  | none => tree
  | some parent =>
      tree.modify parent fun node =>
        { node with children := node.children.filter (· ≠ element) }

/-- Makes an element the last child of another one. -/
def append (tree : Tree) (parent child : ElementId) : Tree :=
  let moved := (tree.detach child).modify child fun node =>
    { node with parent := some parent }
  moved.modify parent fun node =>
    { node with children := node.children ++ [child] }

/--
Ends every listed element that nothing keeps, and with it the children it alone
kept.  An element is looked at once for itself or for the parent it lost, so
`fuel` need not exceed the number of elements by more than one.
-/
def collect (fuel : Nat) (tree : Tree) (pending : List ElementId) : Tree :=
  match fuel, pending with
  | 0, _ => tree
  | _, [] => tree
  | fuel + 1, element :: rest =>
      match tree.node? element with
      | none => collect fuel tree rest
      | some node =>
          if node.held || node.parent.isSome then
            collect fuel tree rest
          else
            let ended := tree.modify element fun node =>
              { node with alive := false, children := [] }
            let orphaned := node.children.foldl
              (fun tree child => tree.modify child fun node => { node with parent := none })
              ended
            collect fuel orphaned (node.children ++ rest)

/-- The host no longer holds an element. -/
def release (tree : Tree) (element : ElementId) : Tree :=
  let released := tree.modify element fun node => { node with held := false }
  collect (tree.nodes.size + 1) released [element]

/-- An element and what is below it in document order, down to a depth. -/
def walk (tree : Tree) : Nat → ElementId → List ElementId
  | 0, _ => []
  | depth + 1, element =>
      element :: (tree.children element).flatMap (tree.walk depth)

/-- The elements below an element in document order. -/
def descendants (tree : Tree) (root : ElementId) : List ElementId :=
  (tree.children root).flatMap (tree.walk tree.nodes.size)

/-- The elements below an element that carry an attribute, in document order. -/
def withAttribute (tree : Tree) (root : ElementId) (name : String) : List ElementId :=
  (tree.descendants root).filter fun element => tree.hasAttribute element name

end Tree

end Hydration
