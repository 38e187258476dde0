import NullReturns.Body

/-! # Declared trees in the arena

The body of a declared tree holds every node of the tree at its place in document order. The nodes
below a node are therefore the ids that follow its own, and the way up from it leads through the nodes
that the tree has above it. What is said about single nodes of such a body is read off its tree.
-/

namespace NullReturns

namespace Tree

def kind : Tree → NodeKind
  | .node kind _ _ _ _ => kind

def children : Tree → List Tree
  | .node _ children _ _ _ => children

def constant : Tree → Option Constant
  | .node _ _ constant _ _ => constant

/-- The key of the method that a call names. -/
def target : Tree → Option String
  | .node _ _ _ target _ => target

theorem size_eq (tree : Tree) : tree.size = 1 + sizeAll tree.children := by
  cases tree
  simp only [size, children]

end Tree

namespace Body

variable {body : Body} {resolve : String → Option MethodId}

mutual

theorem length_flatten (resolve : String → Option MethodId) (parent : Option NodeId) (id : NodeId) :
    (tree : Tree) → (flatten resolve parent id tree).length = tree.size
  | .node kind children constant target span => by
    simp only [flatten, Tree.size, List.length_cons, length_flattenAll resolve id (id + 1) children]
    omega

theorem length_flattenAll (resolve : String → Option MethodId) (parent id : NodeId) :
    (trees : List Tree) → (flattenAll resolve parent id trees).length = Tree.sizeAll trees
  | [] => rfl
  | tree :: rest => by
    simp only [flattenAll, Tree.sizeAll, List.length_append, length_flatten resolve (some parent) id tree,
      length_flattenAll resolve parent (id + tree.size) rest]

end

/-- The node that stands for the root of a tree. -/
def rootNode (resolve : String → Option MethodId) (parent : Option NodeId) (id : NodeId) (tree : Tree) : Node :=
  ⟨tree.kind, if tree.kind = .invocation then tree.target.bind resolve else none, parent,
    siblingIds (id + 1) tree.children, tree.constant⟩

theorem flatten_eq (resolve : String → Option MethodId) (parent : Option NodeId) (id : NodeId) (tree : Tree) :
    flatten resolve parent id tree =
      rootNode resolve parent id tree :: flattenAll resolve id (id + 1) tree.children := by
  cases tree
  rw [flatten]
  rfl

/-! ## Ways up -/

/-- Each node of the list is the parent of the one before it, and the last one has no parent. -/
def IsLineage (body : Body) : List NodeId → Prop
  | [] => True
  | id :: above => body.parent? id = above.head? ∧ body.IsLineage above

/-- A way up that is no longer than the number of steps is walked to its end. -/
theorem IsLineage.upward {above : List NodeId} (lineage : body.IsLineage above) {steps : Nat}
    (enough : above.length ≤ steps) : body.upward steps above.head? = above := by
  induction above generalizing steps with
  | nil => cases steps <;> rfl
  | cons id above ih =>
    obtain ⟨parent, rest⟩ := lineage
    cases steps with
    | zero => simp only [List.length_cons, Nat.le_zero_eq, Nat.add_eq_zero_iff, reduceCtorEq, and_false] at enough
    | succ steps =>
      simp only [List.head?_cons, Body.upward, parent]
      rw [ih rest (by simpa only [List.length_cons, Nat.add_le_add_iff_right] using enough)]

/-! ## Trees in place -/

mutual

/-- The arena holds a tree with its root at `id`, below the nodes `above` (nearest first). -/
def Holds (body : Body) (resolve : String → Option MethodId) (above : List NodeId) (id : NodeId) :
    Tree → Prop
  | .node kind children constant target span =>
    body.nodes[id]? = some (rootNode resolve above.head? id (.node kind children constant target span)) ∧
      body.ancestors id = above ∧ body.HoldsAll resolve (id :: above) (id + 1) children

/-- The arena holds sibling trees one after the other, the first with its root at `id`. -/
def HoldsAll (body : Body) (resolve : String → Option MethodId) (above : List NodeId) (id : NodeId) :
    List Tree → Prop
  | [] => True
  | tree :: rest => body.Holds resolve above id tree ∧ body.HoldsAll resolve above (id + tree.size) rest

end

mutual

/-- Where the nodes of a tree stand one after the other, the arena holds the tree. The nodes above it
come first, so there are no more of them than the arena has nodes. -/
theorem holds_of_nodes {above : List NodeId} (lineage : body.IsLineage above) {before after : List Node}
    (room : above.length ≤ before.length) :
    (tree : Tree) → body.nodes = before ++ (flatten resolve above.head? before.length tree ++ after) →
      body.Holds resolve above before.length tree
  | .node kind children constant target span, nodes => by
    rw [flatten_eq, Tree.children] at nodes
    have here := congrArg (·[before.length]?) nodes
    simp only [List.cons_append, List.getElem?_append_right (Nat.le_refl _), Nat.sub_self,
      List.getElem?_cons_zero] at here
    have parent : body.parent? before.length = above.head? := by
      simp only [parent?, here, Option.bind_some, rootNode]
    refine ⟨here, ?_, ?_⟩
    · rw [ancestors, parent]
      apply lineage.upward
      simp only [nodes, List.length_append]
      omega
    · generalize rootNode resolve _ _ _ = root at nodes
      have next : (before ++ [root]).length = before.length + 1 := by
        rw [List.length_append, List.length_singleton]
      rw [List.cons_append, ← List.singleton_append, ← List.append_assoc, ← next] at nodes
      rw [← next]
      exact holdsAll_of_nodes ⟨parent, lineage⟩ (by simp only [List.length_cons, next]; omega) children nodes

private theorem holdsAll_of_nodes {parent : NodeId} {above : List NodeId} (lineage : body.IsLineage (parent :: above))
    {before after : List Node} (room : (parent :: above).length ≤ before.length) :
    (trees : List Tree) → body.nodes = before ++ (flattenAll resolve parent before.length trees ++ after) →
      body.HoldsAll resolve (parent :: above) before.length trees
  | [], _ => trivial
  | tree :: rest, nodes => by
    simp only [flattenAll, List.append_assoc] at nodes
    refine ⟨holds_of_nodes lineage room tree nodes, ?_⟩
    have next : (before ++ flatten resolve (some parent) before.length tree).length =
        before.length + tree.size := by rw [List.length_append, length_flatten]
    rw [← List.append_assoc, ← next] at nodes
    rw [← next]
    exact holdsAll_of_nodes lineage (by omega) rest nodes

end

/-- The body of a tree holds it at the root of the arena. -/
theorem holds_ofTree (kind : BodyKind) (owner : Option MethodId) (resolve : String → Option MethodId)
    (tree : Tree) : (ofTree kind owner resolve tree).Holds resolve [] 0 tree := by
  have nodes : (ofTree kind owner resolve tree).nodes = [] ++ (flatten resolve none 0 tree ++ []) := by
    rw [List.nil_append, List.append_nil, ofTree]
  exact @holds_of_nodes _ resolve [] trivial [] [] (Nat.le_refl 0) tree nodes

namespace Holds

variable {above : List NodeId} {id : NodeId} {tree : Tree}

theorem node (held : body.Holds resolve above id tree) :
    body.nodes[id]? = some (rootNode resolve above.head? id tree) := by
  cases tree
  exact held.1

theorem ancestors (held : body.Holds resolve above id tree) : body.ancestors id = above := by
  cases tree
  exact held.2.1

theorem below (held : body.Holds resolve above id tree) :
    body.HoldsAll resolve (id :: above) (id + 1) tree.children := by
  cases tree
  exact held.2.2

theorem kind? (held : body.Holds resolve above id tree) : body.kind? id = some tree.kind := by
  simp only [Body.kind?, held.node, Option.map_some, rootNode]

theorem constant? (held : body.Holds resolve above id tree) : body.constant? id = tree.constant := by
  simp only [Body.constant?, held.node, Option.bind_some, rootNode]

theorem parent? (held : body.Holds resolve above id tree) : body.parent? id = above.head? := by
  simp only [Body.parent?, held.node, Option.bind_some, rootNode]

theorem children (held : body.Holds resolve above id tree) :
    body.children id = siblingIds (id + 1) tree.children := by
  simp only [Body.children, held.node, Option.elim_some, rootNode]

end Holds

/-! ## Ways down -/

mutual

/-- The nodes below a held tree's root are the ids that follow it. -/
theorem Holds.downward {above : List NodeId} {id : NodeId} {depth : Nat} :
    (tree : Tree) → body.Holds resolve above id tree → tree.size ≤ depth + 1 →
      body.downward depth id = List.range' (id + 1) (Tree.sizeAll tree.children)
  | .node kind children constant target span, held, deep => by
    simp only [Tree.size] at deep
    cases depth with
    | zero =>
      have none : Tree.sizeAll children = 0 := by omega
      simp only [Body.downward, Tree.children, none, List.range'_zero]
    | succ depth =>
      simp only [Body.downward, held.children, Tree.children]
      exact HoldsAll.downward children held.below (by omega)

theorem HoldsAll.downward {above : List NodeId} {id : NodeId} {depth : Nat} :
    (trees : List Tree) → body.HoldsAll resolve above id trees → Tree.sizeAll trees ≤ depth + 1 →
      ((siblingIds id trees).flatMap fun child => child :: body.downward depth child) =
        List.range' id (Tree.sizeAll trees)
  | [], _, _ => rfl
  | tree :: rest, held, deep => by
    simp only [Tree.sizeAll] at deep
    have first : body.downward depth id = _ := Holds.downward tree held.1 (by omega)
    have others : ((siblingIds (id + tree.size) rest).flatMap fun child =>
        child :: body.downward depth child) = _ := HoldsAll.downward rest held.2 (by omega)
    simp only [siblingIds, List.flatMap_cons, first, others, Tree.sizeAll]
    rw [← List.range'_append_1, Tree.size_eq, Nat.add_comm 1, List.range'_succ]

end

mutual

/-- A held tree lies within the arena. -/
theorem Holds.bound {above : List NodeId} {id : Nat} :
    (tree : Tree) → body.Holds resolve above id tree → id + tree.size ≤ body.nodes.length
  | .node kind children constant target span, held => by
    have here : id < body.nodes.length := (List.getElem?_eq_some_iff.mp held.node).1
    have children := HoldsAll.bound children held.below here
    simp only [Tree.size]
    omega

theorem HoldsAll.bound {above : List NodeId} {id : Nat} :
    (trees : List Tree) → body.HoldsAll resolve above id trees → id ≤ body.nodes.length →
      id + Tree.sizeAll trees ≤ body.nodes.length
  | [], _, start => start
  | tree :: rest, held, _ => by
    have others := HoldsAll.bound rest held.2 (Holds.bound tree held.1)
    simp only [Tree.sizeAll]
    omega

end

/-- The descendants of a held tree's root are the ids that follow it. -/
theorem Holds.descendants {above : List NodeId} {id : Nat} {tree : Tree}
    (held : body.Holds resolve above id tree) :
    body.descendants id = List.range' (id + 1) (Tree.sizeAll tree.children) := by
  have bound := Holds.bound tree held
  exact Holds.downward tree held (by omega)

end Body

end NullReturns
