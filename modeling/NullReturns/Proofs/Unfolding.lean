import NullReturns.Finding
import NullReturns.Proofs.Acceptance
import NullReturns.Proofs.Ancestry
import Mathlib.Data.List.Forall2
import Mathlib.Data.Option.Basic

/-! # Unfolding bodies

Following the lists of children from the root of a body gives the declared tree back, with the methods that
its calls lead to in place of their keys. The id of a node is its place among the declared nodes in document
order: from that id on, the body unfolds to the part of the tree below the declared node. What is below the
root is therefore every other node, and the return statements are found among all nodes but the root.
-/

namespace NullReturns

/-- A tree of nodes whose calls lead to methods. -/
inductive Shape where
  | node (kind : NodeKind) (target : Option MethodId) (constant : Option Constant) (children : List Shape)

namespace Tree

mutual

/-- The declared tree, with the methods that the targets of calls are resolved to. -/
def resolved (resolve : String → Option MethodId) : Tree → Shape
  | .node kind children constant target _ =>
    .node kind (if kind = .invocation then target.bind resolve else none) constant (resolvedAll resolve children)

def resolvedAll (resolve : String → Option MethodId) : List Tree → List Shape
  | [] => []
  | tree :: rest => tree.resolved resolve :: resolvedAll resolve rest

end

mutual

private theorem length_nodes : (tree : Tree) → tree.nodes.length = tree.size
  | .node _ children _ _ _ => by
    rw [nodes, size, List.length_cons, length_nodesAll children]
    omega

private theorem length_nodesAll : (trees : List Tree) → (nodesAll trees).length = sizeAll trees
  | [] => rfl
  | tree :: rest => by rw [nodesAll, sizeAll, List.length_append, length_nodes tree, length_nodesAll rest]

end

private theorem getElem?_nodes_zero (tree : Tree) : tree.nodes[0]? = some tree := by
  cases tree
  rw [nodes, List.getElem?_cons_zero]

end Tree

namespace Body

/-- What the lists of children show from a node on. -/
inductive Unfolds (body : Body) : NodeId → Shape → Prop
  | node {id : NodeId} {node : Node} {shapes : List Shape} (found : body.nodes[id]? = some node)
      (below : List.Forall₂ (Unfolds body) node.children shapes) :
      Unfolds body id (.node node.kind node.target node.constant shapes)

variable {body : Body} {resolve : String → Option MethodId}

mutual

theorem Unfolds.unique {id : NodeId} {shape' : Shape} :
    (shape : Shape) → body.Unfolds id shape → body.Unfolds id shape' → shape = shape'
  | .node kind target constant shapes, shown, shown' => by
    obtain ⟨found, below⟩ := shown
    obtain ⟨found', below'⟩ := shown'
    obtain rfl := Option.some.inj (found.symm.trans found')
    rw [Unfolds.unique_all shapes below below']

private theorem Unfolds.unique_all {ids : List NodeId} {shapes' : List Shape} :
    (shapes : List Shape) → List.Forall₂ body.Unfolds ids shapes → List.Forall₂ body.Unfolds ids shapes' →
      shapes = shapes'
  | [], shown, shown' => by
    cases shown
    cases shown'
    rfl
  | shape :: rest, shown, shown' => by
    obtain _ | ⟨first, others⟩ := shown
    obtain _ | ⟨first', others'⟩ := shown'
    rw [Unfolds.unique shape first first', Unfolds.unique_all rest others others']

end

mutual

/-- A body unfolds to the trees that it holds. -/
theorem Holds.unfolds {above : List NodeId} {id : NodeId} :
    (tree : Tree) → body.Holds resolve above id tree → body.Unfolds id (tree.resolved resolve)
  | .node kind children constant target span, held => by
    rw [Tree.resolved]
    exact .node held.node (HoldsAll.unfolds children held.below)

private theorem HoldsAll.unfolds {above : List NodeId} {id : NodeId} :
    (trees : List Tree) → body.HoldsAll resolve above id trees →
      List.Forall₂ body.Unfolds (siblingIds id trees) (Tree.resolvedAll resolve trees)
  | [], _ => .nil
  | tree :: rest, held => by
    rw [siblingIds, Tree.resolvedAll]
    exact .cons (Holds.unfolds tree held.1) (HoldsAll.unfolds rest held.2)

end

mutual

/-- A body that holds a tree holds every part of it, at the place that it has in document order. -/
theorem Holds.part {above : List NodeId} {id place : Nat} {part : Tree} :
    (tree : Tree) → body.Holds resolve above id tree → tree.nodes[place]? = some part →
      ∃ above', body.Holds resolve above' (id + place) part
  | .node kind children constant target span, held, listed => by
    rw [Tree.nodes] at listed
    cases place with
    | zero =>
      obtain rfl := Option.some.inj listed
      exact ⟨above, held⟩
    | succ place =>
      rw [List.getElem?_cons_succ] at listed
      have deeper := HoldsAll.part children held.below listed
      rwa [Nat.add_assoc, Nat.add_comm 1] at deeper

theorem HoldsAll.part {above : List NodeId} {id place : Nat} {part : Tree} :
    (trees : List Tree) → body.HoldsAll resolve above id trees → (Tree.nodesAll trees)[place]? = some part →
      ∃ above', body.Holds resolve above' (id + place) part
  | [], _, listed => by simp only [Tree.nodesAll, List.getElem?_nil, reduceCtorEq] at listed
  | tree :: rest, held, listed => by
    rw [Tree.nodesAll, List.getElem?_append, Tree.length_nodes] at listed
    split at listed
    · exact Holds.part tree held.1 listed
    · rename_i behind
      have later := HoldsAll.part rest held.2 listed
      rwa [Nat.add_assoc, Nat.add_sub_cancel' (Nat.le_of_not_lt behind)] at later

end

/-! ## One tree -/

/-- The body is the declared tree: it has a node for each declared one, and the ids of the nodes are their
places in document order. -/
structure Depicts (body : Body) (resolve : String → Option MethodId) (tree : Tree) : Prop where
  one_each : body.nodes.length = tree.nodes.length
  below_root : body.descendants 0 = List.range' 1 (body.nodes.length - 1)
  whole : ∀ shape, body.Unfolds 0 shape ↔ shape = tree.resolved resolve
  parts : ∀ id shape, body.Unfolds id shape ↔ ∃ part, tree.nodes[id]? = some part ∧ shape = part.resolved resolve

section

variable (kind : BodyKind) (owner : Option MethodId) (resolve : String → Option MethodId) (tree : Tree)

private theorem length_ofTree : (ofTree kind owner resolve tree).nodes.length = tree.nodes.length := by
  rw [ofTree, length_flatten, Tree.length_nodes]

/-- The declared node at each place. -/
theorem holds_part {id : Nat} {part : Tree} (listed : tree.nodes[id]? = some part) :
    ∃ above, (ofTree kind owner resolve tree).Holds resolve above id part := by
  have held := Holds.part tree (holds_ofTree kind owner resolve tree) listed
  rwa [Nat.zero_add] at held

private theorem descendants_root :
    (ofTree kind owner resolve tree).descendants 0 = List.range' 1 (tree.nodes.length - 1) := by
  rw [(holds_ofTree kind owner resolve tree).descendants, Tree.length_nodes, Tree.size_eq, Nat.add_sub_cancel_left]

theorem unfolds_iff (id : NodeId) (shape : Shape) :
    (ofTree kind owner resolve tree).Unfolds id shape ↔
      ∃ part, tree.nodes[id]? = some part ∧ shape = part.resolved resolve := by
  constructor
  · intro shown
    have inside : id < tree.nodes.length := by
      obtain ⟨found, _⟩ := shown
      rw [← length_ofTree kind owner resolve tree]
      exact (List.getElem?_eq_some_iff.mp found).1
    obtain ⟨above, held⟩ := holds_part kind owner resolve tree (List.getElem?_eq_getElem inside)
    exact ⟨_, List.getElem?_eq_getElem inside, shown.unique shape (Holds.unfolds _ held)⟩
  · rintro ⟨part, listed, rfl⟩
    obtain ⟨above, held⟩ := holds_part kind owner resolve tree listed
    exact Holds.unfolds part held

private theorem depicts_ofTree : (ofTree kind owner resolve tree).Depicts resolve tree where
  one_each := length_ofTree kind owner resolve tree
  below_root := by rw [descendants_root, length_ofTree]
  whole := by
    intro shape
    rw [unfolds_iff, Tree.getElem?_nodes_zero]
    simp only [Option.some.injEq, exists_eq_left']
  parts := unfolds_iff kind owner resolve tree

private theorem kind?_ofTree (id : NodeId) :
    (ofTree kind owner resolve tree).kind? id = tree.nodes[id]?.map (·.kind) := by
  cases listed : tree.nodes[id]? with
  | none =>
    have outside := List.getElem?_eq_none_iff.mp listed
    rw [← length_ofTree kind owner resolve tree] at outside
    rw [kind?, List.getElem?_eq_none outside]
    rfl
  | some part =>
    obtain ⟨above, held⟩ := holds_part kind owner resolve tree listed
    exact held.kind?

end

end Body

/-- Linking a declared body loses nothing of its tree, and it is the same as putting the body together node by
node, from its root on. -/
theorem Snapshot.linkBody_depicts (snapshot : Snapshot) (declared : DeclaredBody) :
    (snapshot.linkBody declared).Depicts snapshot.methodId? declared.root ∧
      Body.assemble declared.kind (declared.owner.bind snapshot.methodId?) snapshot.methodId? declared.root =
        snapshot.linkBody declared :=
  ⟨Body.depicts_ofTree .., Body.assemble_eq ..⟩

/-! ## Return statements -/

namespace Body

/-- The ids of all return statements in increasing order, wherever they are. -/
def returnIds (body : Body) : List NodeId :=
  (List.range body.nodes.length).filter fun id => body.kind? id == some .return

theorem mem_returnIds {body : Body} {id : NodeId} : id ∈ body.returnIds ↔ body.kind? id = some .return := by
  rw [returnIds, List.mem_filter, List.mem_range, beq_iff_eq, and_iff_right_iff_imp]
  intro statement
  obtain ⟨node, found, _⟩ := Option.map_eq_some_iff.mp statement
  exact (List.getElem?_eq_some_iff.mp found).1

/-- The search for return statements starts below the root. -/
theorem Depicts.returns {body : Body} {resolve : String → Option MethodId} {tree : Tree}
    (depicts : body.Depicts resolve tree) : body.returns = body.returnIds.filter (0 < ·) := by
  obtain ⟨count, length⟩ : ∃ count, body.nodes.length = count + 1 := by
    rw [depicts.one_each, Tree.length_nodes, Tree.size_eq, Nat.add_comm]
    exact ⟨_, rfl⟩
  rw [Body.returns, returnIds, depicts.below_root, length, Nat.add_sub_cancel, List.range_eq_range', List.range'_succ,
    List.filter_filter, List.filter_cons_of_neg (by simp)]
  refine List.filter_congr fun id listed => ?_
  have positive : 0 < id := (List.mem_range'_1.mp listed).1
  simp [positive]

end Body

/-- The return statements of a linked body are, in increasing order, all nodes declared as such except for the
root. One is left out exactly when the root itself is a return statement. -/
theorem Snapshot.returns_linkBody (snapshot : Snapshot) (declared : DeclaredBody) :
    (snapshot.linkBody declared).returns = (snapshot.linkBody declared).returnIds.filter (0 < ·) ∧
    (∀ id, id ∈ (snapshot.linkBody declared).returns ↔
      0 < id ∧ ∃ node, declared.root.nodes[id]? = some node ∧ node.kind = .return) ∧
    ((snapshot.linkBody declared).returns = (snapshot.linkBody declared).returnIds ↔
      declared.root.kind ≠ .return) := by
  have kinds := Body.kind?_ofTree declared.kind (declared.owner.bind snapshot.methodId?) snapshot.methodId?
    declared.root
  have listed (id : NodeId) : id ∈ (snapshot.linkBody declared).returnIds ↔
      ∃ node, declared.root.nodes[id]? = some node ∧ node.kind = .return := by
    rw [Body.mem_returnIds, linkBody, kinds, Option.map_eq_some_iff]
  have returns := (Body.depicts_ofTree declared.kind (declared.owner.bind snapshot.methodId?) snapshot.methodId?
    declared.root).returns
  rw [← linkBody] at returns
  refine ⟨returns, fun id => ?_, ?_⟩
  · rw [returns, List.mem_filter, listed, decide_eq_true_iff, and_comm]
  · rw [returns, List.filter_eq_self]
    constructor
    · intro positive root
      have first := (listed 0).mpr ⟨declared.root, Tree.getElem?_nodes_zero declared.root, root⟩
      exact absurd (of_decide_eq_true (positive 0 first)) (Nat.lt_irrefl 0)
    · intro other id statement
      apply decide_eq_true
      apply Nat.pos_of_ne_zero
      rintro rfl
      obtain ⟨node, found, kind⟩ := (listed 0).mp statement
      rw [Tree.getElem?_nodes_zero] at found
      exact other (Option.some.inj found ▸ kind)

/-- The statement `return null;` without a block around it, as the body of a method. -/
def DeclaredBody.loneReturn : DeclaredBody where
  owner := some "A.Get()"
  root := .node .return [.node .literal [] (some .null) none none] none none none

def Snapshot.withLoneReturn : Snapshot where
  types := [{ name := "A", methods := [{ name := "Get", returns := .reference "object" }] }]
  units := [{ uri := "A.cs", bodies := [.loneReturn] }]

/-- The snapshot is accepted and the statement yields null, but as the root it is not looked at. -/
theorem Snapshot.returns_loneReturn :
    withLoneReturn.error? = none ∧
      (withLoneReturn.linkBody .loneReturn).returnIds = [0] ∧
      (withLoneReturn.linkBody .loneReturn).returns = [] ∧
      Report.ofStatement? withLoneReturn.table (withLoneReturn.linkBody .loneReturn) 0 = some ⟨.nullValue, 0, none⟩ ∧
      Report.ofBody? withLoneReturn.table (withLoneReturn.linkBody .loneReturn) = none :=
  ⟨by cbv, by cbv, by cbv, by cbv, by cbv⟩

end NullReturns
