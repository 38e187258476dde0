import Mathlib.Data.List.Flatten
import Mathlib.Data.List.Nodup
import NullReturns.Finding
import NullReturns.Proofs.Arena

/-! # Ways up and ways down

A body grows by nodes that are put below nodes it has; the bodies of declared trees come about in this way
too. Whatever the order in which it happens, the links to parents and the lists of children tell the same
tree: a node is listed once, by its parent, and parents have smaller ids than their children. The bounds on
the ways up and down are therefore never reached, and what is below a node are the nodes that it is above.
-/

namespace NullReturns

/-! ## Nodes and lists of nodes -/

section

variable {α : Type} (f : α → α) {front : List α} {i : Nat}

private theorem modify_append_of_lt (inside : i < front.length) (back : List α) :
    (front ++ back).modify i f = front.modify i f ++ back := by
  induction front generalizing i with
  | nil => exact absurd inside (Nat.not_lt_zero i)
  | cons first front ih =>
    cases i with
    | zero => rfl
    | succ i =>
      rw [List.cons_append, List.modify_succ_cons, List.modify_succ_cons, List.cons_append,
        ih (Nat.lt_of_succ_lt_succ inside)]

theorem modify_middle (length : front.length = i) (entry : α) (back : List α) :
    (front ++ entry :: back).modify i f = front ++ f entry :: back := by
  induction front generalizing i with
  | nil =>
    subst length
    rfl
  | cons first front ih =>
    subst length
    rw [List.cons_append, List.length_cons, List.modify_succ_cons, ih rfl, List.cons_append]

end

/-- The node with further children behind those it has. -/
def Node.addChildren (ids : List NodeId) (node : Node) : Node := { node with children := node.children ++ ids }

private theorem Node.addChildren_nil : Node.addChildren [] = id := by
  funext node
  rw [addChildren, List.append_nil]
  rfl

private theorem Node.addChildren_comp (ids ids' : List NodeId) :
    Node.addChildren ids' ∘ Node.addChildren ids = Node.addChildren (ids ++ ids') := by
  funext node
  simp only [Function.comp_apply, addChildren, List.append_assoc]

namespace Body

variable {body : Body}

/-! ## Growing bodies -/

/-- The bodies that come about by putting nodes below nodes that are there and giving nodes constants. -/
inductive IsBuilt : Body → Prop
  | withRoot (kind : BodyKind) (owner : Option MethodId) (root : NodeKind) (target : Option MethodId) :
      IsBuilt (withRoot kind owner root target)
  | push {body : Body} {parent : Nat} (built : IsBuilt body) (present : parent < body.nodes.length)
      (kind : NodeKind) (target : Option MethodId) : IsBuilt (body.push parent kind target)
  | setConstant {body : Body} {id : Nat} (built : IsBuilt body) (present : id < body.nodes.length)
      (constant : Constant) : IsBuilt (body.setConstant id constant)

/-- Links to parents lead to smaller ids, and the children of a node are, in increasing order, the nodes
that have it as their parent. -/
structure IsTree (body : Body) : Prop where
  parent_root : body.parent? 0 = none
  exists_parent : ∀ {id : Nat}, 0 < id → id < body.nodes.length → ∃ parent, body.parent? id = some parent
  parent_lt : ∀ {id parent : Nat}, body.parent? id = some parent → parent < id
  mem_children : ∀ {id parent : Nat}, id ∈ body.children parent ↔ body.parent? id = some parent
  children_increasing : ∀ id : Nat, (body.children id).Pairwise (· < ·)

theorem lt_of_parent? {id parent : Nat} (link : body.parent? id = some parent) : id < body.nodes.length := by
  obtain ⟨node, found, _⟩ := Option.bind_eq_some_iff.mp link
  exact (List.getElem?_eq_some_iff.mp found).1

private theorem parent?_of_le {id : Nat} (outside : body.nodes.length ≤ id) : body.parent? id = none := by
  rw [parent?, List.getElem?_eq_none outside, Option.bind_none]

section

variable (body) (parent : Nat) (kind : NodeKind) (target : Option MethodId)

private theorem push_eq :
    body.push parent kind target =
      ⟨body.kind, body.owner, body.nodes.modify parent (Node.addChildren [body.nodes.length]) ++
        [⟨kind, target, some parent, [], none⟩]⟩ := rfl

private theorem length_push : (body.push parent kind target).nodes.length = body.nodes.length + 1 := by
  simp only [push, List.length_append, List.length_modify, List.length_singleton]

private theorem getElem?_push (id : Nat) :
    (body.push parent kind target).nodes[id]? =
      if id = body.nodes.length then some ⟨kind, target, some parent, [], none⟩
      else body.nodes[id]?.map fun node =>
        if parent = id then node.addChildren [body.nodes.length] else node := by
  rcases Nat.lt_trichotomy id body.nodes.length with inside | rfl | outside
  · rw [if_neg (Nat.ne_of_lt inside), push_eq, List.getElem?_append_left (by rwa [List.length_modify]),
      List.getElem?_modify]
    rfl
  · simp [push]
  · rw [if_neg (Nat.ne_of_gt outside), List.getElem?_eq_none (Nat.le_of_lt outside), Option.map_none]
    exact List.getElem?_eq_none (by rw [length_push]; omega)

private theorem parent?_push (id : Nat) :
    (body.push parent kind target).parent? id =
      if id = body.nodes.length then some parent else body.parent? id := by
  rw [parent?, getElem?_push]
  split
  · rfl
  · rw [parent?, Option.bind_map]
    congr 1
    funext node
    simp only [Function.comp_apply]
    split <;> rfl

private theorem children_push (present : parent < body.nodes.length) (id : Nat) :
    (body.push parent kind target).children id =
      if id = parent then body.children id ++ [body.nodes.length] else body.children id := by
  rw [children, getElem?_push, children]
  by_cases last : id = body.nodes.length
  · have other : id ≠ parent := by omega
    rw [if_pos last, if_neg other, List.getElem?_eq_none (by omega)]
    rfl
  · rw [if_neg last]
    cases found : body.nodes[id]? with
    | none =>
      have other : id ≠ parent := by
        rintro rfl
        exact absurd (List.getElem?_eq_none_iff.mp found) (by omega)
      rw [if_neg other]
      rfl
    | some node =>
      rw [Option.map_some, Option.elim_some, Option.elim_some]
      by_cases same : id = parent
      · rw [if_pos same.symm, if_pos same, Node.addChildren]
      · rw [if_neg (Ne.symm same), if_neg same]

end

section

variable (body) (changed : Nat) (constant : Constant)

private theorem length_setConstant : (body.setConstant changed constant).nodes.length = body.nodes.length := by
  rw [setConstant, List.length_modify]

private theorem getElem?_setConstant (id : Nat) :
    (body.setConstant changed constant).nodes[id]? =
      body.nodes[id]?.map fun node => if changed = id then { node with constant := some constant } else node := by
  rw [setConstant, List.getElem?_modify]
  rfl

private theorem parent?_setConstant (id : Nat) : (body.setConstant changed constant).parent? id = body.parent? id := by
  rw [parent?, getElem?_setConstant, parent?, Option.bind_map]
  congr 1
  funext node
  simp only [Function.comp_apply]
  split <;> rfl

private theorem children_setConstant (id : Nat) :
    (body.setConstant changed constant).children id = body.children id := by
  rw [children, getElem?_setConstant, children]
  cases body.nodes[id]? with
  | none => rfl
  | some node =>
    rw [Option.map_some, Option.elim_some, Option.elim_some]
    split <;> rfl

end

private theorem isTree_withRoot (kind : BodyKind) (owner : Option MethodId) (root : NodeKind)
    (target : Option MethodId) :
    (withRoot kind owner root target).IsTree := by
  have parents (id : Nat) : (withRoot kind owner root target).parent? id = none := by
    cases id <;> rfl
  have children (id : Nat) : (withRoot kind owner root target).children id = [] := by
    cases id <;> rfl
  refine ⟨parents 0, ?_, ?_, ?_, ?_⟩
  · intro id positive inside
    have bound : id < 1 := inside
    omega
  · intro id parent link
    rw [parents] at link
    exact absurd link (Option.some_ne_none parent).symm
  · intro id parent
    rw [children, parents]
    simp only [List.not_mem_nil, reduceCtorEq]
  · intro id
    rw [children]
    exact List.Pairwise.nil

/-- The new node comes last in the list of its parent's children, and has the greatest id. -/
theorem IsTree.push (tree : body.IsTree) {parent : Nat} (present : parent < body.nodes.length) (kind : NodeKind)
    (target : Option MethodId) : (body.push parent kind target).IsTree := by
  refine ⟨?_, ?_, ?_, ?_, ?_⟩
  · rw [parent?_push, if_neg (by omega)]
    exact tree.parent_root
  · intro id positive inside
    rw [length_push] at inside
    rw [parent?_push]
    split
    · exact ⟨parent, rfl⟩
    · exact tree.exists_parent positive (by omega)
  · intro id above link
    rw [parent?_push] at link
    split at link
    · obtain rfl := Option.some.inj link
      omega
    · exact tree.parent_lt link
  · intro id above
    rw [children_push body parent kind target present, parent?_push]
    by_cases last : id = body.nodes.length
    · -- The old lists do not name the new node, since it had no parent before.
      have unlisted : id ∉ body.children above := by
        rw [tree.mem_children, parent?_of_le (by omega)]
        exact (Option.some_ne_none above).symm
      rw [if_pos last, Option.some.injEq]
      split
      · rename_i same
        exact ⟨fun _ => same.symm, fun _ => List.mem_append_right _ (List.mem_singleton.mpr last)⟩
      · rename_i other
        exact ⟨fun listed => absurd listed unlisted, fun same => absurd same.symm other⟩
    · rw [if_neg last, ← tree.mem_children]
      split
      · simp only [List.mem_append, List.mem_singleton, last, or_false]
      · rfl
  · intro id
    rw [children_push body parent kind target present]
    split
    · refine List.pairwise_append.mpr ⟨tree.children_increasing id, List.pairwise_singleton _ _, ?_⟩
      intro child listed last new
      obtain rfl := List.mem_singleton.mp new
      exact lt_of_parent? (tree.mem_children.mp listed)
    · exact tree.children_increasing id

theorem IsTree.setConstant (tree : body.IsTree) (changed : Nat) (constant : Constant) :
    (body.setConstant changed constant).IsTree := by
  have parents := parent?_setConstant body changed constant
  have children := children_setConstant body changed constant
  refine ⟨?_, ?_, ?_, ?_, ?_⟩
  · rw [parents]
    exact tree.parent_root
  · intro id positive inside
    rw [length_setConstant] at inside
    rw [parents]
    exact tree.exists_parent positive inside
  · intro id parent link
    rw [parents] at link
    exact tree.parent_lt link
  · intro id parent
    rw [children, parents]
    exact tree.mem_children
  · intro id
    rw [children]
    exact tree.children_increasing id

theorem IsBuilt.isTree (built : body.IsBuilt) : body.IsTree := by
  induction built with
  | withRoot kind owner root target => exact isTree_withRoot kind owner root target
  | push _ present kind target ih => exact ih.push present kind target
  | setConstant _ _ constant ih => exact ih.setConstant _ constant

/-! ## Bodies of declared trees -/

/-- Gives a node its constant, if it has one. -/
def withConstant (body : Body) (id : NodeId) : Option Constant → Body
  | none => body
  | some constant => body.setConstant id constant

mutual

/-- Puts a tree below a node: first its root, with its constant, and then what is below the root. -/
def pushTree (resolve : String → Option MethodId) (parent : NodeId) (body : Body) : Tree → Body
  | .node kind children constant target _ =>
    let id := body.nodes.length
    let pushed := body.push parent kind (if kind = .invocation then target.bind resolve else none)
    pushTrees resolve id (pushed.withConstant id constant) children

/-- Puts sibling trees below a node one after the other. -/
def pushTrees (resolve : String → Option MethodId) (parent : NodeId) (body : Body) : List Tree → Body
  | [] => body
  | tree :: rest => pushTrees resolve parent (pushTree resolve parent body tree) rest

end

/-- The body of a declared tree, put together node by node. -/
def assemble (kind : BodyKind) (owner : Option MethodId) (resolve : String → Option MethodId) : Tree → Body
  | .node root children constant target _ =>
    let start := withRoot kind owner root (if root = .invocation then target.bind resolve else none)
    pushTrees resolve 0 (start.withConstant 0 constant) children

variable (resolve : String → Option MethodId)

private theorem withConstant_concat {kind : BodyKind} {owner : Option MethodId} {front : List Node} {id : Nat}
    (length : front.length = id) (root : NodeKind) (link : Option MethodId) (parent : Option NodeId)
    (constant : Option Constant) :
    withConstant ⟨kind, owner, front ++ [⟨root, link, parent, [], none⟩]⟩ id constant =
      ⟨kind, owner, front ++ [⟨root, link, parent, [], constant⟩]⟩ := by
  cases constant with
  | none => rfl
  | some constant => rw [withConstant, setConstant, modify_middle _ length]

mutual

/-- The nodes of a tree that is put below a node stand one after the other behind those that were there. -/
theorem pushTree_eq (parent : Nat) :
    (tree : Tree) → {body : Body} → parent < body.nodes.length →
      pushTree resolve parent body tree =
        ⟨body.kind, body.owner, body.nodes.modify parent (Node.addChildren [body.nodes.length]) ++
          flatten resolve (some parent) body.nodes.length tree⟩
  | .node kind children constant target span, body, present => by
    have length : (body.nodes.modify parent (Node.addChildren [body.nodes.length])).length = body.nodes.length :=
      List.length_modify ..
    rw [pushTree, push_eq, flatten]
    generalize body.nodes.modify parent (Node.addChildren [body.nodes.length]) = front at length ⊢
    generalize (if kind = .invocation then target.bind resolve else none) = link
    have last (node : Node) : (front ++ [node]).length = body.nodes.length + 1 := by
      rw [List.length_append, length, List.length_singleton]
    -- The root of the tree gets its children when they are put below it.
    rw [withConstant_concat length, pushTrees_eq body.nodes.length children (by rw [last]; omega), last,
      modify_middle _ length, List.append_assoc]
    rfl

private theorem pushTrees_eq (parent : Nat) :
    (trees : List Tree) → {body : Body} → parent < body.nodes.length →
      pushTrees resolve parent body trees =
        ⟨body.kind, body.owner, body.nodes.modify parent (Node.addChildren (siblingIds body.nodes.length trees)) ++
          flattenAll resolve parent body.nodes.length trees⟩
  | [], body, present => by
    rw [pushTrees, siblingIds, Node.addChildren_nil, List.modify_id, flattenAll, List.append_nil]
  | tree :: rest, body, present => by
    have further : parent < (pushTree resolve parent body tree).nodes.length := by
      rw [pushTree_eq parent tree present, List.length_append, List.length_modify]
      omega
    rw [pushTrees, pushTrees_eq parent rest further, pushTree_eq parent tree present, List.length_append,
      List.length_modify, length_flatten, modify_append_of_lt _ (by rwa [List.length_modify]),
      List.modify_modify_eq, Node.addChildren_comp, List.append_assoc]
    rfl

end

/-- Putting a body together node by node gives the body of the tree. -/
theorem assemble_eq (kind : BodyKind) (owner : Option MethodId) (tree : Tree) :
    assemble kind owner resolve tree = ofTree kind owner resolve tree := by
  cases tree with
  | node root children constant target span =>
    rw [assemble, ofTree, flatten]
    generalize (if root = .invocation then target.bind resolve else none) = link
    have start := @withConstant_concat kind owner [] 0 rfl root link none constant
    rw [List.nil_append, List.nil_append] at start
    have below := @pushTrees_eq resolve 0 children ⟨kind, owner, [⟨root, link, none, [], constant⟩]⟩ Nat.zero_lt_one
    rw [withRoot, start, below]
    rfl

private theorem IsBuilt.withConstant (built : body.IsBuilt) {id : Nat} (present : id < body.nodes.length)
    (constant : Option Constant) : (body.withConstant id constant).IsBuilt := by
  cases constant with
  | none => exact built
  | some constant => exact built.setConstant present constant

private theorem length_withConstant (body : Body) (id : Nat) (constant : Option Constant) :
    (body.withConstant id constant).nodes.length = body.nodes.length := by
  cases constant with
  | none => rfl
  | some constant => exact length_setConstant body id constant

mutual

private theorem IsBuilt.pushTree (parent : Nat) :
    (tree : Tree) → {body : Body} → body.IsBuilt → parent < body.nodes.length →
      (pushTree resolve parent body tree).IsBuilt
  | .node kind children constant target span, body, built, present => by
    rw [Body.pushTree]
    have last : body.nodes.length <
        (body.push parent kind (if kind = .invocation then target.bind resolve else none)).nodes.length := by
      rw [length_push]
      omega
    have root := (built.push present kind _).withConstant last constant
    exact IsBuilt.pushTrees body.nodes.length children root (by rwa [length_withConstant])

private theorem IsBuilt.pushTrees (parent : Nat) :
    (trees : List Tree) → {body : Body} → body.IsBuilt → parent < body.nodes.length →
      (pushTrees resolve parent body trees).IsBuilt
  | [], body, built, _ => by
    rw [Body.pushTrees]
    exact built
  | tree :: rest, body, built, present => by
    rw [Body.pushTrees]
    refine IsBuilt.pushTrees parent rest (IsBuilt.pushTree parent tree built present) ?_
    rw [pushTree_eq resolve parent tree present, List.length_append, List.length_modify]
    omega

end

/-- The bodies of declared trees are built like all others. -/
theorem isBuilt_ofTree (kind : BodyKind) (owner : Option MethodId) (tree : Tree) :
    (ofTree kind owner resolve tree).IsBuilt := by
  rw [← assemble_eq]
  cases tree with
  | node root children constant target span =>
    have start := (IsBuilt.withRoot kind owner root (if root = .invocation then target.bind resolve else none))
      |>.withConstant Nat.zero_lt_one constant
    exact start.pushTrees resolve 0 children (by rw [length_withConstant]; exact Nat.zero_lt_one)

namespace IsTree

variable (tree : body.IsTree)

include tree

private theorem lt_of_mem_children {id child : Nat} (listed : child ∈ body.children id) :
    id < child ∧ child < body.nodes.length :=
  ⟨tree.parent_lt (tree.mem_children.mp listed), lt_of_parent? (tree.mem_children.mp listed)⟩

theorem nodup_children (id : Nat) : (body.children id).Nodup :=
  (tree.children_increasing id).imp Nat.ne_of_lt

theorem count_children {id parent : Nat} (link : body.parent? id = some parent) (other : Nat) :
    (body.children other).count id = if other = parent then 1 else 0 := by
  split
  · rename_i same
    exact List.count_eq_one_of_mem (tree.nodup_children other) (tree.mem_children.mpr (same ▸ link))
  · rename_i different
    apply List.count_eq_zero_of_not_mem
    rw [tree.mem_children, link, Option.some.injEq]
    exact Ne.symm different

/-! ## Ways up -/

/-- A way up has fewer steps than the id it starts from, so that any greater number of steps will do. -/
theorem upward_eq {id steps steps' : Nat} (enough : id ≤ steps) (enough' : id ≤ steps') :
    body.upward steps (body.parent? id) = body.upward steps' (body.parent? id) := by
  induction id using Nat.strongRecOn generalizing steps steps' with
  | ind id ih =>
    cases link : body.parent? id with
    | none => cases steps <;> cases steps' <;> rfl
    | some parent =>
      have smaller := tree.parent_lt link
      obtain ⟨steps, rfl⟩ : ∃ fewer, steps = fewer + 1 := ⟨steps - 1, by omega⟩
      obtain ⟨steps', rfl⟩ : ∃ fewer, steps' = fewer + 1 := ⟨steps' - 1, by omega⟩
      have further : body.upward steps (body.parent? parent) = body.upward steps' (body.parent? parent) :=
        ih parent smaller (by omega) (by omega)
      rw [upward, upward, further]

/-- The nodes above a node are its parent and the nodes above that one. -/
theorem ancestors_eq (id : Nat) :
    body.ancestors id = (body.parent? id).elim [] fun parent => parent :: body.ancestors parent := by
  rw [ancestors]
  cases link : body.parent? id with
  | none => cases body.nodes.length <;> rfl
  | some parent =>
    have smaller := tree.parent_lt link
    have inside := lt_of_parent? link
    obtain ⟨steps, length⟩ : ∃ fewer, body.nodes.length = fewer + 1 := ⟨body.nodes.length - 1, by omega⟩
    have further : body.upward steps (body.parent? parent) = body.upward (steps + 1) (body.parent? parent) :=
      tree.upward_eq (by omega) (by omega)
    rw [Option.elim_some, ancestors, length, upward, further]

theorem ancestors_of_parent? {id parent : Nat} (link : body.parent? id = some parent) :
    body.ancestors id = parent :: body.ancestors parent := by
  rw [tree.ancestors_eq, link, Option.elim_some]

theorem lt_of_mem_ancestors {id above : Nat} (higher : above ∈ body.ancestors id) :
    above < id ∧ id < body.nodes.length := by
  induction id using Nat.strongRecOn with
  | ind id ih =>
    rw [tree.ancestors_eq] at higher
    cases link : body.parent? id with
    | none =>
      rw [link, Option.elim_none] at higher
      exact absurd higher List.not_mem_nil
    | some parent =>
      have smaller := tree.parent_lt link
      rw [link, Option.elim_some] at higher
      refine ⟨?_, lt_of_parent? link⟩
      rcases List.mem_cons.mp higher with rfl | higher
      · exact smaller
      · have further := (ih parent smaller higher).1
        omega

/-- Above a node is what one of its ancestors has as its parent. -/
theorem mem_ancestors_iff {id above : Nat} :
    above ∈ body.ancestors id ↔ ∃ child ∈ id :: body.ancestors id, body.parent? child = some above := by
  induction id using Nat.strongRecOn with
  | ind id ih =>
    cases link : body.parent? id with
    | none =>
      rw [tree.ancestors_eq, link, Option.elim_none]
      simp only [List.not_mem_nil, List.mem_singleton, exists_eq_left, link, reduceCtorEq]
    | some parent =>
      have further := @ih parent (tree.parent_lt link)
      rw [tree.ancestors_of_parent? link]
      constructor
      · intro higher
        rcases List.mem_cons.mp higher with rfl | higher
        · exact ⟨id, List.mem_cons_self, link⟩
        · obtain ⟨child, between, up⟩ := further.mp higher
          exact ⟨child, List.mem_cons_of_mem _ between, up⟩
      · rintro ⟨child, between, up⟩
        rcases List.mem_cons.mp between with rfl | between
        · obtain rfl := Option.some.inj (link.symm.trans up)
          exact List.mem_cons_self
        · exact List.mem_cons_of_mem _ (further.mpr ⟨child, between, up⟩)

theorem mem_ancestors_trans {id between above : Nat} (lower : between ∈ body.ancestors id)
    (upper : above ∈ body.ancestors between) : above ∈ body.ancestors id := by
  induction id using Nat.strongRecOn with
  | ind id ih =>
    obtain ⟨parent, link⟩ : ∃ parent, body.parent? id = some parent := by
      obtain ⟨smaller, inside⟩ := tree.lt_of_mem_ancestors lower
      exact tree.exists_parent (by omega) inside
    rw [tree.ancestors_of_parent? link] at lower ⊢
    rcases List.mem_cons.mp lower with rfl | lower
    · exact List.mem_cons_of_mem _ upper
    · exact List.mem_cons_of_mem _ (ih parent (tree.parent_lt link) lower)

/-- Of two nodes above a node one is above the other. -/
theorem ancestors_comparable {id first second : Nat} (above : first ∈ id :: body.ancestors id)
    (above' : second ∈ id :: body.ancestors id) :
    first = second ∨ first ∈ body.ancestors second ∨ second ∈ body.ancestors first := by
  induction id using Nat.strongRecOn with
  | ind id ih =>
    rcases List.mem_cons.mp above with rfl | higher
    · rcases List.mem_cons.mp above' with rfl | higher'
      · exact .inl rfl
      · exact .inr (.inr higher')
    · rcases List.mem_cons.mp above' with rfl | higher'
      · exact .inr (.inl higher)
      · cases link : body.parent? id with
        | none =>
          rw [tree.ancestors_eq, link, Option.elim_none] at higher
          exact absurd higher List.not_mem_nil
        | some parent =>
          rw [tree.ancestors_of_parent? link] at higher higher'
          exact ih parent (tree.parent_lt link) higher higher'

/-- All nodes are below the root. -/
theorem root_mem_ancestors {id : Nat} (positive : 0 < id) (inside : id < body.nodes.length) :
    0 ∈ body.ancestors id := by
  induction id using Nat.strongRecOn with
  | ind id ih =>
    obtain ⟨parent, link⟩ := tree.exists_parent positive inside
    have smaller := tree.parent_lt link
    rw [tree.ancestors_of_parent? link]
    rcases Nat.eq_zero_or_pos parent with root | lower
    · exact root ▸ List.mem_cons_self
    · exact List.mem_cons_of_mem _ (ih parent smaller lower (by omega))

/-! ## Ways down -/

/-- What holds of a node as soon as it holds of its children holds of all nodes. -/
theorem induction_down {holds : Nat → Prop} (step : ∀ id, (∀ child ∈ body.children id, holds child) → holds id)
    (id : Nat) : holds id := by
  -- Children are closer to the end of the arena.
  generalize left : body.nodes.length - id = distance
  induction distance using Nat.strongRecOn generalizing id with
  | ind distance ih =>
    apply step
    intro child listed
    have bounds := tree.lt_of_mem_children listed
    exact ih (body.nodes.length - child) (by omega) child rfl

private theorem children_eq_nil {id : Nat} (last : body.nodes.length ≤ id + 1) : body.children id = [] := by
  apply List.eq_nil_iff_forall_not_mem.mpr
  intro child listed
  have bounds := tree.lt_of_mem_children listed
  omega

/-- A way down has fewer steps than there are ids from its start on. -/
theorem downward_eq {depth depth' id : Nat} (deep : body.nodes.length ≤ id + depth)
    (deep' : body.nodes.length ≤ id + depth') : body.downward depth id = body.downward depth' id := by
  induction depth generalizing id depth' with
  | zero =>
    cases depth' with
    | zero => rfl
    | succ depth' => rw [downward, downward, tree.children_eq_nil (by omega), List.flatMap_nil]
  | succ depth ih =>
    cases depth' with
    | zero => rw [downward, downward, tree.children_eq_nil (by omega), List.flatMap_nil]
    | succ depth' =>
      rw [downward, downward]
      refine List.flatMap_congr fun child listed => ?_
      have bounds := tree.lt_of_mem_children listed
      have further : body.downward depth child = body.downward depth' child := ih (by omega) (by omega)
      rw [further]

/-- Below a node is one child with what is below it after the other. -/
theorem descendants_eq (id : Nat) :
    body.descendants id = (body.children id).flatMap fun child => child :: body.descendants child := by
  have deeper : body.descendants id = body.downward (body.nodes.length + 1) id :=
    tree.downward_eq (by omega) (by omega)
  rw [deeper, downward]
  rfl

/-- The two ways tell the same: below a node are the nodes that it is above. -/
theorem mem_descendants_iff {id below : Nat} : below ∈ body.descendants id ↔ id ∈ body.ancestors below := by
  induction id using tree.induction_down with
  | step id ih =>
    rw [tree.descendants_eq, tree.mem_ancestors_iff, List.mem_flatMap]
    constructor
    · rintro ⟨child, listed, lower⟩
      refine ⟨child, ?_, tree.mem_children.mp listed⟩
      rcases List.mem_cons.mp lower with rfl | lower
      · exact List.mem_cons_self
      · exact List.mem_cons_of_mem _ ((ih child listed).mp lower)
    · rintro ⟨child, between, up⟩
      have listed : child ∈ body.children id := tree.mem_children.mpr up
      refine ⟨child, listed, ?_⟩
      rcases List.mem_cons.mp between with rfl | higher
      · exact List.mem_cons_self
      · exact List.mem_cons_of_mem _ ((ih child listed).mpr higher)

end IsTree

end Body

end NullReturns
