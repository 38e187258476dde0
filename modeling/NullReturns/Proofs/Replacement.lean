import NullReturns.Proofs.DocumentOrder

/-! # Other nodes below a node

Two bodies that differ only in what is below one node. The other nodes are kept with all that is known of
them, under ids that may have changed; a search that goes through both bodies has the same answer if it has
the same answers for these nodes and below the one node. Declared trees that differ below one node have
bodies of this kind.
-/

namespace NullReturns

private theorem findSome?_congr {α β : Type} {f g : α → Option β} {list : List α}
    (same : ∀ entry ∈ list, f entry = g entry) : list.findSome? f = list.findSome? g := by
  induction list with
  | nil => rfl
  | cons entry rest ih =>
    rw [List.findSome?_cons, List.findSome?_cons, same entry List.mem_cons_self,
      ih fun other listed => same other (List.mem_cons_of_mem entry listed)]

private theorem any_eq_isSome_findSome? {α : Type} (p : α → Bool) (list : List α) :
    list.any p = (list.findSome? fun entry => if p entry then some () else none).isSome := by
  rw [List.isSome_findSome?]
  congr 1
  funext entry
  cases p entry <;> rfl

private theorem option_unit_eq {a b : Option Unit} (same : a.isSome = b.isSome) : a = b := by
  cases a <;> cases b <;> simp_all

namespace Body

variable {body old new : Body} {α : Type}

/-! ## Searching below a node -/

private theorem IsTree.findSome?_descendants (tree : body.IsTree) (ask : Nat → Option α) (id : Nat) :
    (body.descendants id).findSome? ask =
      (body.children id).findSome? fun child => (ask child).or ((body.descendants child).findSome? ask) := by
  rw [tree.descendants_eq]
  induction body.children id with
  | nil => rfl
  | cons child others ih =>
    rw [List.flatMap_cons, List.findSome?_append, ih, List.findSome?_cons, List.findSome?_cons]
    cases ask child <;> cases (body.descendants child).findSome? ask <;> rfl

theorem findSome?_returns (body : Body) (ask : NodeId → Option α) :
    body.returns.findSome? ask =
      (body.descendants 0).findSome? fun id => if body.kind? id == some .return then ask id else none := by
  rw [← List.head?_filterMap, returns, List.filterMap_filter, List.head?_filterMap]

/-! ## Other nodes below a node -/

/-- `new` is `old` with other nodes below the node `hole`. All nodes that are not below it have been kept, and
`place` tells where they are now. -/
structure ReplacedBelow (old new : Body) (hole : NodeId) (place : NodeId → NodeId) : Prop where
  built : old.IsBuilt
  built' : new.IsBuilt
  kind : new.kind = old.kind
  owner : new.owner = old.owner
  root : place 0 = 0
  node : ∀ {id node}, old.nodes[id]? = some node → hole ∉ old.ancestors id →
    ∃ kept, new.nodes[place id]? = some kept ∧ kept.kind = node.kind ∧ kept.target = node.target ∧
      kept.constant = node.constant ∧ (id ≠ hole → kept.children = node.children.map place)

namespace ReplacedBelow

variable {hole : Nat} {place : Nat → Nat} (replaced : old.ReplacedBelow new hole place) {id : Nat}

include replaced

theorem kind?_place (inside : id < old.nodes.length) (kept : hole ∉ old.ancestors id) :
    new.kind? (place id) = old.kind? id := by
  have here := List.getElem?_eq_getElem inside
  obtain ⟨node, there, kind, _⟩ := replaced.node here kept
  rw [kind?, kind?, here, there, Option.map_some, Option.map_some, kind]

theorem constant?_place (inside : id < old.nodes.length) (kept : hole ∉ old.ancestors id) :
    new.constant? (place id) = old.constant? id := by
  have here := List.getElem?_eq_getElem inside
  obtain ⟨node, there, _, _, constant, _⟩ := replaced.node here kept
  rw [constant?, constant?, here, there, Option.bind_some, Option.bind_some, constant]

private theorem children_place (inside : id < old.nodes.length) (kept : hole ∉ old.ancestors id) (other : id ≠ hole) :
    new.children (place id) = (old.children id).map place := by
  have here := List.getElem?_eq_getElem inside
  obtain ⟨node, there, _, _, _, moved⟩ := replaced.node here kept
  rw [children, children, here, there, Option.elim_some, Option.elim_some, moved other]

/-- The way up from a node that is kept leads through kept nodes. -/
theorem kept_parent? {parent : Nat} (link : old.parent? id = some parent) (kept : hole ∉ old.ancestors id) :
    parent < old.nodes.length ∧ hole ∉ old.ancestors parent ∧ parent ≠ hole := by
  have tree := replaced.built.isTree
  rw [tree.ancestors_of_parent? link, List.mem_cons, not_or] at kept
  have smaller := tree.parent_lt link
  have inside := lt_of_parent? link
  exact ⟨by omega, kept.2, Ne.symm kept.1⟩

theorem parent?_place (inside : id < old.nodes.length) (kept : hole ∉ old.ancestors id) :
    new.parent? (place id) = (old.parent? id).map place := by
  cases link : old.parent? id with
  | none =>
    have root : id = 0 := by
      by_contra other
      obtain ⟨parent, link'⟩ := replaced.built.isTree.exists_parent (Nat.pos_of_ne_zero other) inside
      exact Option.some_ne_none parent (link'.symm.trans link)
    rw [root, replaced.root, replaced.built'.isTree.parent_root, Option.map_none]
  | some parent =>
    obtain ⟨inside', kept', other⟩ := replaced.kept_parent? link kept
    have listed : id ∈ old.children parent := replaced.built.isTree.mem_children.mpr link
    apply replaced.built'.isTree.mem_children.mp
    rw [replaced.children_place inside' kept' other]
    exact List.mem_map_of_mem listed

theorem ancestors_place (inside : id < old.nodes.length) (kept : hole ∉ old.ancestors id) :
    new.ancestors (place id) = (old.ancestors id).map place := by
  induction id using Nat.strongRecOn with
  | ind id ih =>
    rw [replaced.built'.isTree.ancestors_eq, replaced.parent?_place inside kept, replaced.built.isTree.ancestors_eq]
    cases link : old.parent? id with
    | none => rfl
    | some parent =>
      obtain ⟨inside', kept', _⟩ := replaced.kept_parent? link kept
      have further := ih parent (replaced.built.isTree.parent_lt link) inside' kept'
      simp only [Option.map_some, Option.elim_some, List.map_cons, further]

theorem isNested_place (inside : id < old.nodes.length) (kept : hole ∉ old.ancestors id) :
    new.isNested (place id) = old.isNested id := by
  have tree := replaced.built.isTree
  rw [isNested, isNested, replaced.ancestors_place inside kept, List.any_map, any_eq_isSome_findSome?,
    any_eq_isSome_findSome?]
  congr 1
  apply findSome?_congr
  intro ancestor above
  have bound := (tree.lt_of_mem_ancestors above).1
  have kept' : hole ∉ old.ancestors ancestor := fun higher => kept (tree.mem_ancestors_trans above higher)
  rw [Function.comp_apply, replaced.kind?_place (by omega) kept']

/-! ## The same search in both bodies -/

/-- Two searches that agree on the nodes that are kept, and below the hole as a whole, have the same answer. -/
theorem search_place {ask ask' : Nat → Option α} (inside : id < old.nodes.length) (kept : hole ∉ old.ancestors id)
    (answers : ∀ below ∈ old.descendants id, hole ∉ old.ancestors below → ask' (place below) = ask below)
    (inner : hole ∈ id :: old.descendants id →
      (new.descendants (place hole)).findSome? ask' = (old.descendants hole).findSome? ask) :
    (new.descendants (place id)).findSome? ask' = (old.descendants id).findSome? ask := by
  have tree := replaced.built.isTree
  induction id using tree.induction_down with
  | step id ih =>
    by_cases here : id = hole
    · subst here
      exact inner List.mem_cons_self
    · rw [tree.findSome?_descendants, replaced.built'.isTree.findSome?_descendants,
        replaced.children_place inside kept here, List.findSome?_map]
      apply findSome?_congr
      intro child listed
      have link := tree.mem_children.mp listed
      have kept' : hole ∉ old.ancestors child := by
        rw [tree.ancestors_of_parent? link, List.mem_cons, not_or]
        exact ⟨Ne.symm here, kept⟩
      have part : child :: old.descendants child ⊆ old.descendants id := by
        apply List.Sublist.subset
        apply tree.cons_descendants_sublist
        rw [tree.mem_descendants_iff, tree.ancestors_of_parent? link]
        exact List.mem_cons_self
      have deeper := ih child listed (lt_of_parent? link) kept'
        (fun below within => answers below (part (List.mem_cons_of_mem child within)))
        (fun within => inner (List.mem_cons_of_mem id (part within)))
      rw [Function.comp_apply, answers child (part List.mem_cons_self) kept', deeper]

theorem any_place {p p' : Nat → Bool} (inside : id < old.nodes.length) (kept : hole ∉ old.ancestors id)
    (answers : ∀ below ∈ old.descendants id, hole ∉ old.ancestors below → p' (place below) = p below)
    (inner : hole ∈ id :: old.descendants id →
      (new.descendants (place hole)).any p' = (old.descendants hole).any p) :
    (new.descendants (place id)).any p' = (old.descendants id).any p := by
  simp only [any_eq_isSome_findSome?] at inner ⊢
  congr 1
  apply replaced.search_place inside kept
  · intro below within kept'
    rw [answers below within kept']
  · exact fun within => option_unit_eq (inner within)

end ReplacedBelow

end Body

/-! ## Declared trees -/

namespace Tree

/-- A tree with one tree missing. -/
inductive Context where
  | hole
  | node (kind : NodeKind) (before : List Tree) (inner : Context) (after : List Tree)
      (constant : Option Constant) (target : Option String) (span : Option Span)

namespace Context

/-- The whole tree. -/
def plug (tree : Tree) : Context → Tree
  | .hole => tree
  | .node kind before inner after constant target span =>
    .node kind (before ++ inner.plug tree :: after) constant target span

/-- The number of nodes in front of the missing tree. -/
def offset : Context → Nat
  | .hole => 0
  | .node _ before inner _ _ _ _ => 1 + sizeAll before + inner.offset

end Context

end Tree

/-- The node where other nodes have other ids. -/
def Node.relabel (f : NodeId → NodeId) (node : Node) : Node :=
  { node with parent := node.parent.map f, children := node.children.map f }

namespace Body

variable {resolve : String → Option MethodId} {f : Nat → Nat} {id id' : Nat}

private theorem siblingIds_append (id : Nat) (before after : List Tree) :
    siblingIds id (before ++ after) = siblingIds id before ++ siblingIds (id + Tree.sizeAll before) after := by
  induction before generalizing id with
  | nil => rfl
  | cons tree before ih =>
    rw [List.cons_append, siblingIds, siblingIds, ih, Tree.sizeAll, Nat.add_assoc, List.cons_append]

private theorem flattenAll_append (resolve : String → Option MethodId) (parent id : Nat) (before after : List Tree) :
    flattenAll resolve parent id (before ++ after) =
      flattenAll resolve parent id before ++ flattenAll resolve parent (id + Tree.sizeAll before) after := by
  induction before generalizing id with
  | nil => rfl
  | cons tree before ih =>
    rw [List.cons_append, flattenAll, flattenAll, ih, Tree.sizeAll, Nat.add_assoc, List.append_assoc]

private theorem map_siblingIds {trees : List Tree} (moves : ∀ j < Tree.sizeAll trees, f (id + j) = id' + j) :
    (siblingIds id trees).map f = siblingIds id' trees := by
  induction trees generalizing id id' with
  | nil => rfl
  | cons tree rest ih =>
    rw [Tree.sizeAll] at moves
    have positive : 0 < tree.size := by
      rw [Tree.size_eq]
      omega
    have first : f id = id' := moves 0 (by omega)
    have others : (siblingIds (id + tree.size) rest).map f = siblingIds (id' + tree.size) rest := by
      apply ih
      intro j less
      rw [Nat.add_assoc, moves (tree.size + j) (by omega), Nat.add_assoc]
    rw [siblingIds, siblingIds, List.map_cons, first, others]

mutual

/-- The nodes of a tree that starts at another id. -/
theorem map_flatten (parent : Option NodeId) :
    (tree : Tree) → {id id' : Nat} → (∀ j < tree.size, f (id + j) = id' + j) →
      (flatten resolve parent id tree).map (Node.relabel f) = flatten resolve (parent.map f) id' tree
  | .node kind children constant target span, id, id', moves => by
    rw [Tree.size] at moves
    have first : f id = id' := moves 0 (by omega)
    have below : ∀ j < Tree.sizeAll children, f (id + 1 + j) = id' + 1 + j := by
      intro j less
      rw [Nat.add_assoc, moves (1 + j) (by omega), Nat.add_assoc]
    rw [flatten, flatten, List.map_cons, map_flattenAll id children below, first, Node.relabel, map_siblingIds below]

private theorem map_flattenAll (parent : Nat) :
    (trees : List Tree) → {id id' : Nat} → (∀ j < Tree.sizeAll trees, f (id + j) = id' + j) →
      (flattenAll resolve parent id trees).map (Node.relabel f) = flattenAll resolve (f parent) id' trees
  | [], id, id', _ => by
    rw [flattenAll, flattenAll, List.map_nil]
  | tree :: rest, id, id', moves => by
    rw [Tree.sizeAll] at moves
    have first := map_flatten (some parent) tree fun j less => moves j (by omega)
    have others : ∀ j < Tree.sizeAll rest, f (id + tree.size + j) = id' + tree.size + j := by
      intro j less
      rw [Nat.add_assoc, moves (tree.size + j) (by omega), Nat.add_assoc]
    rw [flattenAll, flattenAll, List.map_append, first, map_flattenAll parent rest others, Option.map_some]

end

/-- The root of a tree of which one child changes its size. -/
theorem relabel_rootNode {parent : Option Nat} {kind : NodeKind} {before after : List Tree} {child child' : Tree}
    {constant : Option Constant} {target : Option String} {span : Option Span} (upper : parent.map f = parent)
    (stays : ∀ other ≤ id + 1 + Tree.sizeAll before, f other = other)
    (behind : ∀ j, f (id + 1 + Tree.sizeAll before + child.size + j) =
      id + 1 + Tree.sizeAll before + child'.size + j) :
    (rootNode resolve parent id (.node kind (before ++ child :: after) constant target span)).relabel f =
      rootNode resolve parent id (.node kind (before ++ child' :: after) constant target span) := by
  have first : (siblingIds (id + 1) before).map f = siblingIds (id + 1) before :=
    map_siblingIds fun j less => stays _ (by omega)
  have last := @map_siblingIds f _ _ after fun j _ => behind j
  simp only [rootNode, Node.relabel, upper, Tree.children, siblingIds_append, siblingIds, List.map_append,
    List.map_cons, first, last, stays _ (Nat.le_refl _)]
  rfl

/-- Where a node goes when a tree with its root at `hole` changes its size. -/
def moved (hole size size' id : Nat) : Nat := if id ≤ hole then id else id - size + size'

/-- The nodes around a tree stay when another tree is put in its place, under ids that make room for it. -/
theorem flatten_plug (context : Tree.Context) (parent : Option Nat) (id : Nat)
    (earlier : ∀ above ∈ parent, above < id) (tree tree' : Tree) :
    ∃ front back above, front.length = context.offset ∧
      flatten resolve parent id (context.plug tree) =
        front ++ (flatten resolve above (id + context.offset) tree ++ back) ∧
      flatten resolve parent id (context.plug tree') =
        front.map (Node.relabel (moved (id + context.offset) tree.size tree'.size)) ++
          (flatten resolve above (id + context.offset) tree' ++
            back.map (Node.relabel (moved (id + context.offset) tree.size tree'.size))) := by
  induction context generalizing parent id with
  | hole =>
    refine ⟨[], [], parent, rfl, ?_, ?_⟩
    · rw [List.nil_append, List.append_nil]
      rfl
    · rw [List.map_nil, List.nil_append, List.append_nil]
      rfl
  | node kind before inner after constant target span ih =>
    obtain ⟨front, back, above, length, whole, whole'⟩ := ih (some id) (id + 1 + Tree.sizeAll before) (by
      rintro _ ⟨⟩
      omega)
    have size : (inner.plug tree).size = inner.offset + tree.size + back.length := by
      have lengths := congrArg List.length whole
      simp only [length_flatten, List.length_append, length] at lengths
      omega
    have size' : (inner.plug tree').size = inner.offset + tree'.size + back.length := by
      have lengths := congrArg List.length whole'
      simp only [length_flatten, List.length_append, List.length_map, length] at lengths
      omega
    have place : id + (1 + Tree.sizeAll before + inner.offset) = id + 1 + Tree.sizeAll before + inner.offset := by
      omega
    have positive : 0 < tree.size := by
      rw [Tree.size_eq]
      omega
    simp only [Tree.Context.plug, Tree.Context.offset, place]
    generalize hf : moved (id + 1 + Tree.sizeAll before + inner.offset) tree.size tree'.size = f at whole' ⊢
    -- Nothing moves up to the missing tree, and all behind it moves alike.
    have stays {other : Nat} (upTo : other ≤ id + 1 + Tree.sizeAll before + inner.offset) : f other = other := by
      rw [← hf, moved, if_pos upTo]
    have behind (j : Nat) : f (id + 1 + Tree.sizeAll before + (inner.plug tree).size + j) =
        id + 1 + Tree.sizeAll before + (inner.plug tree').size + j := by
      rw [← hf, moved, if_neg (by omega)]
      omega
    have upper : parent.map f = parent := by
      cases parent with
      | none => rfl
      | some above =>
        have less := earlier above rfl
        rw [Option.map_some, stays (by omega)]
    have root := @relabel_rootNode resolve f _ parent kind before after _ _ constant target span upper
      (fun other upTo => stays (by omega)) behind
    refine ⟨rootNode resolve parent id (.node kind (before ++ inner.plug tree :: after) constant target span) ::
      (flattenAll resolve id (id + 1) before ++ front),
      back ++ flattenAll resolve id (id + 1 + Tree.sizeAll before + (inner.plug tree).size) after, above, ?_, ?_, ?_⟩
    · simp only [List.length_cons, List.length_append, length_flattenAll, length]
      omega
    · rw [flatten_eq, Tree.children, flattenAll_append, flattenAll, whole]
      simp only [List.cons_append, List.append_assoc]
    · have first : (flattenAll resolve id (id + 1) before).map (Node.relabel f) =
          flattenAll resolve id (id + 1) before := by
        rw [map_flattenAll id before fun j less => stays (by omega), stays (by omega)]
      have last := @map_flattenAll resolve f id after _ _ fun j _ => behind j
      rw [stays (by omega)] at last
      rw [flatten_eq, Tree.children, flattenAll_append, flattenAll, whole']
      simp only [List.map_cons, List.map_append, root, first, last, List.cons_append, List.append_assoc]

theorem HoldsAll.middle {body : Body} {above : List NodeId} {before after : List Tree} {tree : Tree}
    (held : body.HoldsAll resolve above id (before ++ tree :: after)) :
    body.Holds resolve above (id + Tree.sizeAll before) tree := by
  induction before generalizing id with
  | nil => exact held.1
  | cons first before ih =>
    rw [Tree.sizeAll, ← Nat.add_assoc]
    exact ih held.2

/-- A body that holds a tree holds the trees within it. -/
theorem Holds.plugged {body : Body} {above : List NodeId} {context : Tree.Context} {tree : Tree}
    (held : body.Holds resolve above id (context.plug tree)) :
    ∃ above', body.Holds resolve above' (id + context.offset) tree := by
  induction context generalizing above id with
  | hole => exact ⟨above, held⟩
  | node kind before inner after constant target span ih =>
    have deeper := ih held.below.middle
    rwa [Nat.add_assoc, Nat.add_assoc, ← Nat.add_assoc 1] at deeper

variable (kind : BodyKind) (owner : Option MethodId) (context : Tree.Context) (root : NodeKind)
  (constant : Option Constant) (target : Option String) (span : Option Span)

/-- Other trees below a node of a declared tree. -/
theorem replacedBelow_ofTree (inside inside' : List Tree) :
    (ofTree kind owner resolve (context.plug (.node root inside constant target span))).ReplacedBelow
      (ofTree kind owner resolve (context.plug (.node root inside' constant target span))) context.offset
      (moved context.offset (1 + Tree.sizeAll inside) (1 + Tree.sizeAll inside')) := by
  have holds := holds_ofTree kind owner resolve (context.plug (.node root inside constant target span))
  have built := isBuilt_ofTree resolve kind owner (context.plug (.node root inside constant target span))
  obtain ⟨_, held⟩ := holds.plugged
  have below := held.descendants
  rw [Nat.zero_add, Tree.children] at below
  obtain ⟨front, back, above, length, whole, whole'⟩ := @flatten_plug resolve context none 0
    (fun _ absent => absurd absent (Option.not_mem_none _)) (.node root inside constant target span)
    (.node root inside' constant target span)
  simp only [Nat.zero_add, Tree.size] at whole whole'
  refine ⟨built, isBuilt_ofTree .., rfl, rfl, if_pos (Nat.zero_le _), ?_⟩
  intro id node found kept
  rw [ofTree, whole] at found
  rw [ofTree, whole']
  rcases Nat.lt_trichotomy id context.offset with inFront | rfl | behind
  · rw [List.getElem?_append_left (by omega)] at found
    refine ⟨node.relabel _, ?_, rfl, rfl, rfl, fun _ => rfl⟩
    rw [moved, if_pos (Nat.le_of_lt inFront), List.getElem?_append_left (by rw [List.length_map]; omega),
      List.getElem?_map, found, Option.map_some]
  · rw [flatten_eq, List.getElem?_append_right (by omega), length, Nat.sub_self] at found
    obtain rfl := Option.some.inj found
    refine ⟨rootNode resolve above context.offset (.node root inside' constant target span), ?_, rfl, rfl, rfl,
      fun other => absurd rfl other⟩
    rw [moved, if_pos (Nat.le_refl _), flatten_eq, List.getElem?_append_right (by rw [List.length_map]; omega),
      List.length_map, length, Nat.sub_self]
    rfl
  · -- The ids right behind the hole are those of the nodes below it.
    have far : context.offset + Tree.sizeAll inside < id := by
      by_contra near
      apply kept
      apply built.isTree.mem_descendants_iff.mp
      rw [below, List.mem_range'_1]
      omega
    have place : moved context.offset (1 + Tree.sizeAll inside) (1 + Tree.sizeAll inside') id - context.offset -
        (1 + Tree.sizeAll inside') = id - context.offset - (1 + Tree.sizeAll inside) := by
      rw [moved, if_neg (by omega)]
      omega
    have bound : context.offset + (1 + Tree.sizeAll inside') ≤
        moved context.offset (1 + Tree.sizeAll inside) (1 + Tree.sizeAll inside') id := by
      rw [moved, if_neg (by omega)]
      omega
    rw [List.getElem?_append_right (by omega), length,
      List.getElem?_append_right (by rw [length_flatten, Tree.size]; omega), length_flatten, Tree.size] at found
    refine ⟨node.relabel _, ?_, rfl, rfl, rfl, fun _ => rfl⟩
    rw [List.getElem?_append_right (by rw [List.length_map]; omega), List.length_map, length,
      List.getElem?_append_right (by rw [length_flatten, Tree.size]; omega), length_flatten, Tree.size, place,
      List.getElem?_map, found, Option.map_some]

end Body

end NullReturns
