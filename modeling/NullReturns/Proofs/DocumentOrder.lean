import NullReturns.Proofs.Ancestry

/-! # Document order

The nodes below a node of a built body are listed once each: every node in front of the nodes below it, and
the nodes of one child in front of those of the next. A walk that keeps the nodes still to be visited on a
stack comes to its end and visits them in that order. The way up from a node that is listed leads back to
the node it was listed for, so that the search for what guards a literal is always decided.
-/

namespace NullReturns.Body

variable {body : Body}

/-! ## Each node once -/

namespace IsTree

variable (tree : body.IsTree)

include tree

theorem mem_cons_descendants_iff {id below : Nat} :
    below ∈ id :: body.descendants id ↔ id ∈ below :: body.ancestors below := by
  rw [List.mem_cons, List.mem_cons, tree.mem_descendants_iff, eq_comm]

/-- A node is not above another child of its parent. -/
theorem not_mem_ancestors_sibling {id first second : Nat} (link : body.parent? first = some id)
    (link' : body.parent? second = some id) : first ∉ body.ancestors second := by
  intro above
  have smaller := tree.parent_lt link
  rw [tree.ancestors_of_parent? link'] at above
  rcases List.mem_cons.mp above with same | higher
  · omega
  · have further := (tree.lt_of_mem_ancestors higher).1
    omega

/-- Nothing is at or below two children of one node. -/
theorem disjoint_siblings {id first second : Nat} (listed : first ∈ body.children id)
    (listed' : second ∈ body.children id) (different : first ≠ second) :
    (first :: body.descendants first).Disjoint (second :: body.descendants second) := by
  have link := tree.mem_children.mp listed
  have link' := tree.mem_children.mp listed'
  intro below within within'
  have above := tree.mem_cons_descendants_iff.mp within
  have above' := tree.mem_cons_descendants_iff.mp within'
  rcases tree.ancestors_comparable above above' with same | higher | higher
  · exact different same
  · exact tree.not_mem_ancestors_sibling link link' higher
  · exact tree.not_mem_ancestors_sibling link' link higher

theorem nodup_descendants (id : Nat) : (body.descendants id).Nodup := by
  induction id using tree.induction_down with
  | step id ih =>
    rw [tree.descendants_eq, List.nodup_flatMap]
    constructor
    · intro child listed
      refine List.nodup_cons.mpr ⟨?_, ih child listed⟩
      intro self
      have smaller := (tree.lt_of_mem_ancestors (tree.mem_descendants_iff.mp self)).1
      omega
    · exact (tree.nodup_children id).imp_of_mem fun listed listed' => tree.disjoint_siblings listed listed'

/-! ## Order -/

theorem cons_descendants_sublist {id node : Nat} (below : node ∈ body.descendants id) :
    (node :: body.descendants node).Sublist (body.descendants id) := by
  induction id using tree.induction_down with
  | step id ih =>
    rw [tree.descendants_eq id] at below ⊢
    obtain ⟨child, listed, within⟩ := List.mem_flatMap.mp below
    have part : (child :: body.descendants child).Sublist
        ((body.children id).flatMap fun child => child :: body.descendants child) := by
      have alone := (List.singleton_sublist.mpr listed).flatMap fun child => child :: body.descendants child
      rwa [List.flatMap_singleton] at alone
    rcases List.mem_cons.mp within with rfl | deeper
    · exact part
    · exact ((ih child listed deeper).cons child).trans part

/-- A node comes in front of the nodes below it. -/
theorem precedes_below {id node below : Nat} (listed : node ∈ body.descendants id)
    (deeper : below ∈ body.descendants node) : [node, below].Sublist (body.descendants id) :=
  ((List.singleton_sublist.mpr deeper).cons_cons node).trans (tree.cons_descendants_sublist listed)

/-- The nodes of one child come in front of those of a later child. -/
theorem precedes_sibling {id parent earlier later first second : Nat} (within : parent ∈ id :: body.descendants id)
    (siblings : [earlier, later].Sublist (body.children parent))
    (here : first ∈ earlier :: body.descendants earlier) (there : second ∈ later :: body.descendants later) :
    [first, second].Sublist (body.descendants id) := by
  have pair : [first, second].Sublist
      ([earlier, later].flatMap fun child => child :: body.descendants child) := by
    simp only [List.flatMap_cons, List.flatMap_nil, List.append_nil]
    exact (List.singleton_sublist.mpr here).append (List.singleton_sublist.mpr there)
  have below : [first, second].Sublist (body.descendants parent) := by
    rw [tree.descendants_eq]
    exact pair.trans (siblings.flatMap _)
  rcases List.mem_cons.mp within with rfl | lower
  · exact below
  · exact (below.cons parent).trans (tree.cons_descendants_sublist lower)

end IsTree

/-! ## Walking with a stack -/

/-- A walk over the nodes that are still to be visited, and the nodes it visits: when a node has been
visited, its children are put in front of the others. -/
inductive Walks (body : Body) : List NodeId → List NodeId → Prop
  | done : Walks body [] []
  | visit {id : NodeId} {stack visited : List NodeId} (rest : Walks body (body.children id ++ stack) visited) :
      Walks body (id :: stack) (id :: visited)

theorem Walks.unique {stack visited visited' : List NodeId} (walk : body.Walks stack visited)
    (walk' : body.Walks stack visited') : visited = visited' := by
  induction walk generalizing visited' with
  | done =>
    cases walk'
    rfl
  | visit _ ih =>
    cases walk' with
    | visit rest' => rw [ih rest']

/-- The walk over the children of a node visits the nodes below it, and then the others on the stack. -/
theorem IsTree.walks (tree : body.IsTree) (id : Nat) {stack visited : List Nat} (rest : body.Walks stack visited) :
    body.Walks (body.children id ++ stack) (body.descendants id ++ visited) := by
  induction id using tree.induction_down generalizing stack visited with
  | step id ih =>
    rw [tree.descendants_eq]
    generalize body.children id = children at ih
    induction children with
    | nil => exact rest
    | cons child others ih' =>
      have later := ih' fun other listed => ih other (List.mem_cons_of_mem child listed)
      rw [List.cons_append, List.flatMap_cons, List.cons_append, List.cons_append, List.append_assoc]
      exact .visit (ih child List.mem_cons_self later)

theorem IsTree.walks_iff (tree : body.IsTree) (id : Nat) (visited : List Nat) :
    body.Walks (body.children id) visited ↔ visited = body.descendants id := by
  have walk := tree.walks id .done
  rw [List.append_nil, List.append_nil] at walk
  constructor
  · exact fun other => other.unique walk
  · rintro rfl
    exact walk

/-! ## Guards of literals -/

/-- What the way up from a literal meets first: the statement, or a node that uses the literal's value up.
There is no answer when the way ends before. -/
def meetsGuard? (body : Body) (statement : NodeId) : List NodeId → Option Bool
  | [] => none
  | ancestor :: above =>
    if ancestor = statement then some false
    else if (body.kind? ancestor).any (·.guardsLiteral) then some true
    else body.meetsGuard? statement above

private theorem any_takeWhile_eq_meetsGuard? (body : Body) (statement : NodeId) (above : List NodeId) :
    ((above.takeWhile (· != statement)).any fun ancestor => (body.kind? ancestor).any (·.guardsLiteral)) =
      (body.meetsGuard? statement above).getD false := by
  induction above with
  | nil => rfl
  | cons ancestor above ih =>
    rw [meetsGuard?]
    by_cases reached : ancestor = statement
    · simp [reached]
    · simp only [List.takeWhile_cons, bne_iff_ne, ne_eq, reached, not_false_eq_true, if_true, if_false,
        List.any_cons, ih]
      cases (body.kind? ancestor).any (·.guardsLiteral) <;> rfl

private theorem isSome_meetsGuard? {statement : NodeId} {above : List NodeId} (member : statement ∈ above) :
    (body.meetsGuard? statement above).isSome := by
  induction above with
  | nil => exact absurd member List.not_mem_nil
  | cons ancestor above ih =>
    rw [meetsGuard?]
    split
    · rfl
    · rename_i other
      split
      · rfl
      · exact ih (List.mem_of_ne_of_mem (Ne.symm other) member)

/-- Where the statement is above the literal, the way up decides whether the literal is guarded. -/
theorem meetsGuard?_of_mem_ancestors {statement literal : NodeId} (above : statement ∈ body.ancestors literal) :
    body.meetsGuard? statement (body.ancestors literal) = some (body.isGuardedLiteral statement literal) := by
  obtain ⟨answer, found⟩ := Option.isSome_iff_exists.mp (@isSome_meetsGuard? body _ _ above)
  rw [isGuardedLiteral, any_takeWhile_eq_meetsGuard?, found, Option.getD_some]

/-! ## One tree -/

/-- The links to parents and the lists of children tell one tree, and the ways up and down go through it
completely and in document order. -/
structure IsDocument (body : Body) : Prop where
  listed_once : ∀ id : Nat, 0 < id → id < body.nodes.length → ∃ parent < id, body.parent? id = some parent ∧
    ∀ other, (body.children other).count id = if other = parent then 1 else 0
  /-- The walk with a stack ends, and these are the nodes it has visited. -/
  walk : ∀ id visited, body.Walks (body.children id) visited ↔ visited = body.descendants id
  once : ∀ id, (body.descendants id).Nodup
  reached : ∀ id : Nat, 0 < id → id < body.nodes.length → id ∈ body.descendants 0
  before_below : ∀ id, ∀ node ∈ body.descendants id, ∀ below ∈ body.descendants node,
    [node, below].Sublist (body.descendants id)
  before_sibling : ∀ id, ∀ parent ∈ id :: body.descendants id, ∀ earlier later,
    [earlier, later].Sublist (body.children parent) →
      ∀ first ∈ earlier :: body.descendants earlier, ∀ second ∈ later :: body.descendants later,
        [first, second].Sublist (body.descendants id)
  /-- The way up ends at the root. -/
  climb : ∀ id, body.ancestors id = (body.parent? id).elim [] fun parent => parent :: body.ancestors parent
  both_ways : ∀ id below, below ∈ body.descendants id ↔ id ∈ body.ancestors below
  /-- The search for a guard of a literal below a statement stops at the guard or at the statement. -/
  guard_decided : ∀ statement, ∀ literal ∈ body.descendants statement,
    statement ∈ body.ancestors literal ∧
      body.meetsGuard? statement (body.ancestors literal) = some (body.isGuardedLiteral statement literal)

/-- However its nodes were put together, a body is one tree. -/
theorem IsBuilt.isDocument (built : body.IsBuilt) : body.IsDocument := by
  have tree := built.isTree
  refine ⟨?_, tree.walks_iff, tree.nodup_descendants, ?_, ?_, ?_, tree.ancestors_eq, ?_, ?_⟩
  · intro id positive inside
    obtain ⟨parent, link⟩ := tree.exists_parent positive inside
    exact ⟨parent, tree.parent_lt link, link, tree.count_children link⟩
  · intro id positive inside
    exact tree.mem_descendants_iff.mpr (tree.root_mem_ancestors positive inside)
  · intro id node listed below deeper
    exact tree.precedes_below listed deeper
  · intro id parent within earlier later siblings first here second there
    exact tree.precedes_sibling within siblings here there
  · intro id below
    exact tree.mem_descendants_iff
  · intro statement literal listed
    have above := tree.mem_descendants_iff.mp listed
    exact ⟨above, meetsGuard?_of_mem_ancestors above⟩

/-- A body whose statements were put in before what is below them: `return null == x` and `return`. -/
def statementsFirst : Body :=
  ((((withRoot .method none .block none).push 0 .return none).push 0 .return none).push 1 .binaryOperator none
    |>.push 3 .literal none).setConstant 4 .null

theorem isDocument_statementsFirst :
    statementsFirst.IsBuilt ∧ statementsFirst.IsDocument ∧ statementsFirst.descendants 0 = [1, 3, 4, 2] ∧
      statementsFirst.ancestors 4 = [3, 1, 0] ∧ statementsFirst.meetsGuard? 1 [3, 1, 0] = some true := by
  have built : statementsFirst.IsBuilt := by
    refine .setConstant (.push (.push (.push (.push (.withRoot ..) ?_ _ _) ?_ _ _) ?_ _ _) ?_ _ _) ?_ _ <;> decide
  exact ⟨built, built.isDocument, by decide, by decide, by decide⟩

end NullReturns.Body
