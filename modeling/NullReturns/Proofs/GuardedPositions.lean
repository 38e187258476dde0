import NullReturns.Proofs.Acceptance
import NullReturns.Proofs.AddedAttributes
import NullReturns.Proofs.DocumentOrder

/-! # Guarded positions

A null literal inside an argument or an operand is not what a return statement yields, at any depth. Calls are
judged in another way: of the nodes between a statement and its first call only the one directly above the
call counts, and neither arguments nor binary operators are among the kinds that use the result of a call. A
marked call that is compared with null is therefore taken for one whose result the statement yields.
-/

namespace NullReturns

namespace Body

/-- An argument or a binary operator is below the statement and above the node. -/
def InGuardedPosition (body : Body) (statement id : NodeId) : Prop :=
  ∃ between ∈ body.descendants statement, id ∈ body.descendants between ∧
    (body.kind? between = some .argument ∨ body.kind? between = some .binaryOperator)

instance (body : Body) (statement id : NodeId) : Decidable (body.InGuardedPosition statement id) :=
  inferInstanceAs (Decidable (∃ between ∈ body.descendants statement, _))

/-- Of the calls below the statement this one comes first in document order. -/
def IsFirstCall (body : Body) (statement call : NodeId) : Prop :=
  ∃ before, IsFirst (fun id => body.kind? id = some .invocation) (body.descendants statement) before call

/-- Directly above the call is a node that accesses or stores its result. -/
def IsUsed (body : Body) (call : NodeId) : Prop :=
  ∃ parent kind, body.parent? call = some parent ∧ body.kind? parent = some kind ∧
    kind ∈ [.fieldAccess, .propertyAccess, .conditionalAccess, .assignment, .arrayInitializer]

variable {body : Body}

/-! ## Literals -/

/-- The way up from a node meets the nodes between it and the statement before it meets the statement. -/
theorem IsTree.mem_takeWhile_ancestors (tree : body.IsTree) {statement id between : NodeId}
    (above : statement ∈ body.ancestors id) :
    between ∈ (body.ancestors id).takeWhile (· != statement) ↔
      between ∈ body.descendants statement ∧ id ∈ body.descendants between := by
  rw [tree.mem_descendants_iff, tree.mem_descendants_iff]
  induction id using Nat.strongRecOn with
  | ind id ih =>
    have bounds := tree.lt_of_mem_ancestors above
    obtain ⟨parent, link⟩ := tree.exists_parent (Nat.zero_lt_of_lt bounds.1) bounds.2
    rw [tree.ancestors_of_parent? link] at above ⊢
    rw [List.takeWhile_cons]
    split
    · rename_i other
      have further : statement ∈ body.ancestors parent := List.mem_of_ne_of_mem (Ne.symm (bne_iff_ne.mp other)) above
      rw [List.mem_cons, List.mem_cons, ih parent (tree.parent_lt link) further]
      constructor
      · rintro (rfl | ⟨upper, lower⟩)
        · exact ⟨further, .inl rfl⟩
        · exact ⟨upper, .inr lower⟩
      · rintro ⟨upper, rfl | lower⟩
        · exact .inl rfl
        · exact .inr ⟨upper, lower⟩
    · rename_i reached
      obtain rfl : parent = statement := by simpa using reached
      -- Nothing is both below the statement and the statement itself or above it.
      refine iff_of_false List.not_mem_nil ?_
      rintro ⟨upper, lower⟩
      have less := (tree.lt_of_mem_ancestors upper).1
      rcases List.mem_cons.mp lower with rfl | higher
      · exact absurd less (Nat.lt_irrefl between)
      · have more := (tree.lt_of_mem_ancestors higher).1
        omega

private theorem any_guardsLiteral (kind : Option NodeKind) :
    kind.any (·.guardsLiteral) = true ↔ kind = some .argument ∨ kind = some .binaryOperator := by
  cases kind with
  | none => simp
  | some kind => cases kind <;> simp [NodeKind.guardsLiteral]

theorem IsTree.isGuardedLiteral_iff (tree : body.IsTree) {statement literal : NodeId}
    (below : literal ∈ body.descendants statement) :
    body.isGuardedLiteral statement literal = true ↔ body.InGuardedPosition statement literal := by
  have above := tree.mem_descendants_iff.mp below
  simp only [isGuardedLiteral, List.any_eq_true, tree.mem_takeWhile_ancestors above, any_guardsLiteral,
    InGuardedPosition, and_assoc]

private theorem any_isNull (constant : Option Constant) : constant.any (·.isNull) = true ↔ constant = some .null := by
  cases constant with
  | none => simp
  | some constant => cases constant <;> simp [Constant.isNull]

theorem IsTree.yieldsNull_iff (tree : body.IsTree) (statement : NodeId) :
    body.yieldsNull statement = true ↔ ∃ literal ∈ body.descendants statement,
      body.kind? literal = some .literal ∧ body.constant? literal = some .null ∧
        ¬ body.InGuardedPosition statement literal := by
  rw [yieldsNull, List.any_eq_true]
  refine exists_congr fun literal => and_congr_right fun below => ?_
  rw [Bool.and_eq_true, Bool.and_eq_true, beq_iff_eq, any_isNull, and_assoc, Bool.not_eq_true', ← Bool.not_eq_true,
    tree.isGuardedLiteral_iff below]

/-! ## Calls -/

theorem firstCall?_eq_some_iff {statement call : NodeId} {target : Option MethodId} :
    body.firstCall? statement = some (call, target) ↔
      body.IsFirstCall statement call ∧ ∃ node, body.nodes[call]? = some node ∧ node.target = target := by
  have silent (id : NodeId) : (do
      let node ← body.nodes[id]?
      if node.kind = .invocation then some (id, node.target) else none) = none ↔
      ¬ body.kind? id = some .invocation := by
    cases found : body.nodes[id]? with
    | none => simp [kind?, found]
    | some node => simp [kind?, found]
  rw [firstCall?, findSome?_eq_some_iff_isFirst silent]
  constructor
  · rintro ⟨before, id, first, asked⟩
    obtain ⟨node, found, asked⟩ := Option.bind_eq_some_iff.mp asked
    simp only [Option.ite_none_right_eq_some, Option.some.injEq, Prod.mk.injEq] at asked
    obtain ⟨_, rfl, rfl⟩ := asked
    exact ⟨⟨before, first⟩, node, found, rfl⟩
  · rintro ⟨⟨before, first⟩, node, found, rfl⟩
    refine ⟨before, call, first, ?_⟩
    have kind : node.kind = .invocation := by simpa [kind?, found] using first.1
    simp only [found, bind, Option.bind_some, kind, if_true]

theorem isUsed_iff (call : NodeId) :
    ((body.parent? call).bind body.kind?).any (·.guardsCall) = true ↔ body.IsUsed call := by
  have listed (kind : NodeKind) : kind.guardsCall = true ↔
      kind ∈ [.fieldAccess, .propertyAccess, .conditionalAccess, .assignment, .arrayInitializer] := by
    cases kind <;> decide
  simp only [Option.any_eq_true, Option.bind_eq_some_iff, listed, IsUsed]
  constructor
  · rintro ⟨kind, ⟨parent, link, found⟩, used⟩
    exact ⟨parent, kind, link, found, used⟩
  · rintro ⟨parent, kind, link, found, used⟩
    exact ⟨kind, ⟨parent, link, found⟩, used⟩

private theorem yieldsMarkedCall_iff_isFirstCall (table : Table) (statement : NodeId) :
    body.yieldsMarkedCall table statement = true ↔ ∃ call node target, body.IsFirstCall statement call ∧
      body.nodes[call]? = some node ∧ node.target = some target ∧ table.hasMarker target = true ∧
        ¬ body.IsUsed call := by
  simp only [yieldsMarkedCall_iff, firstCall?_eq_some_iff, ← isUsed_iff, Bool.not_eq_true]
  constructor
  · rintro ⟨call, target, ⟨first, node, found, aim⟩, unused, marker⟩
    exact ⟨call, node, target, first, found, aim, marker, unused⟩
  · rintro ⟨call, node, target, first, found, aim, marker, unused⟩
    exact ⟨call, target, ⟨first, node, found, aim⟩, unused, marker⟩

/-- A statement yields a null literal below it that is in no guarded position. It yields what a marked method
returned if its first call leads there and the node directly above the call does not use the result, whatever
else is between the statement and the call. -/
theorem evidence_by_position (built : body.IsBuilt) (table : Table) (statement : NodeId) :
    (body.yieldsNull statement = true ↔ ∃ literal ∈ body.descendants statement,
      body.kind? literal = some .literal ∧ body.constant? literal = some .null ∧
        ¬ body.InGuardedPosition statement literal) ∧
    (body.yieldsMarkedCall table statement = true ↔ ∃ call node target, body.IsFirstCall statement call ∧
      body.nodes[call]? = some node ∧ node.target = some target ∧ table.hasMarker target = true ∧
        ¬ body.IsUsed call) :=
  ⟨built.isTree.yieldsNull_iff statement, yieldsMarkedCall_iff_isFirstCall table statement⟩

/-- A method, and a marked one that it may call. -/
def callerAndMarked : Table where
  types := [{ name := "T", kind := .classType, members := [0, 1] }]
  methods := [
    { key := "T.Get()", name := "Get", signature := "()", owner := 0, returns := .reference "object" },
    { key := "T.Find()", name := "Find", signature := "()", owner := 0, returns := .reference "object"
      attributes := ["CanBeNull"] }]

/-- The body of the first method that returns an expression. -/
def returning (expression : Tree) : Body :=
  .ofTree .method (some 0) (fun key => if key = "T.Find()" then some 1 else none)
    (.node .block [.node .return [expression] none none none] none none none)

/-- `Find()` -/
def findCall : Tree := .node .invocation [] none (some "T.Find()") none

/-- `null` -/
def nullLiteral : Tree := .node .literal [] (some .null) none none

/-- `return flag ? null : Find();` -/
def nullOrCall : Body :=
  returning (.node .conditional [.node .parameterReference [] none none none, nullLiteral, findCall] none none none)

theorem evidence_nullOrCall :
    nullOrCall.IsBuilt ∧ nullOrCall.yieldsNull 1 = true ∧ nullOrCall.yieldsMarkedCall callerAndMarked 1 = true := by
  have built : nullOrCall.IsBuilt := isBuilt_ofTree ..
  obtain ⟨null, call⟩ := evidence_by_position built callerAndMarked 1
  have first : nullOrCall.IsFirstCall 1 5 := ⟨[2, 3, 4], rfl, by decide, [], by decide⟩
  have unused : ¬ nullOrCall.IsUsed 5 := by
    rw [← isUsed_iff]
    decide
  exact ⟨built, null.mpr ⟨4, by decide, rfl, rfl, by decide⟩,
    call.mpr ⟨5, _, 1, first, rfl, rfl, by decide, unused⟩⟩

/-- `return Find() == null;` -/
def comparedCall : Body := returning (.node .binaryOperator [findCall, nullLiteral] none none none)

/-- The call and the literal are in the same guarded position. The literal does not count, but the call is
taken for one whose result the statement yields. -/
theorem yieldsMarkedCall_comparedCall :
    comparedCall.IsBuilt ∧ comparedCall.kind? 1 = some .return ∧ comparedCall.IsFirstCall 1 3 ∧
      comparedCall.InGuardedPosition 1 3 ∧ comparedCall.InGuardedPosition 1 4 ∧
      comparedCall.yieldsNull 1 = false ∧ comparedCall.yieldsMarkedCall callerAndMarked 1 = true ∧
      Report.ofBody? callerAndMarked comparedCall = some ⟨.markedCall, 0, none⟩ :=
  ⟨isBuilt_ofTree .., rfl, ⟨[2], rfl, by decide, [4], by decide⟩, by decide, by decide, by cbv, by cbv, by cbv⟩

end Body

end NullReturns
