import NullReturns.Proofs.DeclaredReport
import NullReturns.Proofs.Replacement

/-! # Code inside nested functions

The return statements inside a lambda or local function are not those of the method. Replacing what is below
such a node therefore changes nothing, as long as the node is not itself part of a return statement of the
method. The searches below a return statement do not stop at nested functions: there the nodes inside the
function count like those around it, and the report stays the same if they show the same.
-/

namespace NullReturns

namespace Body

variable {body old new : Body}

/-! ## Guards on the way up -/

namespace IsTree

variable (tree : body.IsTree)

include tree

private theorem isGuardedLiteral_of_parent? {id parent : Nat} (link : body.parent? id = some parent) (statement : Nat) :
    body.isGuardedLiteral statement id =
      if parent = statement then false
      else (body.kind? parent).any (·.guardsLiteral) || body.isGuardedLiteral statement parent := by
  rw [isGuardedLiteral, tree.ancestors_of_parent? link, List.takeWhile_cons]
  split
  · rename_i other
    rw [if_neg (bne_iff_ne.mp other), List.any_cons]
    rfl
  · rename_i same
    rw [Bool.not_eq_true, bne_eq_false_iff_eq] at same
    rw [if_pos same]
    rfl

/-- The way from a literal up to a statement through a node between them. -/
theorem isGuardedLiteral_through {statement between id : Nat} (upper : statement ∈ body.ancestors between)
    (lower : between ∈ body.ancestors id) :
    body.isGuardedLiteral statement id = (body.isGuardedLiteral between id ||
      ((body.kind? between).any (·.guardsLiteral) || body.isGuardedLiteral statement between)) := by
  have first := (tree.lt_of_mem_ancestors upper).1
  induction id using Nat.strongRecOn with
  | ind id ih =>
    have second := tree.lt_of_mem_ancestors lower
    obtain ⟨parent, link⟩ := tree.exists_parent (by omega) second.2
    rw [tree.isGuardedLiteral_of_parent? link, tree.isGuardedLiteral_of_parent? link]
    rw [tree.ancestors_of_parent? link] at lower
    rcases List.mem_cons.mp lower with rfl | lower
    · rw [if_neg (by omega), if_pos rfl, Bool.false_or]
    · have third := (tree.lt_of_mem_ancestors lower).1
      rw [if_neg (by omega), if_neg (by omega), ih parent (tree.parent_lt link) lower, Bool.or_assoc]

end IsTree

/-! ## Evidence in both bodies -/

/-- The node is a null literal, and nothing between it and the statement uses its value up. -/
def isYieldedNull (body : Body) (statement id : NodeId) : Bool :=
  body.kind? id == some .literal && (body.constant? id).any (·.isNull) && !body.isGuardedLiteral statement id

/-- Whether the first call below a statement is one whose marked result the statement yields. -/
def firstVerdict? (body : Body) (table : Table) (statement : NodeId) : Option Bool :=
  (body.firstCall? statement).map (body.isPassedOn table)

/-- A statement yields a null literal below one of its nodes if that node would yield it, and nothing from the
node up to the statement uses the value up. -/
theorem IsTree.any_isYieldedNull (tree : body.IsTree) {statement between : Nat}
    (above : statement ∈ body.ancestors between) :
    (body.descendants between).any (body.isYieldedNull statement) = (body.yieldsNull between &&
      !((body.kind? between).any (·.guardsLiteral) || body.isGuardedLiteral statement between)) := by
  rw [yieldsNull, Bool.eq_iff_iff]
  simp only [Bool.and_eq_true, List.any_eq_true, isYieldedNull]
  constructor
  · rintro ⟨id, below, literal, unguarded⟩
    rw [tree.isGuardedLiteral_through above (tree.mem_descendants_iff.mp below), Bool.not_or,
      Bool.and_eq_true] at unguarded
    exact ⟨⟨id, below, literal, unguarded.1⟩, unguarded.2⟩
  · rintro ⟨⟨id, below, literal, unguarded⟩, further⟩
    refine ⟨id, below, literal, ?_⟩
    rw [tree.isGuardedLiteral_through above (tree.mem_descendants_iff.mp below), Bool.not_or, Bool.and_eq_true]
    exact ⟨unguarded, further⟩

namespace ReplacedBelow

variable {hole : Nat} {place : Nat → Nat} (replaced : old.ReplacedBelow new hole place) {statement : Nat}

include replaced

private theorem isGuardedLiteral_place {id : Nat} (above : statement ∈ old.ancestors id)
    (kept : hole ∉ old.ancestors id) :
    new.isGuardedLiteral (place statement) (place id) = old.isGuardedLiteral statement id := by
  have tree := replaced.built.isTree
  induction id using Nat.strongRecOn with
  | ind id ih =>
    have bounds := tree.lt_of_mem_ancestors above
    obtain ⟨parent, link⟩ := tree.exists_parent (by omega) bounds.2
    obtain ⟨inside', kept', _⟩ := replaced.kept_parent? link kept
    have link' : new.parent? (place id) = some (place parent) := by
      rw [replaced.parent?_place bounds.2 kept, link, Option.map_some]
    rw [tree.isGuardedLiteral_of_parent? link, replaced.built'.isTree.isGuardedLiteral_of_parent? link']
    rw [tree.ancestors_of_parent? link] at above
    rcases List.mem_cons.mp above with rfl | above
    · rw [if_pos rfl, if_pos rfl]
    · -- The statement stays above the parent, so that the two places differ as well.
      have smaller := (tree.lt_of_mem_ancestors above).1
      have above' : place statement ∈ new.ancestors (place parent) := by
        rw [replaced.ancestors_place inside' kept']
        exact List.mem_map_of_mem above
      have smaller' := (replaced.built'.isTree.lt_of_mem_ancestors above').1
      rw [if_neg (by omega), if_neg (by omega), replaced.kind?_place inside' kept',
        ih parent (tree.parent_lt link) above kept']

private theorem yieldsNull_place (inside : statement < old.nodes.length) (kept : hole ∉ old.ancestors statement)
    (other : statement ≠ hole)
    (same : hole ∈ old.descendants statement → new.yieldsNull (place hole) = old.yieldsNull hole) :
    new.yieldsNull (place statement) = old.yieldsNull statement := by
  have tree := replaced.built.isTree
  apply replaced.any_place inside kept
  · intro below within kept'
    have above := tree.mem_descendants_iff.mp within
    have inside' := (tree.lt_of_mem_ancestors above).2
    rw [replaced.kind?_place inside' kept', replaced.constant?_place inside' kept',
      replaced.isGuardedLiteral_place above kept']
  · intro within
    have deeper : hole ∈ old.descendants statement := List.mem_of_ne_of_mem (Ne.symm other) within
    have above := tree.mem_descendants_iff.mp deeper
    have inside' := (tree.lt_of_mem_ancestors above).2
    have kept' : hole ∉ old.ancestors hole := fun self => Nat.lt_irrefl hole (tree.lt_of_mem_ancestors self).1
    have above' : place statement ∈ new.ancestors (place hole) := by
      rw [replaced.ancestors_place inside' kept']
      exact List.mem_map_of_mem above
    have outer := tree.any_isYieldedNull above
    have outer' := replaced.built'.isTree.any_isYieldedNull above'
    rw [same deeper, replaced.kind?_place inside' kept', replaced.isGuardedLiteral_place above kept'] at outer'
    exact outer'.trans outer.symm

private theorem firstVerdict?_place (table : Table) (inside : statement < old.nodes.length)
    (kept : hole ∉ old.ancestors statement) (other : statement ≠ hole)
    (same : hole ∈ old.descendants statement → new.firstVerdict? table (place hole) = old.firstVerdict? table hole) :
    new.firstVerdict? table (place statement) = old.firstVerdict? table statement := by
  have tree := replaced.built.isTree
  simp only [firstVerdict?, firstCall?, List.map_findSome?] at same ⊢
  apply replaced.search_place inside kept
  · intro below within kept'
    have inside' := (tree.lt_of_mem_ancestors (tree.mem_descendants_iff.mp within)).2
    have here := List.getElem?_eq_getElem inside'
    obtain ⟨node, there, kind, target, _⟩ := replaced.node here kept'
    have used : (new.parent? (place below)).bind new.kind? = (old.parent? below).bind old.kind? := by
      rw [replaced.parent?_place inside' kept']
      cases link : old.parent? below with
      | none => rfl
      | some parent =>
        obtain ⟨inside'', kept'', _⟩ := replaced.kept_parent? link kept'
        exact replaced.kind?_place inside'' kept''
    simp only [Function.comp_apply, here, there, bind, Option.bind_some, kind, target]
    split
    · simp only [Option.map_some, isPassedOn, used]
    · rfl
  · exact fun within => same (List.mem_of_ne_of_mem (Ne.symm other) within)

private theorem rule?_place (table : Table) (inside : statement < old.nodes.length)
    (kept : hole ∉ old.ancestors statement)
    (other : statement ≠ hole)
    (same : hole ∈ old.descendants statement → new.yieldsNull (place hole) = old.yieldsNull hole ∧
      new.firstVerdict? table (place hole) = old.firstVerdict? table hole) :
    Report.rule? table new (place statement) = Report.rule? table old statement := by
  have null := replaced.yieldsNull_place inside kept other fun within => (same within).1
  have call := replaced.firstVerdict?_place table inside kept other fun within => (same within).2
  rw [firstVerdict?, firstVerdict?] at call
  rw [Report.rule?, Report.rule?, yieldsMarkedCall_eq, yieldsMarkedCall_eq, null, call]

end ReplacedBelow

end Body

/-! ## Reports -/

namespace Report

/-- The rule that a node breaks as a return statement of the method itself. -/
def ruleAt? (table : Table) (body : Body) (id : NodeId) : Option Rule :=
  if body.kind? id == some .return then if body.isNested id then none else rule? table body id else none

variable {old new body : Body} {hole : Nat} {place : Nat → Nat} {table : Table}

private theorem ofBody?_eq_ruleAt? (table : Table) (body : Body) :
    ofBody? table body = (owner? table body).bind fun owner =>
      ((body.descendants 0).findSome? (ruleAt? table body)).map fun rule =>
        ⟨rule, owner, (table.method? owner).bind (·.nameSpan)⟩ := by
  rw [ofBody?_eq, Body.findSome?_returns]
  rfl

/-- No return statement inside a nested function is one of the method. -/
theorem findSome?_ruleAt?_nested (tree : body.IsTree) {function : Nat}
    (nested : (body.kind? function).any (·.isNestedFunction) = true) :
    (body.descendants function).findSome? (ruleAt? table body) = none := by
  apply List.findSome?_eq_none_iff.mpr
  intro below within
  have inside : body.isNested below = true :=
    List.any_eq_true.mpr ⟨function, tree.mem_descendants_iff.mp within, nested⟩
  rw [ruleAt?, inside, if_pos rfl]
  split <;> rfl

private theorem ruleAt?_place (replaced : old.ReplacedBelow new hole place)
    (nested : (old.kind? hole).any (·.isNestedFunction) = true) {id : Nat} (below : id ∈ old.descendants 0)
    (kept : hole ∉ old.ancestors id)
    (same : id ∈ old.returns → old.isNested id = false → id ∈ old.ancestors hole →
      new.yieldsNull (place hole) = old.yieldsNull hole ∧
        new.firstVerdict? table (place hole) = old.firstVerdict? table hole) :
    ruleAt? table new (place id) = ruleAt? table old id := by
  have tree := replaced.built.isTree
  have inside := (tree.lt_of_mem_ancestors (tree.mem_descendants_iff.mp below)).2
  rw [ruleAt?, ruleAt?, replaced.kind?_place inside kept, replaced.isNested_place inside kept]
  split
  · rename_i statement
    split
    · rfl
    · rename_i outside
      apply replaced.rule?_place table inside kept
      · rintro rfl
        rw [beq_iff_eq.mp statement] at nested
        exact Bool.false_ne_true nested
      · intro within
        exact same (List.mem_filter.mpr ⟨below, statement⟩) (Bool.eq_false_iff.mpr outside)
          (tree.mem_descendants_iff.mp within)
  · rfl

/-- What is inside a nested function has no part in the report, where the function is not inside a return
statement of the method. Inside such a statement its part is what it would show as a statement. -/
theorem ofBody_replacedBelow (replaced : old.ReplacedBelow new hole place)
    (nested : (old.kind? hole).any (·.isNestedFunction) = true)
    (same : ∀ statement ∈ old.returns, old.isNested statement = false → statement ∈ old.ancestors hole →
      new.yieldsNull (place hole) = old.yieldsNull hole ∧
        new.firstVerdict? table (place hole) = old.firstVerdict? table hole) :
    ofBody? table new = ofBody? table old := by
  have tree := replaced.built.isTree
  have owner : owner? table new = owner? table old := by rw [owner?, owner?, replaced.kind, replaced.owner]
  have present : hole < old.nodes.length := by
    obtain ⟨kind, found, _⟩ := (Option.any_eq_true _ _).mp nested
    obtain ⟨node, there, _⟩ := Option.map_eq_some_iff.mp found
    exact (List.getElem?_eq_some_iff.mp there).1
  have kept : hole ∉ old.ancestors hole := fun self => Nat.lt_irrefl hole (tree.lt_of_mem_ancestors self).1
  have rootKept : hole ∉ old.ancestors 0 := fun self => Nat.not_lt_zero hole (tree.lt_of_mem_ancestors self).1
  have nested' : (new.kind? (place hole)).any (·.isNestedFunction) = true := by
    rwa [replaced.kind?_place present kept]
  have inner : (new.descendants (place hole)).findSome? (ruleAt? table new) =
      (old.descendants hole).findSome? (ruleAt? table old) := by
    rw [findSome?_ruleAt?_nested replaced.built'.isTree nested', findSome?_ruleAt?_nested tree nested]
  have statements : (new.descendants 0).findSome? (ruleAt? table new) =
      (old.descendants 0).findSome? (ruleAt? table old) := by
    have found := replaced.search_place (Nat.zero_lt_of_lt present) rootKept
      (fun id below kept => ruleAt?_place replaced nested below kept (same id))
      (fun _ => inner)
    rwa [replaced.root] at found
  rw [ofBody?_eq_ruleAt?, ofBody?_eq_ruleAt?, owner, statements]

/-- One method that returns a reference. -/
def oneMethod : Table where
  types := [{ name := "T", kind := .classType, members := [0] }]
  methods := [{ key := "T.Get()", name := "Get", signature := "()", owner := 0, returns := .reference "object" }]

/-- `return null;` -/
def returnNull : Tree := .node .return [.node .literal [] (some .null) none none] none none none

/-- `{ return null; }` -/
def nullBlock : Tree := .node .block [returnNull] none none none

/-- A statement in front of `return null;`. -/
def beforeNull : Tree.Context :=
  .node .block [] (.node .expressionStatement [] .hole [] none none none) [returnNull] none none none

/-- A return statement. -/
def returned : Tree.Context := .node .block [] (.node .return [] .hole [] none none none) [] none none none

/-- A body with a lambda in it. -/
def withLambda (context : Tree.Context) (inside : List Tree) : Body :=
  .ofTree .method (some 0) (fun _ => none) (context.plug (.node .lambda inside none none none))

theorem ofBody_lambdaBeforeNull :
    ofBody? oneMethod (withLambda beforeNull [nullBlock]) = some ⟨.nullValue, 0, none⟩ ∧
      ofBody? oneMethod (withLambda beforeNull []) = ofBody? oneMethod (withLambda beforeNull [nullBlock]) := by
  refine ⟨by cbv, ofBody_replacedBelow (Body.replacedBelow_ofTree ..) (by decide) ?_⟩
  decide

/-- A null that only the lambda returns is taken for a null that the method returns. -/
theorem ofBody_returnedLambda :
    (withLambda returned [nullBlock]).ReplacedBelow (withLambda returned []) 2 (Body.moved 2 4 1) ∧
      (withLambda returned [nullBlock]).kind? 2 = some .lambda ∧
      ofBody? oneMethod (withLambda returned [nullBlock]) = some ⟨.nullValue, 0, none⟩ ∧
      ofBody? oneMethod (withLambda returned []) = none :=
  ⟨Body.replacedBelow_ofTree .., by decide, by cbv, by cbv⟩

end Report

end NullReturns
