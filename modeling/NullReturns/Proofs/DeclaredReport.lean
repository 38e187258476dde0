import NullReturns.Finding
import NullReturns.Proofs.Arena
import NullReturns.Snapshot.Compilation
import Mathlib.Data.Option.Basic

/-! # Reports of declared bodies

What is reported for a body, told by recursion on its declared tree: no ids, no links to parents. The
search for return statements, the search for null literals below them and the search for their first
call are one search over trees with different questions, and each pass over the arena gives the answer
of that search.
-/

namespace NullReturns

/-! ## Searching a tree -/

namespace Tree

section

variable {α : Type}

mutual

/-- The first answer that `pick` gives for a node of the tree in document order. Nodes below one of a
kind that is not entered are not asked. `pick` is told the kind of the node directly above. -/
def search? (enters : NodeKind → Bool) (pick : NodeKind → Tree → Option α) (above : NodeKind) :
    Tree → Option α
  | .node kind children constant target span =>
    (pick above (.node kind children constant target span)).or
      (if enters kind then searchAll? enters pick kind children else none)

/-- The first answer in sibling trees. -/
def searchAll? (enters : NodeKind → Bool) (pick : NodeKind → Tree → Option α) (above : NodeKind) :
    List Tree → Option α
  | [] => none
  | tree :: rest => (tree.search? enters pick above).or (searchAll? enters pick above rest)

end

/-- The first answer strictly below the root. -/
def searchBelow? (enters : NodeKind → Bool) (pick : NodeKind → Tree → Option α) (tree : Tree) : Option α :=
  searchAll? enters pick tree.kind tree.children

end

/-- A null literal is below the statement, and neither an argument nor a binary operator is between. -/
def yieldsNull (statement : Tree) : Bool :=
  (statement.searchBelow? (fun kind => kind != .argument && kind != .binaryOperator) fun _ tree =>
    if tree.kind = .literal ∧ tree.constant.any (·.isNull) then some () else none).isSome

/-- The first call below the statement names a method that carries the marker, and the node directly
above the call does not use its result. -/
def yieldsMarkedCall (table : Table) (resolve : String → Option MethodId) (statement : Tree) : Bool :=
  let users : List NodeKind :=
    [.fieldAccess, .propertyAccess, .conditionalAccess, .assignment, .arrayInitializer]
  (statement.searchBelow? (fun _ => true) fun above tree =>
    if tree.kind = .invocation then
      some (!users.contains above && (tree.target.bind resolve).any table.hasMarker)
    else none).getD false

/-- The rule that a return statement breaks. -/
def rule? (table : Table) (resolve : String → Option MethodId) (statement : Tree) : Option Rule :=
  if statement.yieldsNull then some .nullValue
  else if statement.yieldsMarkedCall table resolve then some .markedCall
  else none

/-- The rule that the first offending return statement below the root breaks, where statements inside a
lambda or local function do not count. -/
def firstRule? (table : Table) (resolve : String → Option MethodId) (root : Tree) : Option Rule :=
  let enters (kind : NodeKind) : Bool := kind != .lambda && kind != .localFunction
  if enters root.kind then
    root.searchBelow? enters fun _ tree => if tree.kind = .return then tree.rule? table resolve else none
  else none

end Tree

/-- The report of a declared body: there is one only for a method's body, whose owner is known, returns
a reference and does not count as marked, and with an offending return statement. -/
def DeclaredBody.report? (table : Table) (resolve : String → Option MethodId) (body : DeclaredBody) :
    Option Report :=
  if body.kind = .method then do
    let owner ← body.owner.bind resolve
    let method ← table.method? owner
    let rule ← body.root.firstRule? table resolve
    if (method.returns matches .reference _) ∧ table.isMarked owner = false then
      some ⟨rule, owner, method.nameSpan⟩
    else none
  else none

/-! ## The same search over ids -/

namespace Body

variable {body : Body} {resolve : String → Option MethodId} {α : Type}

/-- A question about ids that has for every held node below `base` the answer of a search over trees:
the answer of `pick` where the way up to the node is open, and none elsewhere. -/
structure Mirrors (body : Body) (resolve : String → Option MethodId) (base : Nat)
    (isOpen : List NodeId → Bool) (enters : NodeKind → Bool) (pick : NodeKind → Tree → Option α)
    (ask : NodeId → Option α) : Prop where
  answer : ∀ {above id tree kind}, body.Holds resolve above id tree → base < id →
    above.head?.bind body.kind? = some kind → ask id = if isOpen above then pick kind tree else none
  entry : ∀ {above id tree}, body.Holds resolve above id tree → base < id →
    isOpen (id :: above) = (isOpen above && enters tree.kind)

variable {base : Nat} {isOpen : List NodeId → Bool} {enters : NodeKind → Bool}
  {pick : NodeKind → Tree → Option α} {ask : NodeId → Option α}

mutual

/-- Asking the ids of a held tree one after the other is searching the tree. -/
theorem Mirrors.search? (mirrors : body.Mirrors resolve base isOpen enters pick ask) {above : List NodeId}
    {id : Nat} {kind : NodeKind} (parent : above.head?.bind body.kind? = some kind) (below : base < id) :
    (tree : Tree) → body.Holds resolve above id tree →
      (List.range' id tree.size).findSome? ask = if isOpen above then tree.search? enters pick kind else none
  | .node kind children constant target span, held => by
    have nearest : (id :: above).head?.bind body.kind? = some kind := by
      rw [List.head?_cons, Option.bind_some, held.kind?, Tree.kind]
    have deeper : base < id + 1 := by omega
    have rest := mirrors.searchAll? nearest deeper children held.below
    have entry := mirrors.entry held below
    rw [Tree.size, ← List.range'_append_1, List.range'_one, List.findSome?_append, List.findSome?_singleton,
      mirrors.answer held below parent, rest, entry, Tree.search?, Tree.kind]
    cases isOpen above <;> cases enters kind <;> simp

private theorem Mirrors.searchAll? (mirrors : body.Mirrors resolve base isOpen enters pick ask) {above : List NodeId}
    {id : Nat} {kind : NodeKind} (parent : above.head?.bind body.kind? = some kind) (below : base < id) :
    (trees : List Tree) → body.HoldsAll resolve above id trees →
      (List.range' id (Tree.sizeAll trees)).findSome? ask =
        if isOpen above then Tree.searchAll? enters pick kind trees else none
  | [], _ => by simp [Tree.sizeAll, Tree.searchAll?]
  | tree :: rest, held => by
    have first := mirrors.search? parent below tree held.1
    have behind : base < id + tree.size := by omega
    have others := mirrors.searchAll? parent behind rest held.2
    rw [Tree.sizeAll, ← List.range'_append_1, List.findSome?_append, first, others, Tree.searchAll?]
    cases isOpen above <;> simp

end

/-! ## The three passes -/

section

variable {above : List NodeId} {statement : Nat} {tree : Tree}

/-- Searching below a held node, on the way to which every question is open. -/
theorem Mirrors.descendants (mirrors : body.Mirrors resolve statement isOpen enters pick ask)
    (held : body.Holds resolve above statement tree) :
    (body.descendants statement).findSome? ask =
      if isOpen (statement :: above) then tree.searchBelow? enters pick else none := by
  rw [held.descendants]
  exact mirrors.searchAll? (by simp only [List.head?_cons, Option.bind_some, held.kind?])
    (Nat.lt_succ_self statement) tree.children held.below

/-- No node on the way up to the statement uses up the value of a literal. -/
private def isOpenTo (body : Body) (statement : NodeId) (above : List NodeId) : Bool :=
  !(above.takeWhile (· != statement)).any fun ancestor => (body.kind? ancestor).any (·.guardsLiteral)

private theorem mirrors_literal (body : Body) (resolve : String → Option MethodId) (statement : Nat) :
    body.Mirrors resolve statement (body.isOpenTo statement)
      (fun kind => kind != .argument && kind != .binaryOperator)
      (fun _ tree => if tree.kind = .literal ∧ tree.constant.any (·.isNull) then some () else none)
      (fun id => if body.kind? id == some .literal && (body.constant? id).any (·.isNull) &&
        !body.isGuardedLiteral statement id then some () else none) where
  answer := by
    intro above id tree kind held _ _
    simp only [isGuardedLiteral, held.kind?, held.constant?, held.ancestors, isOpenTo]
    by_cases literal : tree.kind = .literal <;> by_cases null : tree.constant.any (·.isNull) <;>
      simp [literal, null]
  entry := by
    intro above id tree held below
    have other : (id != statement) = true := bne_iff_ne.mpr (Nat.ne_of_gt below)
    have guards : tree.kind.guardsLiteral = !(tree.kind != .argument && tree.kind != .binaryOperator) := by
      cases tree.kind <;> rfl
    simp only [isOpenTo, List.takeWhile_cons, other, if_true, List.any_cons, held.kind?, Option.any_some, guards]
    cases tree.kind != .argument && tree.kind != .binaryOperator <;> simp

/-- The walk from each literal up to the statement finds what the search below the statement finds. -/
theorem Holds.yieldsNull (held : body.Holds resolve above statement tree) :
    body.yieldsNull statement = tree.yieldsNull := by
  have found := (mirrors_literal body resolve statement).descendants held
  have reached : body.isOpenTo statement (statement :: above) = true := by simp [isOpenTo]
  rw [reached, if_pos rfl] at found
  rw [Body.yieldsNull, Tree.yieldsNull, ← found, List.isSome_findSome?]
  congr 1
  funext id
  split <;> simp_all

/-- The statement yields what a marked method returned, if the call is the first one in it. -/
def isPassedOn (body : Body) (table : Table) (call : NodeId × Option MethodId) : Bool :=
  !((body.parent? call.1).bind body.kind?).any (·.guardsCall) && call.2.any table.hasMarker

theorem yieldsMarkedCall_eq (body : Body) (table : Table) (statement : NodeId) :
    body.yieldsMarkedCall table statement =
      ((body.firstCall? statement).map (body.isPassedOn table)).getD false := by
  rw [yieldsMarkedCall]
  cases body.firstCall? statement <;> rfl

private theorem mirrors_call (body : Body) (resolve : String → Option MethodId) (table : Table)
    (statement : Nat) :
    body.Mirrors resolve statement (fun _ => true) (fun _ => true)
      (fun above tree =>
        if tree.kind = .invocation then
          some (!([.fieldAccess, .propertyAccess, .conditionalAccess, .assignment, .arrayInitializer] :
            List NodeKind).contains above && (tree.target.bind resolve).any table.hasMarker)
        else none)
      (Option.map (body.isPassedOn table) ∘ fun id => do
        let node ← body.nodes[id]?
        if node.kind = .invocation then some (id, node.target) else none) where
  answer := by
    intro above id tree kind held _ parent
    have guards : kind.guardsCall = ([.fieldAccess, .propertyAccess, .conditionalAccess, .assignment,
        .arrayInitializer] : List NodeKind).contains kind := by cases kind <;> rfl
    simp only [Function.comp_apply, held.node, bind, Option.bind_some, rootNode]
    by_cases call : tree.kind = .invocation
    · simp only [call, if_true, Option.map_some, isPassedOn, held.parent?, parent, Option.any_some, guards]
    · simp only [call, if_false, Option.map_none, if_true]
  entry := by
    intros
    rfl

/-- The first call found among ids is the first call of the tree, with the node of the tree above it. -/
theorem Holds.yieldsMarkedCall (held : body.Holds resolve above statement tree) (table : Table) :
    body.yieldsMarkedCall table statement = tree.yieldsMarkedCall table resolve := by
  have found := (mirrors_call body resolve table statement).descendants held
  rw [if_pos rfl] at found
  rw [yieldsMarkedCall_eq, firstCall?, List.map_findSome?, found]
  rfl

theorem Holds.rule? (held : body.Holds resolve above statement tree) (table : Table) :
    Report.rule? table body statement = tree.rule? table resolve := by
  rw [Report.rule?, Tree.rule?, held.yieldsNull, held.yieldsMarkedCall]

private theorem mirrors_return (body : Body) (resolve : String → Option MethodId) (table : Table) (root : Nat) :
    body.Mirrors resolve root
      (fun above => !above.any fun ancestor => (body.kind? ancestor).any (·.isNestedFunction))
      (fun kind => kind != .lambda && kind != .localFunction)
      (fun _ tree => if tree.kind = .return then tree.rule? table resolve else none)
      (fun id =>
        if body.kind? id == some .return then if body.isNested id then none else Report.rule? table body id
        else none) where
  answer := by
    intro above id tree kind held _ _
    simp only [held.kind?, isNested, held.ancestors, held.rule?]
    generalize above.any _ = nested
    by_cases statement : tree.kind = .return <;> cases nested <;> simp [statement]
  entry := by
    intro above id tree held _
    have nested : tree.kind.isNestedFunction = !(tree.kind != .lambda && tree.kind != .localFunction) := by
      cases tree.kind <;> rfl
    simp only [List.any_cons, held.kind?, Option.any_some, nested]
    cases tree.kind != .lambda && tree.kind != .localFunction <;> simp

/-- The return statements outside nested functions, asked one after the other. -/
theorem Holds.firstRule? (held : body.Holds resolve [] 0 tree) (table : Table) :
    body.returns.findSome? (fun id => if body.isNested id then none else Report.rule? table body id) =
      tree.firstRule? table resolve := by
  have found := (mirrors_return body resolve table 0).descendants held
  rw [← List.head?_filterMap, returns, List.filterMap_filter, List.head?_filterMap, found, Tree.firstRule?]
  cases root : tree.kind <;> simp [held.kind?, root, NodeKind.isNestedFunction]

end

end Body

/-! ## Reports -/

namespace Report

/-- The owner of a body, where a report on the body is possible at all. -/
def owner? (table : Table) (body : Body) : Option MethodId :=
  if body.kind = .method then do
    let owner ← body.owner
    let method ← table.method? owner
    if method.canHoldNull && !table.isMarked owner then some owner else none
  else none

private theorem ofStatement?_eq (table : Table) (body : Body) :
    ofStatement? table body = fun statement => (owner? table body).bind fun owner =>
      (if body.isNested statement then none else rule? table body statement).map fun rule =>
        ⟨rule, owner, (table.method? owner).bind (·.nameSpan)⟩ := by
  funext statement
  have subject : subject? table body statement =
      if body.isNested statement then none else owner? table body := by
    by_cases method : body.kind = .method <;> cases nested : body.isNested statement <;>
      simp [subject?, owner?, guard, method, nested]
  rw [ofStatement?, subject]
  cases body.isNested statement <;> cases owner? table body <;> cases rule? table body statement <;> rfl

/-- Looking at every return statement is one look at the owner and one search for a broken rule. -/
theorem ofBody?_eq (table : Table) (body : Body) :
    ofBody? table body = (owner? table body).bind fun owner =>
      (body.returns.findSome? fun id => if body.isNested id then none else rule? table body id).map fun rule =>
        ⟨rule, owner, (table.method? owner).bind (·.nameSpan)⟩ := by
  rw [ofBody?, ofStatement?_eq]
  cases owner? table body with
  | none => simp only [Option.bind_none, List.findSome?_eq_none_iff, implies_true]
  | some owner =>
    simp only [Option.bind_some, List.map_findSome?]
    rfl

/-- The report of a body is the one that recursion on its declared tree gives. -/
theorem ofBody_linkBody (snapshot : Snapshot) (body : DeclaredBody) :
    ofBody? snapshot.table (snapshot.linkBody body) = body.report? snapshot.table snapshot.methodId? := by
  have held := Body.holds_ofTree body.kind (body.owner.bind snapshot.methodId?) snapshot.methodId? body.root
  rw [ofBody?_eq, Snapshot.linkBody, held.firstRule?, DeclaredBody.report?, owner?, Body.ofTree]
  by_cases method : body.kind = .method
  · simp only [method, if_true]
    cases body.owner.bind snapshot.methodId? with
    | none => rfl
    | some owner =>
      cases found : snapshot.table.method? owner with
      | none => simp only [bind, Option.bind_some, found, Option.bind_none]
      | some method =>
        have reference : (method.returns matches .reference _) = method.canHoldNull := by
          rw [Method.canHoldNull]
          cases method.returns <;> rfl
        simp only [bind, Option.bind_some, found, reference]
        cases method.canHoldNull <;> cases snapshot.table.isMarked owner <;>
          cases body.root.firstRule? snapshot.table snapshot.methodId? <;> simp [found]
  · simp only [method, if_false, Option.bind_none]

end Report

end NullReturns
