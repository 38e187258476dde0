import NullReturns.Body
import NullReturns.Symbol.Resolution

/-! # Findings

A body is reported once, for the first of its return statements that shows a null result. Statements in
nested functions do not count, nor do methods that cannot return null or that count as marked.
-/

namespace NullReturns

/-! ## Rules

The two ways in which a method can return null without saying so.
-/

inductive Rule where
  /-- A return statement yields a null literal. -/
  | nullValue
  /-- A return statement yields what a marked method returned. -/
  | markedCall
deriving DecidableEq, Repr

namespace Rule

/-- Every rule, in the order in which reports list them. -/
def all : List Rule := [.nullValue, .markedCall]

def id : Rule → String
  | .nullValue => "NR1001"
  | .markedCall => "NR1002"

def title : Rule → String
  | .nullValue => "Missing nullability attribute (value usage)"
  | .markedCall => "Missing nullability attribute (method usage)"

def message : Rule → String
  | .nullValue => "Method returns null value, but it is not marked with [CanBeNull]"
  | .markedCall =>
    "Method returns value from method with [CanBeNull] attribute, but it is not marked with [CanBeNull]"

def category : String := "Usage"

def severity : String := "warning"

/-- Findings with this rule id carry fixes that can be applied. -/
def isFixable (id : String) : Bool := all.any (·.id == id)

end Rule

end NullReturns

namespace NullReturns.Body

/-! ## Evidence for a null result

What in a return statement shows that it may yield null.
-/

/-- Between a literal and the statement stands a node that uses the literal's value up. -/
def isGuardedLiteral (body : Body) (statement literal : NodeId) : Bool :=
  ((body.ancestors literal).takeWhile (· != statement)).any fun ancestor =>
    (body.kind? ancestor).any (·.guardsLiteral)

/-- A null literal below the statement is what the statement yields. -/
def yieldsNull (body : Body) (statement : NodeId) : Bool :=
  (body.descendants statement).any fun id =>
    body.kind? id == some .literal && (body.constant? id).any (·.isNull) &&
      !body.isGuardedLiteral statement id

/-- The first call below a statement in document order, with its target. -/
def firstCall? (body : Body) (statement : NodeId) : Option (NodeId × Option MethodId) :=
  (body.descendants statement).findSome? fun id => do
    let node ← body.nodes[id]?
    if node.kind = .invocation then some (id, node.target) else none

/-- The first call below the statement is to a method that carries the marker, and nothing directly
above the call uses its result. -/
def yieldsMarkedCall (body : Body) (table : Table) (statement : NodeId) : Bool :=
  match body.firstCall? statement with
  | none => false
  | some (call, target) =>
    !((body.parent? call).bind body.kind?).any (·.guardsCall) && target.any table.hasMarker

end NullReturns.Body

namespace NullReturns

/-! ## Reports -/

structure Report where
  rule : Rule
  method : MethodId
  /-- The method's name in the source. -/
  location : Option Span
deriving DecidableEq, Repr

namespace Report

/-- The method that a return statement would be reported for. -/
def subject? (table : Table) (body : Body) (statement : NodeId) : Option MethodId := do
  guard (body.kind = .method ∧ body.isNested statement = false)
  let owner ← body.owner
  let method ← table.method? owner
  if method.canHoldNull && !table.isMarked owner then some owner else none

/-- The rule that a return statement breaks. -/
def rule? (table : Table) (body : Body) (statement : NodeId) : Option Rule :=
  if body.yieldsNull statement then some .nullValue
  else if body.yieldsMarkedCall table statement then some .markedCall
  else none

/-- The report of one return statement, taken by itself. -/
def ofStatement? (table : Table) (body : Body) (statement : NodeId) : Option Report := do
  let method ← subject? table body statement
  let rule ← rule? table body statement
  return ⟨rule, method, (table.method? method).bind (·.nameSpan)⟩

/-- The report of a body. -/
def ofBody? (table : Table) (body : Body) : Option Report :=
  body.returns.findSome? (ofStatement? table body)

end Report

/-- Watches return statements one after the other and reports at most once. -/
structure Watch where
  hasReported : Bool := false
deriving DecidableEq, Repr

/-- Looks at one return statement. -/
def Watch.step (watch : Watch) (table : Table) (body : Body) (statement : NodeId) :
    Option Report × Watch :=
  if watch.hasReported then (none, watch)
  else
    match Report.ofStatement? table body statement with
    | some report => (some report, ⟨true⟩)
    | none => (none, watch)

end NullReturns
