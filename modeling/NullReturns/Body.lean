import NullReturns.Symbol.Table

/-! # Method bodies

A snapshot declares a body as a tree of nodes. The analysis has it as one list in which nodes know their
parents and children by number.
-/

namespace NullReturns

/-! ## Nodes

The kinds of statements and expressions that the analysis tells apart, and constant values.
-/

/-- The kind of member a body belongs to. -/
inductive BodyKind where
  | method
  | constructor
  | accessor
  | operator
  | initializer
deriving DecidableEq, Repr, Inhabited

inductive NodeKind where
  | block
  | expressionStatement
  | return
  | literal
  | invocation
  | objectCreation
  | fieldAccess
  | propertyAccess
  | conditionalAccess
  | conditional
  | coalesce
  | assignment
  | arrayInitializer
  | argument
  | binaryOperator
  | unaryOperator
  | conversion
  | localReference
  | parameterReference
  | lambda
  | localFunction
  | other
deriving DecidableEq, Repr, Inhabited

namespace NodeKind

/-- The node opens a function inside the body. -/
def isNestedFunction : NodeKind → Bool
  | .lambda | .localFunction => true
  | _ => false

/-- A literal below such a node is not what the statement yields. -/
def guardsLiteral : NodeKind → Bool
  | .argument | .binaryOperator => true
  | _ => false

/-- The result of a call directly below such a node is used, not yielded. -/
def guardsCall : NodeKind → Bool
  | .fieldAccess | .propertyAccess | .conditionalAccess | .assignment | .arrayInitializer => true
  | _ => false

end NodeKind

/-- A compile-time constant. -/
inductive Constant where
  | null
  | bool (value : Bool)
  | int (value : Int)
  | float (value : Float)
  | char (value : Char)
  | string (value : String)
deriving Repr, Inhabited

def Constant.isNull : Constant → Bool
  | .null => true
  | _ => false

/-! ## Declared trees

Calls name their targets by method key; a target on any other node says nothing.
-/

/-- A declared node with the nodes below it. -/
inductive Tree where
  | node (kind : NodeKind) (children : List Tree) (constant : Option Constant) (target : Option String)
      (span : Option Span)
deriving Repr, Inhabited

namespace Tree

mutual

/-- The spans of all nodes that have one, each node before the nodes below it. -/
def spans : Tree → List Span
  | .node _ children _ _ span => span.toList ++ spansAll children

def spansAll : List Tree → List Span
  | [] => []
  | tree :: rest => tree.spans ++ spansAll rest

end

mutual

/-- The number of nodes. -/
def size : Tree → Nat
  | .node _ children _ _ _ => 1 + sizeAll children

def sizeAll : List Tree → Nat
  | [] => 0
  | tree :: rest => tree.size + sizeAll rest

end

end Tree

/-! ## Bodies

A node is named by its index; the root has index zero. Nodes are only ever added below nodes that are there
already, so parents come before their children.
-/

abbrev NodeId := Nat

structure Node where
  kind : NodeKind
  /-- The method that a call resolves to. -/
  target : Option MethodId
  parent : Option NodeId
  children : List NodeId
  constant : Option Constant
deriving Repr, Inhabited

structure Body where
  kind : BodyKind
  owner : Option MethodId
  nodes : List Node
deriving Repr, Inhabited

namespace Body

/-- A body with nothing but a root. -/
def withRoot (kind : BodyKind) (owner : Option MethodId) (root : NodeKind)
    (target : Option MethodId := none) : Body :=
  ⟨kind, owner, [⟨root, target, none, [], none⟩]⟩

/-- Adds a node as the last child of `parent`; its id is the number of nodes so far. -/
def push (body : Body) (parent : NodeId) (kind : NodeKind) (target : Option MethodId := none) : Body :=
  let id := body.nodes.length
  let nodes := body.nodes.modify parent fun node => { node with children := node.children ++ [id] }
  { body with nodes := nodes ++ [⟨kind, target, some parent, [], none⟩] }

def setConstant (body : Body) (id : NodeId) (constant : Constant) : Body :=
  { body with nodes := body.nodes.modify id fun node => { node with constant := some constant } }

def kind? (body : Body) (id : NodeId) : Option NodeKind := body.nodes[id]?.map (·.kind)

def parent? (body : Body) (id : NodeId) : Option NodeId := body.nodes[id]?.bind (·.parent)

def children (body : Body) (id : NodeId) : List NodeId := body.nodes[id]?.elim [] (·.children)

def constant? (body : Body) (id : NodeId) : Option Constant := body.nodes[id]?.bind (·.constant)

/-- At most `steps` nodes on the way up from a node that may be missing. -/
def upward (body : Body) : Nat → Option NodeId → List NodeId
  | 0, _ => []
  | _ + 1, none => []
  | steps + 1, some id => id :: body.upward steps (body.parent? id)

/-- The nodes above a node, nearest first. -/
def ancestors (body : Body) (id : NodeId) : List NodeId :=
  body.upward body.nodes.length (body.parent? id)

/-- The nodes at most `depth` levels below a node, each before the nodes below it. -/
def downward (body : Body) : Nat → NodeId → List NodeId
  | 0, _ => []
  | depth + 1, id => (body.children id).flatMap fun child => child :: body.downward depth child

/-- The nodes below a node in document order. -/
def descendants (body : Body) (id : NodeId) : List NodeId := body.downward body.nodes.length id

/-- The return statements below the root in document order. -/
def returns (body : Body) : List NodeId :=
  (body.descendants 0).filter fun id => body.kind? id == some .return

/-- The node is inside a lambda or local function. -/
def isNested (body : Body) (id : NodeId) : Bool :=
  (body.ancestors id).any fun ancestor => (body.kind? ancestor).any (·.isNestedFunction)

/-! ## Bodies of declared trees -/

/-- The ids of sibling trees whose nodes are numbered one tree after the other from `id` on. -/
def siblingIds (id : NodeId) : List Tree → List NodeId
  | [] => []
  | tree :: rest => id :: siblingIds (id + tree.size) rest

mutual

/-- The nodes of a tree whose root gets `id`, each node before the nodes below it. -/
def flatten (resolve : String → Option MethodId) (parent : Option NodeId) (id : NodeId) :
    Tree → List Node
  | .node kind children constant target _ =>
    let target := if kind = .invocation then target.bind resolve else none
    ⟨kind, target, parent, siblingIds (id + 1) children, constant⟩ ::
      flattenAll resolve id (id + 1) children

/-- The nodes of sibling trees, the first of which gets `id`. -/
def flattenAll (resolve : String → Option MethodId) (parent : NodeId) (id : NodeId) :
    List Tree → List Node
  | [] => []
  | tree :: rest =>
    flatten resolve (some parent) id tree ++ flattenAll resolve parent (id + tree.size) rest

end

/-- The body of a declared tree. Targets that cannot be resolved are dropped. -/
def ofTree (kind : BodyKind) (owner : Option MethodId) (resolve : String → Option MethodId)
    (tree : Tree) : Body :=
  ⟨kind, owner, flatten resolve none 0 tree⟩

end Body

end NullReturns
