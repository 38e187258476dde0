import NullReturns.Symbol.Table

/-! # Inheritance, interfaces and markers

A method counts as marked when it carries the marker, when it overrides a method that counts as marked, or
when it implements an interface member that carries the marker.
-/

namespace NullReturns

/-! ## Chains of links

Bases and overrides are links from one id to at most one other. A chain follows them until there is no
further link or an id comes up a second time.
-/

/-- The ids met from `id` on, as long as they are in `fresh` and none is repeated. -/
def follow (next : Nat → Option Nat) (fresh : List Nat) (id : Nat) : List Nat :=
  if id ∈ fresh then
    id ::
      match next id with
      | none => []
      | some target => follow next (fresh.erase id) target
  else []
termination_by fresh.length
decreasing_by
  rename_i member
  rw [List.length_erase_of_mem member]
  have : 0 < fresh.length := List.length_pos_of_mem member
  omega

/-- The ids met breadth first from a queue, as long as they are in `fresh`, each once. -/
def explore (links : Nat → List Nat) (fresh : List Nat) : List Nat → List Nat
  | [] => []
  | id :: queue =>
    if id ∈ fresh then id :: explore links (fresh.erase id) (queue ++ links id)
    else explore links fresh queue
termination_by queue => (fresh.length, queue.length)
decreasing_by
  · rename_i member
    have : 0 < fresh.length := List.length_pos_of_mem member
    simp only [List.length_erase_of_mem member, Prod.lex_def]
    omega
  · simp [Prod.lex_def]

end NullReturns

namespace NullReturns.Table

/-! ## Bases, interfaces and overrides -/

/-- A type and its bases, nearest first. -/
def baseChain (table : Table) (id : TypeId) : List TypeId :=
  follow (fun id => (table.type? id).bind (·.base)) (List.range table.types.length) id

/-- The base and the declared interfaces of a type. -/
def links (table : Table) (id : TypeId) : List TypeId :=
  match table.type? id with
  | none => []
  | some type => type.base.toList ++ type.interfaces

def isInterface (table : Table) (id : TypeId) : Bool :=
  (table.type? id).any (·.kind == .interfaceType)

/-- The interfaces that a type has through its bases and through other interfaces, nearest first. -/
def allInterfaces (table : Table) (id : TypeId) : List TypeId :=
  let others := (List.range table.types.length).erase id
  (explore table.links others (table.links id)).filter table.isInterface

/-- Members of the containing type's interfaces that have the method's name. -/
def interfaceMembers (table : Table) (id : MethodId) : List MethodId :=
  match table.method? id with
  | none => []
  | some method =>
    (table.allInterfaces method.owner).flatMap fun interface =>
      ((table.type? interface).elim [] (·.members)).filter fun member =>
        (table.method? member).any (·.name == method.name)

/-- What a type itself says about an interface member: an explicit implementation, or else its first
method with the same name and signature. -/
def implementationIn? (table : Table) (member : MethodId) (id : TypeId) : Option MethodId := do
  let target ← table.method? member
  let type ← table.type? id
  (type.implementations.lookup member).or <|
    type.members.find? fun candidate =>
      (table.method? candidate).any fun method =>
        method.name == target.name && method.signature == target.signature

/-- The method that implements an interface member for a type. -/
def resolve? (table : Table) (id : TypeId) (member : MethodId) : Option MethodId :=
  (table.baseChain id).findSome? (table.implementationIn? member)

/-- The method implements an interface member that carries the marker. -/
def isMarkedByInterface (table : Table) (id : MethodId) : Bool :=
  (table.method? id).any fun method =>
    (table.interfaceMembers id).any fun member =>
      table.resolve? method.owner member == some id && table.hasMarker member

/-- A method, the one it overrides, and so on. -/
def overrideChain (table : Table) (id : MethodId) : List MethodId :=
  follow table.overridden? (List.range table.methods.length) id

/-- The method counts as marked nullable. -/
def isMarked (table : Table) (id : MethodId) : Bool :=
  (table.overrideChain id).any fun ancestor =>
    table.hasMarker ancestor || table.isMarkedByInterface ancestor

end NullReturns.Table
