import NullReturns.Text.Lines

/-! # Symbol tables

Types and methods are numbered in the order in which they were added. A table may hold anything a host
sends: repeated names, cycles of bases, interfaces or overrides.
-/

namespace NullReturns

/-! ## Marker attributes

A method is marked by an attribute called `CanBeNull`, whatever namespace declares it.
-/

/-- The part of a dotted name after its last dot. -/
def lastSegment (name : List Char) : List Char := (name.reverse.takeWhile (· ≠ '.')).reverse

/-- Drops one `ending` from the end of a name that has it. -/
def dropEnding (ending name : List Char) : List Char :=
  if ending.isSuffixOf name then name.take (name.length - ending.length) else name

/-- The attribute is a marker: its own name is `CanBeNull`, with or without `Attribute` at the end. -/
def isMarkerAttribute (name : String) : Bool :=
  dropEnding "Attribute".toList (lastSegment name.toList) == "CanBeNull".toList

/-! ## Types and methods -/

abbrev TypeId := Nat

abbrev MethodId := Nat

inductive TypeKind where
  | classType
  | structType
  | interfaceType
deriving DecidableEq, Repr, Inhabited

inductive ReturnType where
  | void
  /-- A type that has no null. -/
  | value (name : String)
  /-- A type with null, unconstrained type parameters included. -/
  | reference (name : String)
deriving DecidableEq, Repr, Inhabited

structure Method where
  key : String
  name : String
  signature : String
  owner : TypeId
  returns : ReturnType
  isOverride : Bool := false
  /-- Only meaningful on an override. -/
  overridden : Option MethodId := none
  attributes : List String := []
  nameSpan : Option Span := none
deriving DecidableEq, Repr

structure TypeDef where
  name : String
  kind : TypeKind
  base : Option TypeId := none
  interfaces : List TypeId := []
  members : List MethodId := []
  /-- Explicit implementations: interface member and implementing method, each member once. -/
  implementations : List (MethodId × MethodId) := []
deriving DecidableEq, Repr

/-- The return type can hold null. -/
def Method.canHoldNull (method : Method) : Bool :=
  match method.returns with
  | .reference _ => true
  | .void | .value _ => false

/-- The method carries the marker itself. -/
def Method.hasMarker (method : Method) : Bool := method.attributes.any isMarkerAttribute

structure Table where
  types : List TypeDef := []
  methods : List Method := []
deriving DecidableEq, Repr

namespace Table

def type? (table : Table) (id : TypeId) : Option TypeDef := table.types[id]?

def method? (table : Table) (id : MethodId) : Option Method := table.methods[id]?

/-- The method a method overrides, if it is an override and that method is known. -/
def overridden? (table : Table) (id : MethodId) : Option MethodId := do
  let method ← table.method? id
  if method.isOverride then method.overridden else none

/-- The method carries the marker itself. -/
def hasMarker (table : Table) (id : MethodId) : Bool := (table.method? id).any (·.hasMarker)

/-- The name of the method behind the name of its type. -/
def qualifiedName (table : Table) (id : MethodId) : String :=
  match table.method? id with
  | none => ""
  | some method => ((table.type? method.owner).map (·.name)).getD "" ++ "." ++ method.name

/-! ## Building a table -/

/-- Adds a type; its id is the number of types so far. -/
def addType (table : Table) (name : String) (kind : TypeKind) : Table :=
  { table with types := table.types ++ [{ name, kind }] }

def modifyType (table : Table) (id : TypeId) (change : TypeDef → TypeDef) : Table :=
  { table with types := table.types.modify id change }

def modifyMethod (table : Table) (id : MethodId) (change : Method → Method) : Table :=
  { table with methods := table.methods.modify id change }

def setBase (table : Table) (id base : TypeId) : Table :=
  table.modifyType id fun type => { type with base := some base }

def addInterface (table : Table) (id interface : TypeId) : Table :=
  table.modifyType id fun type => { type with interfaces := type.interfaces ++ [interface] }

/-- Adds a method to a type; its id is the number of methods so far. -/
def addMethod (table : Table) (owner : TypeId) (key name signature : String) (returns : ReturnType) :
    Table :=
  let id := table.methods.length
  let table := table.modifyType owner fun type => { type with members := type.members ++ [id] }
  { table with methods := table.methods ++ [{ key, name, signature, owner, returns }] }

def addAttribute (table : Table) (id : MethodId) (name : String) : Table :=
  table.modifyMethod id fun method => { method with attributes := method.attributes ++ [name] }

/-- Makes the method an override of `overridden`, or of a method outside the table. -/
def setOverride (table : Table) (id : MethodId) (overridden : Option MethodId) : Table :=
  table.modifyMethod id fun method => { method with isOverride := true, overridden }

def setNameSpan (table : Table) (id : MethodId) (span : Span) : Table :=
  table.modifyMethod id fun method => { method with nameSpan := some span }

/-- Records that `method` implements `member` in a type, in place of what was recorded before. -/
def implement (table : Table) (id : TypeId) (member method : MethodId) : Table :=
  table.modifyType id fun type =>
    let others := type.implementations.filter (·.1 != member)
    { type with implementations := others ++ [(member, method)] }

end Table

end NullReturns
