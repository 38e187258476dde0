import NullReturns.Body

/-! # Snapshots and compilations

What a host compiler declares about a compilation, and the same with all names and keys resolved.
-/

namespace NullReturns

/-! ## Declarations

Types are referred to by name and methods by key; references may lead outside the snapshot.
-/

structure DeclaredMethod where
  /-- Absent when the key is the one made of type, name and signature. -/
  key : Option String := none
  name : String := ""
  signature : String := "()"
  returns : ReturnType := .void
  attributes : List String := []
  isOverride : Bool := false
  overrides : Option String := none
  nameSpan : Option Span := none
deriving DecidableEq, Repr, Inhabited

structure DeclaredType where
  name : String := ""
  kind : TypeKind := .classType
  base : Option String := none
  interfaces : List String := []
  methods : List DeclaredMethod := []
  /-- Keys of interface members and of the methods that implement them, in the order of the members'
  keys, each member once. -/
  implementations : List (String × String) := []
deriving DecidableEq, Repr, Inhabited

structure DeclaredBody where
  kind : BodyKind := .method
  owner : Option String := none
  root : Tree := .node .block [] none none none
deriving Repr, Inhabited

structure DeclaredUnit where
  uri : String := ""
  text : Option String := none
  bodies : List DeclaredBody := []
deriving Repr, Inhabited

structure Snapshot where
  types : List DeclaredType := []
  units : List DeclaredUnit := []
deriving Repr, Inhabited

/-- The key a method goes by. -/
def DeclaredMethod.effectiveKey (method : DeclaredMethod) (typeName : String) : String :=
  method.key.getD (typeName ++ "." ++ method.name ++ method.signature)

/-! ## Linking

Types and methods are numbered in the order of their declarations. References that lead outside the snapshot
are dropped; repeated names and inverted node spans are refused.
-/

/-- A document with the bodies found in it. -/
structure SourceUnit where
  uri : String
  text : Option String
  bodies : List Body
deriving Repr, Inhabited

structure Compilation where
  table : Table
  units : List SourceUnit
deriving Repr

def Compilation.bodyCount (compilation : Compilation) : Nat :=
  (compilation.units.flatMap (·.bodies)).length

/-- The text of the last unit under a URI that has one. -/
def Compilation.sourceText? (compilation : Compilation) (uri : String) : Option String :=
  compilation.units.reverse.findSome? fun unit => if unit.uri = uri then unit.text else none

/-- Why a snapshot cannot be linked. -/
inductive LinkError where
  | repeatedType (name : String)
  | repeatedMethod (key : String)
  | invertedSpan (uri : String) (body : Nat) (span : Span)
deriving DecidableEq, Repr

def LinkError.message : LinkError → String
  | .repeatedType name => "duplicate type found: " ++ name
  | .repeatedMethod key => "duplicate method found: " ++ key
  | .invertedSpan uri body span =>
    "invalid body " ++ toString body ++ " in " ++ uri ++ ": node span ends before it starts: " ++
      toString span.start ++ ".." ++ toString span.stop

/-- The first entry that occurs earlier in the list or in `seen`. -/
def firstRepeated? (seen : List String) : List String → Option String
  | [] => none
  | name :: rest => if name ∈ seen then some name else firstRepeated? (name :: seen) rest

namespace Snapshot

def typeNames (snapshot : Snapshot) : List String := snapshot.types.map (·.name)

/-- The keys of a type's methods. -/
def keysOf (type : DeclaredType) : List String := type.methods.map (·.effectiveKey type.name)

def methodKeys (snapshot : Snapshot) : List String := snapshot.types.flatMap keysOf

def typeId? (snapshot : Snapshot) (name : String) : Option TypeId := snapshot.typeNames.idxOf? name

def methodId? (snapshot : Snapshot) (key : String) : Option MethodId := snapshot.methodKeys.idxOf? key

/-- A method of the type `owner`. A method that names what it overrides is an override. -/
def linkMethod (snapshot : Snapshot) (owner : TypeId) (typeName : String) (method : DeclaredMethod) :
    Method where
  key := method.effectiveKey typeName
  name := method.name
  signature := method.signature
  owner
  returns := method.returns
  isOverride := method.isOverride || method.overrides.isSome
  overridden := method.overrides.bind snapshot.methodId?
  attributes := method.attributes
  nameSpan := method.nameSpan

/-- A type whose first method gets the id `first`. -/
def linkType (snapshot : Snapshot) (first : MethodId) (type : DeclaredType) : TypeDef where
  name := type.name
  kind := type.kind
  base := type.base.bind snapshot.typeId?
  interfaces := type.interfaces.filterMap snapshot.typeId?
  members := List.range' first type.methods.length
  implementations := type.implementations.filterMap fun (member, method) => do
    return (← snapshot.methodId? member, ← snapshot.methodId? method)

/-- Types whose first method gets the id `first`. -/
def linkTypes (snapshot : Snapshot) (first : MethodId) : List DeclaredType → List TypeDef
  | [] => []
  | type :: rest =>
    snapshot.linkType first type :: linkTypes snapshot (first + type.methods.length) rest

/-- The methods of types, the first of which has the id `owner`. -/
def linkMethods (snapshot : Snapshot) (owner : TypeId) : List DeclaredType → List Method
  | [] => []
  | type :: rest =>
    type.methods.map (snapshot.linkMethod owner type.name) ++ linkMethods snapshot (owner + 1) rest

def table (snapshot : Snapshot) : Table :=
  ⟨snapshot.linkTypes 0 snapshot.types, snapshot.linkMethods 0 snapshot.types⟩

def linkBody (snapshot : Snapshot) (body : DeclaredBody) : Body :=
  .ofTree body.kind (body.owner.bind snapshot.methodId?) snapshot.methodId? body.root

def linkUnit (snapshot : Snapshot) (unit : DeclaredUnit) : SourceUnit where
  uri := unit.uri
  text := unit.text
  bodies := unit.bodies.map snapshot.linkBody

/-- The first inverted span of a unit and the index of the body it is in, counted from `index`. -/
def invertedIn? (index : Nat) : List DeclaredBody → Option (Nat × Span)
  | [] => none
  | body :: rest =>
    match body.root.spans.find? (·.isInverted) with
    | some span => some (index, span)
    | none => invertedIn? (index + 1) rest

/-- What keeps a snapshot from being linked. -/
def error? (snapshot : Snapshot) : Option LinkError :=
  match firstRepeated? [] snapshot.typeNames with
  | some name => some (.repeatedType name)
  | none =>
    match firstRepeated? [] snapshot.methodKeys with
    | some key => some (.repeatedMethod key)
    | none =>
      snapshot.units.findSome? fun unit =>
        (invertedIn? 0 unit.bodies).map fun (index, span) => .invertedSpan unit.uri index span

/-- Resolves all names and keys of a snapshot. -/
def link (snapshot : Snapshot) : Except LinkError Compilation :=
  match snapshot.error? with
  | some error => .error error
  | none => .ok ⟨snapshot.table, snapshot.units.map snapshot.linkUnit⟩

end Snapshot

end NullReturns
