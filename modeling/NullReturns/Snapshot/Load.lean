import NullReturns.Host
import NullReturns.Snapshot.Compilation
import NullReturns.Snapshot.Decoder

/-! # Loading snapshots

A snapshot is read from a file and decoded by its schema. Units declared without text take it from the file
that their URI names, seen from the snapshot's directory; a file that cannot be read leaves a unit without
text.
-/

namespace NullReturns

/-! ## The schema

Names, fields and defaults of everything a snapshot may hold. Every object refuses names it does not know,
spans excepted.
-/

/-! ### Names -/

def TypeKind.named : List (String × TypeKind) :=
  [("class", .classType), ("struct", .structType), ("interface", .interfaceType)]

def BodyKind.named : List (String × BodyKind) :=
  [("method", .method), ("constructor", .constructor), ("accessor", .accessor), ("operator", .operator),
    ("initializer", .initializer)]

def NodeKind.named : List (String × NodeKind) :=
  [("block", .block), ("expression_statement", .expressionStatement), ("return", .return),
    ("literal", .literal), ("invocation", .invocation), ("object_creation", .objectCreation),
    ("field_access", .fieldAccess), ("property_access", .propertyAccess),
    ("conditional_access", .conditionalAccess), ("conditional", .conditional), ("coalesce", .coalesce),
    ("assignment", .assignment), ("array_initializer", .arrayInitializer), ("argument", .argument),
    ("binary_operator", .binaryOperator), ("unary_operator", .unaryOperator),
    ("conversion", .conversion), ("local_reference", .localReference),
    ("parameter_reference", .parameterReference), ("lambda", .lambda),
    ("local_function", .localFunction), ("other", .other)]

/-- The name under which a table lists a value; empty when it does not. -/
def nameIn {α : Type} [BEq α] (names : List (String × α)) (value : α) : String :=
  ((names.find? fun (_, other) => other == value).map (·.1)).getD ""

def TypeKind.name (kind : TypeKind) : String := nameIn named kind

def BodyKind.name (kind : BodyKind) : String := nameIn named kind

def NodeKind.name (kind : NodeKind) : String := nameIn named kind

namespace Snapshot

namespace Schema

open Decoder

/-! ### Values -/

def bareCases {α : Type} (names : List (String × α)) : List (String × Case α) :=
  names.map fun (name, value) => (name, .bare value)

/-- A case that wraps what `decoder` reads. -/
def wrapping {α β : Type} (wrap : α → β) (decoder : Decoder α) : Case β :=
  .payload fun context doc => (decoder context doc).map wrap

def typeKind : Decoder TypeKind := enumeration (bareCases TypeKind.named)

def bodyKind : Decoder BodyKind := enumeration (bareCases BodyKind.named)

def nodeKind : Decoder NodeKind := enumeration (bareCases NodeKind.named)

def returnType : Decoder ReturnType :=
  enumeration
    [("void", .bare .void), ("value", wrapping .value string),
      ("reference", wrapping .reference string)]

def constant : Decoder Constant :=
  enumeration
    [("null", .bare .null), ("bool", wrapping .bool bool), ("int", wrapping .int integer),
      ("float", wrapping .float float), ("char", wrapping .char char),
      ("string", wrapping .string string)]

def span : Decoder Span :=
  Shape.decoder
    { name := "TextSpan"
      fields :=
        [field "start" offset (fun span start => { span with start }) true,
          field "end" offset (fun span stop => { span with stop }) true]
      blank := ⟨0, 0⟩
      isOpen := true }

/-! ### Declarations -/

def method : Decoder DeclaredMethod :=
  Shape.decoder
    { name := "MethodDecl"
      fields :=
        [field "key" (optional string) fun method key => { method with key },
          field "name" string (fun method name => { method with name }) true,
          field "signature" string fun method signature => { method with signature },
          field "returns" returnType (fun method returns => { method with returns }) true,
          field "attributes" (sequence string) fun method attributes => { method with attributes },
          field "is_override" bool fun method isOverride => { method with isOverride },
          field "overrides" (optional string) fun method overrides => { method with overrides },
          field "name_span" (optional span) fun method nameSpan => { method with nameSpan }]
      blank := { } }

def type : Decoder DeclaredType :=
  Shape.decoder
    { name := "TypeDecl"
      fields :=
        [field "name" string (fun type name => { type with name }) true,
          field "kind" typeKind (fun type kind => { type with kind }) true,
          field "base" (optional string) fun type base => { type with base },
          field "interfaces" (sequence string) fun type interfaces => { type with interfaces },
          field "methods" (sequence method) fun type methods => { type with methods },
          field "implementations" texts fun type implementations => { type with implementations }]
      blank := { } }

/-- A node whose children are read by `child`. -/
def node (child : Decoder Tree) : Decoder Tree :=
  Shape.decoder
    { name := "NodeDecl"
      fields :=
        [field "kind" nodeKind (fun (.node _ children constant target span) kind =>
            .node kind children constant target span) true,
          field "children" (sequence child) fun (.node kind _ constant target span) children =>
            .node kind children constant target span,
          field "constant" (optional constant) fun (.node kind children _ target span) constant =>
            .node kind children constant target span,
          field "target" (optional string) fun (.node kind children constant _ span) target =>
            .node kind children constant target span,
          field "span" (optional span) fun (.node kind children constant target _) span =>
            .node kind children constant target span]
      blank := .node .block [] none none none }

/-- How deep arrays and objects may nest. -/
def nestingLimit : Nat := 127

/-- A node with at most `levels` levels of nodes. Every level takes two nestings of the text, so that
`nestingLimit` levels are more than a text can have. -/
def tree : Nat → Decoder Tree
  | 0 => unexpected "struct NodeDecl"
  | levels + 1 => node (tree levels)

def body : Decoder DeclaredBody :=
  Shape.decoder
    { name := "BodyDecl"
      fields :=
        [field "kind" bodyKind (fun body kind => { body with kind }) true,
          field "owner" (optional string) fun body owner => { body with owner },
          field "root" (tree nestingLimit) (fun body root => { body with root }) true]
      blank := { } }

def sourceUnit : Decoder DeclaredUnit :=
  Shape.decoder
    { name := "UnitDecl"
      fields :=
        [field "uri" string (fun unit uri => { unit with uri }) true,
          field "text" (optional string) fun unit text => { unit with text },
          field "bodies" (sequence body) fun unit bodies => { unit with bodies }]
      blank := { } }

def snapshot : Decoder Snapshot :=
  Shape.decoder
    { name := "SnapshotFile"
      fields :=
        [field "types" (sequence type) fun snapshot types => { snapshot with types },
          field "units" (sequence sourceUnit) fun snapshot units => { snapshot with units }]
      blank := { } }

end Schema

/-- The snapshot that a document holds. -/
def ofDoc (doc : Json.Doc) : Except Refusal Snapshot :=
  Schema.snapshot ⟨Schema.nestingLimit, [], doc.start⟩ doc

/-- The snapshot that a text holds; what follows its first value does not matter. -/
def decode (text : String) : Except Refusal Snapshot := ofDoc (Json.Doc.parse text)

end Snapshot

/-! ## Files -/

inductive LoadError where
  | unreadable (path : String) (fault : Files.Fault)
  | undecodable (path : String) (refusal : Snapshot.Refusal)
  | unlinkable (error : LinkError)

def LoadError.message : LoadError → String
  | .unreadable path fault => "failed to read snapshot " ++ path ++ ": " ++ fault.message
  | .undecodable path refusal => "failed to decode snapshot " ++ path ++ ": " ++ refusal.message
  | .unlinkable error => error.message

namespace Snapshot

variable {m : Type → Type} [Monad m]

/-- Gives a unit without text the text of its file. -/
def fillUnit (host : Host m) (directory : String) (unit : DeclaredUnit) : m DeclaredUnit :=
  match unit.text with
  | some _ => return unit
  | none => return { unit with text := (← host.read (Files.join directory unit.uri)).toOption }

def fill (host : Host m) (directory : String) (snapshot : Snapshot) : m Snapshot :=
  return { snapshot with units := ← snapshot.units.mapM (fillUnit host directory) }

/-- Reads, decodes and links the snapshot at a path. -/
def load (host : Host m) (path : String) : m (Except LoadError Compilation) := do
  match ← host.read path with
  | .error fault => return .error (.unreadable path fault)
  | .ok text =>
    match decode text with
    | .error refusal => return .error (.undecodable path refusal)
    | .ok snapshot =>
      match (← snapshot.fill host (Files.directoryOf path)).link with
      | .error error => return .error (.unlinkable error)
      | .ok compilation => return .ok compilation

end Snapshot

end NullReturns
