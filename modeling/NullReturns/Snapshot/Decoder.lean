import NullReturns.Snapshot.Mismatch

/-! # Decoders

Decoders for the shapes of which the snapshot schema is made. A record is an object, or an array of its
fields in order; an enumeration case is its bare name, or an object whose only key is that name.
-/

namespace NullReturns.Snapshot

open Json

/-- Where a decoder stands: how much deeper arrays and objects may still nest, the path, and the
position at which a mismatch is reported that has none of its own. -/
structure Context where
  depth : Nat
  path : Path
  landing : Position

abbrev Decoder (α : Type) := Context → Doc → Except Refusal α

namespace Context

def inside (context : Context) (step : Step) : Context := { context with path := step :: context.path }

def refuse {α : Type} (context : Context) (mismatch : Mismatch) (position : Position) :
    Except Refusal α :=
  .error ⟨mismatch, position, context.path⟩

def halt {α : Type} (context : Context) (stop : Stop) : Except Refusal α :=
  context.refuse (.malformed stop.fault) stop.position

/-- Goes into an array or object that starts at `start`. -/
def enter {α : Type} (context : Context) (start : Position) (go : Context → Except Refusal α) :
    Except Refusal α :=
  match context.depth with
  | 0 => context.refuse (.malformed .tooDeep) start.next
  | depth + 1 => go { context with depth }

end Context

namespace Decoder

/-- Refuses a value because it is not what was expected. -/
def unexpected {α : Type} (expected : String) : Decoder α
  | context, .absent stop | context, .bad _ _ stop => context.halt stop
  | context, .null _ after => context.refuse (.wrongType .null expected) after
  | context, .bool _ value after => context.refuse (.wrongType (.bool value) expected) after
  | context, .number _ (.error stop) _ _ | context, .string _ (.error stop) _ _ => context.halt stop
  | context, .number _ (.ok (.natural value)) _ after =>
    context.refuse (.wrongType (.integer value) expected) after
  | context, .number _ (.ok (.negative value)) _ after =>
    context.refuse (.wrongType (.integer value) expected) after
  | context, .number _ (.ok (.float value)) _ after =>
    context.refuse (.wrongType (.float value) expected) after
  | context, .string _ (.ok value) _ after => context.refuse (.wrongType (.string value) expected) after
  | context, .array start _ _ => context.refuse (.wrongType .array expected) start
  | context, .object start _ _ | context, .misfit start _ =>
    context.refuse (.wrongType .object expected) start

/-! ## Scalars -/

def string : Decoder String
  | _, .string _ (.ok value) _ _ => .ok value
  | context, doc => unexpected "a string" context doc

def bool : Decoder Bool
  | _, .bool _ value _ => .ok value
  | context, doc => unexpected "a boolean" context doc

/-- An unsigned 64-bit number. -/
def offset : Decoder Nat
  | _, .number _ (.ok (.natural value)) _ _ => .ok value
  | context, .number _ (.ok (.negative value)) _ after =>
    context.refuse (.wrongValue (.integer value) "usize") after
  | context, doc => unexpected "usize" context doc

/-- A signed 64-bit number. -/
def integer : Decoder Int
  | context, .number _ (.ok (.natural value)) _ after =>
    if value < 0x8000000000000000 then .ok value
    else context.refuse (.wrongValue (.integer value) "i64") after
  | _, .number _ (.ok (.negative value)) _ _ => .ok value
  | context, doc => unexpected "i64" context doc

def float : Decoder Float
  | _, .number _ (.ok (.natural value)) _ _ => .ok value.toUInt64.toFloat
  | _, .number _ (.ok (.negative value)) _ _ => .ok (-value.natAbs.toUInt64.toFloat)
  | _, .number _ (.ok (.float value)) _ _ => .ok value
  | context, doc => unexpected "f64" context doc

/-- A text of one character. -/
def char : Decoder Char
  | context, .string _ (.ok value) _ after =>
    match value.toList with
    | [c] => .ok c
    | _ => context.refuse (.wrongValue (.string value) "a character") after
  | context, doc => unexpected "a character" context doc

/-- Nothing but `null`. -/
def unit : Decoder Unit
  | _, .null _ _ => .ok ()
  | context, doc => unexpected "unit" context doc

/-- `null`, or what `decoder` accepts. -/
def optional {α : Type} (decoder : Decoder α) : Decoder (Option α)
  | _, .null _ _ => .ok none
  | context, .bad start first stop =>
    if first = 'n' then context.halt stop else (decoder context (.bad start first stop)).map some
  | context, doc => (decoder context doc).map some

/-! ## Arrays -/

/-- Where a mismatch in an array's item lands: the comma or bracket behind the item counts as read. -/
def itemLanding (gap : Gap) : Position :=
  match gap.turn with
  | .close => gap.here.next
  | .comma rest _ => rest
  | .other | .ended => gap.here

/-- What keeps a further item from being read behind a gap. -/
def noFurtherItem? (gap : Gap) : Option Stop :=
  match gap.turn with
  | .close | .comma _ .quote | .comma _ .other => none
  | .comma rest .closing => some ⟨.trailingComma, rest.next⟩
  | .comma rest .ended => some ⟨.endInValue, rest⟩
  | .other => some ⟨.expectedCommaOrBracket, gap.here.next⟩
  | .ended => some ⟨.endInArray, gap.here⟩

/-- What keeps an array from being complete at a gap. -/
def notClosed? (gap : Gap) : Option Stop :=
  match gap.turn with
  | .close => none
  | .comma rest .closing => some ⟨.trailingComma, rest.next⟩
  | .comma rest .ended => some ⟨.trailingCharacters, rest⟩
  | .comma rest _ => some ⟨.trailingCharacters, rest.next⟩
  | .other => some ⟨.trailingCharacters, gap.here.next⟩
  | .ended => some ⟨.endInArray, gap.here⟩

/-- The items from the `i`-th on. -/
def itemsFrom {α : Type} (decoder : Decoder α) (context : Context) (i : Nat) :
    Items → Except Refusal (List α)
  | .nil => .ok []
  | .cons value gap rest => do
    let first ← decoder { context.inside (.index i) with landing := itemLanding gap } value
    match noFurtherItem? gap with
    | some stop => context.halt stop
    | none => return first :: (← itemsFrom decoder context (i + 1) rest)

/-- An array of any length. -/
def sequence {α : Type} (decoder : Decoder α) : Decoder (List α)
  | context, .array start lead items =>
    context.enter start fun context =>
      match lead.turn with
      | .ended => context.halt ⟨.endInArray, lead.here⟩
      | _ => itemsFrom decoder context 0 items
  | context, doc => unexpected "a sequence" context doc

/-! ## Objects -/

/-- Where a mismatch in a member's value lands: a closing brace behind it counts as read. -/
def memberLanding (gap : Gap) : Position :=
  match gap.turn with
  | .close => gap.here.next
  | _ => gap.here

/-- What keeps a further member from being read behind a gap. -/
def noFurtherMember? (gap : Gap) : Option Stop :=
  match gap.turn with
  | .close | .comma _ .quote => none
  | .comma rest .closing => some ⟨.trailingComma, rest.next⟩
  | .comma rest .other => some ⟨.keyNotString, rest.next⟩
  | .comma rest .ended => some ⟨.endInValue, rest⟩
  | .other => some ⟨.expectedCommaOrBrace, gap.here.next⟩
  | .ended => some ⟨.endInObject, gap.here⟩

/-- Goes through the members of an object. `accept` judges a name and says how to read the value under
it; a missing colon is noticed only once the name has been accepted. -/
def fold {σ : Type} (context : Context)
    (accept : σ → Key → String → Except Refusal (Context → Doc → Except Refusal σ)) :
    σ → Members → Except Refusal σ
  | state, .nil => .ok state
  | state, .cons key value gap rest => do
    match key.name with
    | .error stop => (context.inside .unreadable).halt stop
    | .ok name =>
      let read ← accept state key name
      match key.colon with
      | some stop => context.halt stop
      | none =>
        let state ← read { context.inside (.key name) with landing := memberLanding gap } value
        match noFurtherMember? gap with
        | some stop => (context.inside .unreadable).halt stop
        | none => fold context accept state rest

/-- Goes into an object and through its members. -/
def members {σ : Type} (expected : String) (context : Context) (initial : σ)
    (accept : Context → σ → Key → String → Except Refusal (Context → Doc → Except Refusal σ))
    (finish : Context → Position → σ → Except Refusal σ) : Doc → Except Refusal σ
  | .object start lead members =>
    context.enter start fun context =>
      match lead.turn with
      | .ended => (context.inside .unreadable).halt ⟨.endInObject, lead.here⟩
      | _ => do finish context (closing lead members) (← fold context (accept context) initial members)
  | .misfit start first =>
    context.enter start fun context =>
      (context.inside .unreadable).halt ⟨.keyNotString, first.start.next⟩
  | doc => unexpected expected context doc
where
  /-- The position behind the closing brace of an object that has one. -/
  closing (lead : Gap) : Members → Position
    | .nil => lead.here.next
    | .cons _ _ gap .nil => gap.here.next
    | .cons _ _ _ rest => closing lead rest

/-- Puts an entry into a list that is ordered by key, in place of an entry with the same key. -/
def insertEntry (key value : String) : List (String × String) → List (String × String)
  | [] => [(key, value)]
  | (other, old) :: rest =>
    if key < other then (key, value) :: (other, old) :: rest
    else if key = other then (key, value) :: rest
    else (other, old) :: insertEntry key value rest

/-- An object from any names to texts. -/
def texts : Decoder (List (String × String))
  | context, doc =>
    members "a map" context []
      (fun _ entries _ name => .ok fun context value => do
        return insertEntry name (← string context value) entries)
      (fun _ _ entries => .ok entries) doc

/-! ## Records -/

/-- A field of a record: its name, whether it may be left out, and how its value is stored. -/
structure Field (α : Type) where
  name : String
  isRequired : Bool := false
  read : Context → Doc → α → Except Refusal α

/-- A field whose value replaces one part of the record. -/
def field {α β : Type} (name : String) (decoder : Decoder β) (store : α → β → α)
    (isRequired : Bool := false) : Field α :=
  { name, isRequired, read := fun context doc record => (decoder context doc).map (store record) }

structure Shape (α : Type) where
  name : String
  fields : List (Field α)
  /-- The record with every field left out. -/
  blank : α
  /-- Unknown fields are skipped, not refused. -/
  isOpen : Bool := false

namespace Shape

variable {α : Type}

def title (shape : Shape α) : String := "struct " ++ shape.name

/-- The first required field that is not among the names seen. -/
def firstMissing? (shape : Shape α) (seen : List String) : Option String :=
  (shape.fields.find? fun field => field.isRequired && !seen.contains field.name).map (·.name)

/-- A record written as an object. The state is the record so far and the fields seen. -/
def ofObject (shape : Shape α) (context : Context) (doc : Doc) : Except Refusal (α × List String) :=
  members shape.title context (shape.blank, [])
    (fun context (record, seen) key name =>
      match shape.fields.find? (·.name == name) with
      | some field =>
        if seen.contains name then context.refuse (.repeatedField name) key.landing
        else .ok fun inner value => do return (← field.read inner value record, name :: seen)
      | none =>
        if shape.isOpen then
          .ok fun inner value =>
            match value.skip? with
            | some stop => inner.halt stop
            | none => .ok (record, seen)
        else
          let known := shape.fields.map (·.name)
          (context.inside (.key name)).refuse (.unknownField name known) key.landing)
    (fun context behind (record, seen) =>
      match shape.firstMissing? seen with
      | some name => context.refuse (.missingField name) behind
      | none => .ok (record, seen))
    doc

/-- The fields from the `i`-th on, taken from the items of an array. `gap` is what precedes the
items. -/
def takeItems (shape : Shape α) (context : Context) (i : Nat) (gap : Gap) (isFirst : Bool)
    (record : α) : List (Field α) → Items → Except Refusal α
  | [], _ =>
    match if isFirst then none else notClosed? gap with
    | some stop => context.halt stop
    | none => .ok record
  | field :: fields, .nil =>
    match if isFirst then none else noFurtherItem? gap with
    | some stop => context.halt stop
    | none =>
      if field.isRequired then
        let expected := shape.title ++ " with " ++ toString shape.fields.length ++ " elements"
        context.refuse (.wrongLength i expected) gap.here.next
      else takeItems shape context (i + 1) gap isFirst record fields .nil
  | field :: fields, .cons value next rest => do
    match if isFirst then none else noFurtherItem? gap with
    | some stop => context.halt stop
    | none =>
      let record ←
        field.read { context.inside (.index i) with landing := itemLanding next } value record
      takeItems shape context (i + 1) next false record fields rest

/-- A record written as an object or as an array of its fields. -/
def decoder (shape : Shape α) : Decoder α
  | context, .array start lead items =>
    context.enter start fun context =>
      match lead.turn with
      | .ended => context.halt ⟨.endInArray, lead.here⟩
      | _ => shape.takeItems context 0 lead true shape.blank shape.fields items
  | context, doc => (shape.ofObject context doc).map (·.1)

end Shape

/-! ## Enumerations -/

/-- A case of an enumeration: a value by itself, or made from a payload. -/
inductive Case (α : Type) where
  | bare (value : α)
  | payload (read : Decoder α)

/-- An enumeration given by the names of its cases. -/
def enumeration {α : Type} (cases : List (String × Case α)) : Decoder α
  | context, .string _ name _ after =>
    match name with
    | .error stop => context.halt stop
    | .ok name =>
      match cases.lookup name with
      | none => context.refuse (.unknownCase name (cases.map (·.1))) after
      | some (.bare value) => .ok value
      | some (.payload _) =>
        (context.inside (.case name)).refuse (.wrongType .bareCase "newtype variant") context.landing
  | context, .object start _ (.cons key value gap _) =>
    context.enter start fun context => do
      match key.name with
      | .error stop => context.halt stop
      | .ok name =>
        match cases.lookup name with
        | none => context.refuse (.unknownCase name (cases.map (·.1))) key.after
        | some choice =>
          match key.colon with
          | some stop => context.halt stop
          | none =>
            let inner := { context.inside (.case name) with landing := memberLanding gap }
            let result ←
              match choice with
              | .bare result => (unit inner value).map fun _ => result
              | .payload read => read inner value
            match gap.turn with
            | .close => .ok result
            | .ended => context.halt ⟨.endInObject, gap.here⟩
            | _ => context.halt ⟨.expectedValue, gap.here⟩
  | context, .object start lead .nil =>
    context.enter start fun context =>
      match lead.turn with
      | .ended => context.halt ⟨.endInValue, lead.here⟩
      | _ => context.halt ⟨.expectedValue, lead.here.next⟩
  | context, .misfit start first =>
    context.enter start fun context => unexpected "variant identifier" context first
  | context, .absent stop => context.halt stop
  | context, doc => context.halt ⟨.expectedValue, doc.start.next⟩

end Decoder

end NullReturns.Snapshot
