import NullReturns.Proofs.Acceptance
import NullReturns.Proofs.Arena
import NullReturns.Proofs.WrittenForms
import NullReturns.Snapshot.Load

/-! # Written snapshots

How a snapshot is written: records as objects with their parts in any order, parts that have their default
left out or not, enumerations by the names of their cases. Decoding gives back the snapshot from any text of
it, and refuses a text that has an unknown name in an object, spans and maps of implementations excepted.
-/

namespace NullReturns.Snapshot

open Json

/-! ## Forms -/

namespace Form

def typeKind : Form TypeKind :=
  named fun
    | .classType => "class"
    | .structType => "struct"
    | .interfaceType => "interface"

def bodyKind : Form BodyKind :=
  named fun
    | .method => "method"
    | .constructor => "constructor"
    | .accessor => "accessor"
    | .operator => "operator"
    | .initializer => "initializer"

def nodeKind : Form NodeKind :=
  named fun
    | .block => "block"
    | .expressionStatement => "expression_statement"
    | .return => "return"
    | .literal => "literal"
    | .invocation => "invocation"
    | .objectCreation => "object_creation"
    | .fieldAccess => "field_access"
    | .propertyAccess => "property_access"
    | .conditionalAccess => "conditional_access"
    | .conditional => "conditional"
    | .coalesce => "coalesce"
    | .assignment => "assignment"
    | .arrayInitializer => "array_initializer"
    | .argument => "argument"
    | .binaryOperator => "binary_operator"
    | .unaryOperator => "unary_operator"
    | .conversion => "conversion"
    | .localReference => "local_reference"
    | .parameterReference => "parameter_reference"
    | .lambda => "lambda"
    | .localFunction => "local_function"
    | .other => "other"

def returnType : Form ReturnType :=
  cases [("void", .void)] [("value", string.wrapped .value), ("reference", string.wrapped .reference)]

/-- Floating-point constants have no form. -/
def constant : Form Constant :=
  cases [("null", .null)]
    [("bool", bool.wrapped .bool), ("int", integer.wrapped .int), ("char", char.wrapped .char),
      ("string", string.wrapped .string)]

end Form

namespace Part

def span : List (Part Span) :=
  [{ name := "start", get := (·.start), form := .offset }, { name := "end", get := (·.stop), form := .offset }]

def method : List (Part DeclaredMethod) :=
  [{ name := "key", get := (·.key), form := Form.string.option, default? := some none },
    { name := "name", get := (·.name), form := .string },
    { name := "signature", get := (·.signature), form := .string, default? := some "()" },
    { name := "returns", get := (·.returns), form := .returnType },
    { name := "attributes", get := (·.attributes), form := Form.string.list, default? := some [] },
    { name := "is_override", get := (·.isOverride), form := .bool, default? := some false },
    { name := "overrides", get := (·.overrides), form := Form.string.option, default? := some none },
    { name := "name_span", get := (·.nameSpan), form := (Form.record span).lenient.option, default? := some none }]

def type : List (Part DeclaredType) :=
  [{ name := "name", get := (·.name), form := .string },
    { name := "kind", get := (·.kind), form := .typeKind },
    { name := "base", get := (·.base), form := Form.string.option, default? := some none },
    { name := "interfaces", get := (·.interfaces), form := Form.string.list, default? := some [] },
    { name := "methods", get := (·.methods), form := (Form.record method).list, default? := some [] },
    { name := "implementations", get := (·.implementations), form := .texts, default? := some [] }]

/-- A node whose children are written by `child`. -/
def node (child : Form Tree) : List (Part Tree) :=
  [{ name := "kind", get := (·.kind), form := .nodeKind },
    { name := "children", get := (·.children), form := child.list, default? := some [] },
    { name := "constant", get := (·.constant), form := Form.constant.option, default? := some none },
    { name := "target", get := (·.target), form := Form.string.option, default? := some none },
    { name := "span", get := (·.span), form := (Form.record span).lenient.option, default? := some none }]

end Part

namespace Form

/-- Trees with at most so many levels. -/
def treeOf : Nat → Form Tree
  | 0 => ⟨fun _ _ => False, fun _ _ => False⟩
  | levels + 1 => record (Part.node (treeOf levels))

def tree : Form Tree where
  Writes tree datum := ∃ levels, (treeOf levels).Writes tree datum
  Adds datum extended := ∃ levels, (treeOf levels).Adds datum extended

end Form

namespace Part

def body : List (Part DeclaredBody) :=
  [{ name := "kind", get := (·.kind), form := .bodyKind },
    { name := "owner", get := (·.owner), form := Form.string.option, default? := some none },
    { name := "root", get := (·.root), form := .tree }]

def unit : List (Part DeclaredUnit) :=
  [{ name := "uri", get := (·.uri), form := .string },
    { name := "text", get := (·.text), form := Form.string.option, default? := some none },
    { name := "bodies", get := (·.bodies), form := (Form.record body).list, default? := some [] }]

def snapshot : List (Part Snapshot) :=
  [{ name := "types", get := (·.types), form := (Form.record type).list, default? := some [] },
    { name := "units", get := (·.units), form := (Form.record unit).list, default? := some [] }]

end Part

/-- How snapshots are written. -/
def form : Form Snapshot := .record Part.snapshot

/-! ## Enumerations and spans -/

namespace Form

variable {limit : Nat}

private theorem fits_typeKind : typeKind.Fits Schema.typeKind limit := fits_named fun kind => by cases kind <;> rfl

private theorem fits_bodyKind : bodyKind.Fits Schema.bodyKind limit := fits_named fun kind => by cases kind <;> rfl

private theorem fits_nodeKind : nodeKind.Fits Schema.nodeKind limit := fits_named fun kind => by cases kind <;> rfl

private theorem fits_strings : string.list.Fits (Decoder.sequence Decoder.string) limit :=
  fits_string.list.mono (Nat.le_succ limit)

private theorem fits_returnType : returnType.Fits Schema.returnType limit := by
  refine (fits_cases (List.forall_mem_singleton.mpr rfl) ?_).mono (Nat.le_succ limit)
  simp only [List.forall_mem_cons]
  exact ⟨⟨_, rfl, fits_string.wrapped _⟩, ⟨_, rfl, fits_string.wrapped _⟩, List.forall_mem_nil _⟩

private theorem fits_constant : constant.Fits Schema.constant limit := by
  refine (fits_cases (List.forall_mem_singleton.mpr rfl) ?_).mono (Nat.le_succ limit)
  simp only [List.forall_mem_cons]
  exact ⟨⟨_, rfl, fits_bool.wrapped _⟩, ⟨_, rfl, fits_integer.wrapped _⟩, ⟨_, rfl, fits_char.wrapped _⟩,
    ⟨_, rfl, fits_string.wrapped _⟩, List.forall_mem_nil _⟩

private theorem isSolid_string : string.IsSolid := by
  constructor
  · rintro value ⟨⟩
  · exact fun _ adds => adds

private theorem fits_optionalString : string.option.Fits (Decoder.optional Decoder.string) limit :=
  fits_string.option isSolid_string

private theorem isSolid_constant : constant.IsSolid := by
  constructor
  · rintro value (⟨_, _, absurd⟩ | ⟨_, _, _, _, _, absurd⟩) <;> cases absurd
  · rintro datum ⟨_, _, _, absurd | absurd⟩ <;> cases absurd

private theorem isSolid_lenient {α : Type} {parts : List (Part α)} : (record parts).lenient.IsSolid := by
  constructor
  · rintro value ⟨_, absurd, _⟩
    cases absurd
  · exact fun _ adds => adds

/-! ## Records -/

private theorem fits_span : (record Part.span).lenient.Fits Schema.span limit := by
  refine (Decoder.Shape.IsMadeOf.fits_lenient ⟨?_, by decide, by simp [Part.span], ?_⟩).mono (Nat.le_succ limit)
  · refine .cons ⟨_, _, rfl, fits_offset, fun _ _ => rfl, ?_⟩ (.cons ⟨_, _, rfl, fits_offset, fun _ _ => rfl, ?_⟩ .nil)
    all_goals simp [Part.span]
  · rintro ⟨⟩ ⟨⟩ same
    simpa [Part.span] using same

private theorem fits_optionalSpan : (record Part.span).lenient.option.Fits (Decoder.optional Schema.span) limit :=
  fits_span.option isSolid_lenient

private theorem fits_method : (record Part.method).Fits Schema.method limit := by
  refine (Decoder.Shape.IsMadeOf.fits ⟨?_, by decide, ?_, ?_⟩ rfl).mono (Nat.le_succ limit)
  · refine .cons ⟨_, _, rfl, fits_optionalString, fun _ _ => rfl, ?_⟩
      (.cons ⟨_, _, rfl, fits_string, fun _ _ => rfl, ?_⟩
        (.cons ⟨_, _, rfl, fits_string, fun _ _ => rfl, ?_⟩
          (.cons ⟨_, _, rfl, fits_returnType, fun _ _ => rfl, ?_⟩
            (.cons ⟨_, _, rfl, fits_strings, fun _ _ => rfl, ?_⟩
              (.cons ⟨_, _, rfl, fits_bool, fun _ _ => rfl, ?_⟩
                (.cons ⟨_, _, rfl, fits_optionalString, fun _ _ => rfl, ?_⟩
                  (.cons ⟨_, _, rfl, fits_optionalSpan, fun _ _ => rfl, ?_⟩ .nil)))))))
    all_goals simp [Part.method]
  · simp [Part.method]
  · rintro ⟨⟩ ⟨⟩ same
    simpa [Part.method] using same

private theorem fits_type : (record Part.type).Fits Schema.type limit := by
  have methods : (record Part.method).list.Fits (Decoder.sequence Schema.method) limit :=
    fits_method.list.mono (Nat.le_succ limit)
  refine (Decoder.Shape.IsMadeOf.fits ⟨?_, by decide, ?_, ?_⟩ rfl).mono (Nat.le_succ limit)
  · refine .cons ⟨_, _, rfl, fits_string, fun _ _ => rfl, ?_⟩
      (.cons ⟨_, _, rfl, fits_typeKind, fun _ _ => rfl, ?_⟩
        (.cons ⟨_, _, rfl, fits_optionalString, fun _ _ => rfl, ?_⟩
          (.cons ⟨_, _, rfl, fits_strings, fun _ _ => rfl, ?_⟩
            (.cons ⟨_, _, rfl, methods, fun _ _ => rfl, ?_⟩
              (.cons ⟨_, _, rfl, fits_texts, fun _ _ => rfl, ?_⟩ .nil)))))
    all_goals simp [Part.type]
  · simp [Part.type]
  · rintro ⟨⟩ ⟨⟩ same
    simpa [Part.type] using same

/-- A tree is a node with its parts. -/
theorem forall_tree {p : Tree → Prop} :
    (∀ tree, p tree) ↔ ∀ kind children constant target span, p (.node kind children constant target span) := by
  constructor
  · intro all kind children constant target span
    exact all (.node kind children constant target span)
  · intro all tree
    cases tree
    exact all _ _ _ _ _

private theorem fits_node {child : Form Tree} {decoder : Decoder Tree} (fits : child.Fits decoder limit) :
    (record (Part.node child)).Fits (Schema.node decoder) (limit + 1) := by
  have children : child.list.Fits (Decoder.sequence decoder) limit := fits.list.mono (Nat.le_succ limit)
  have constants : constant.option.Fits (Decoder.optional Schema.constant) limit :=
    fits_constant.option isSolid_constant
  refine Decoder.Shape.IsMadeOf.fits ⟨?_, ?_, ?_, ?_⟩ rfl
  · refine .cons ⟨_, _, rfl, fits_nodeKind, ?_, ?_⟩
      (.cons ⟨_, _, rfl, children, ?_, ?_⟩
        (.cons ⟨_, _, rfl, constants, ?_, ?_⟩
          (.cons ⟨_, _, rfl, fits_optionalString, ?_, ?_⟩
            (.cons ⟨_, _, rfl, fits_optionalSpan, ?_, ?_⟩ .nil))))
    all_goals simp [Part.node, forall_tree, Tree.kind, Tree.children, Tree.constant, Tree.target, Tree.span]
  · simp [Part.node]
  · simp [Part.node, Tree.children, Tree.constant, Tree.target, Tree.span]
  · rintro ⟨⟩ ⟨⟩ same
    simpa [Part.node, Tree.kind, Tree.children, Tree.constant, Tree.target, Tree.span] using same

private theorem unexpected_refuses {α : Type} (expected : String) (context : Context) (doc : Doc) :
    ∃ refusal, (Decoder.unexpected expected context doc : Except Refusal α) = .error refusal := by
  unfold Decoder.unexpected
  split <;> exact ⟨_, rfl⟩

/-- As every level of nodes takes a level of the text, levels of the text suffice for it. -/
theorem fits_treeOf (levels limit : Nat) : (treeOf levels).Fits (Schema.tree limit) limit := by
  induction levels generalizing limit with
  | zero => exact ⟨fun written => written.elim, fun adds => adds.elim⟩
  | succ levels ih =>
    cases limit with
    | zero =>
      refine ⟨?_, fun _ _ context => unexpected_refuses _ context _⟩
      rintro tree _ doc ⟨members, rfl, _⟩ _ shallow
      rw [Datum.depth] at shallow
      omega
    | succ limit => exact fits_node (ih limit)

private theorem fits_tree (limit : Nat) : tree.Fits (Schema.tree limit) limit where
  reads := by
    rintro tree datum doc ⟨levels, written⟩ shown shallow context room
    exact (fits_treeOf levels limit).reads written shown shallow room
  refuses := by
    rintro datum extended doc ⟨levels, adds⟩ shown context
    exact (fits_treeOf levels limit).refuses adds shown context

private theorem fits_body : (record Part.body).Fits Schema.body Schema.nestingLimit := by
  refine (Decoder.Shape.IsMadeOf.fits ⟨?_, by decide, ?_, ?_⟩ rfl).mono (Nat.le_succ _)
  · refine .cons ⟨_, _, rfl, fits_bodyKind, fun _ _ => rfl, ?_⟩
      (.cons ⟨_, _, rfl, fits_optionalString, fun _ _ => rfl, ?_⟩
        (.cons ⟨_, _, rfl, fits_tree _, fun _ _ => rfl, ?_⟩ .nil))
    all_goals simp [Part.body]
  · simp [Part.body]
  · rintro ⟨⟩ ⟨⟩ same
    simpa [Part.body] using same

private theorem fits_unit : (record Part.unit).Fits Schema.sourceUnit Schema.nestingLimit := by
  have bodies : (record Part.body).list.Fits (Decoder.sequence Schema.body) Schema.nestingLimit :=
    fits_body.list.mono (Nat.le_succ _)
  refine (Decoder.Shape.IsMadeOf.fits ⟨?_, by decide, ?_, ?_⟩ rfl).mono (Nat.le_succ _)
  · refine .cons ⟨_, _, rfl, fits_string, fun _ _ => rfl, ?_⟩
      (.cons ⟨_, _, rfl, fits_optionalString, fun _ _ => rfl, ?_⟩
        (.cons ⟨_, _, rfl, bodies, fun _ _ => rfl, ?_⟩ .nil))
    all_goals simp [Part.unit]
  · simp [Part.unit]
  · rintro ⟨⟩ ⟨⟩ same
    simpa [Part.unit] using same

end Form

private theorem fits_snapshot : form.Fits Schema.snapshot Schema.nestingLimit := by
  have types : (Form.record Part.type).list.Fits (Decoder.sequence Schema.type) Schema.nestingLimit :=
    Form.fits_type.list.mono (Nat.le_succ _)
  have units : (Form.record Part.unit).list.Fits (Decoder.sequence Schema.sourceUnit) Schema.nestingLimit :=
    Form.fits_unit.list.mono (Nat.le_succ _)
  refine (Decoder.Shape.IsMadeOf.fits ⟨?_, by decide, ?_, ?_⟩ rfl).mono (Nat.le_succ _)
  · refine .cons ⟨_, _, rfl, types, fun _ _ => rfl, ?_⟩ (.cons ⟨_, _, rfl, units, fun _ _ => rfl, ?_⟩ .nil)
    all_goals simp [Part.snapshot]
  · simp [Part.snapshot]
  · rintro ⟨⟩ ⟨⟩ same
    simpa [Part.snapshot] using same

/-! ## Members added anywhere -/

/-- The names of the fields of all records. -/
def knownNames : List String :=
  Part.snapshot.map (·.name) ++ Part.type.map (·.name) ++ Part.method.map (·.name) ++ Part.unit.map (·.name) ++
    Part.body.map (·.name) ++ (Part.node .tree).map (·.name)

/-- The fields whose objects may hold any names. -/
def openNames : List String := ["name_span", "span", "implementations"]

namespace Form

section

variable {key : String}

private theorem notices_returnType : returnType.Notices key openNames := by
  refine notices_cases ?_ ?_ <;> simp only [List.forall_mem_cons]
  · exact ⟨notices_string.wrapped _, notices_string.wrapped _, List.forall_mem_nil _⟩
  · exact ⟨fun _ _ adds => adds, fun _ _ adds => adds, List.forall_mem_nil _⟩

private theorem notices_constant : constant.Notices key openNames := by
  refine notices_cases ?_ ?_ <;> simp only [List.forall_mem_cons]
  · exact ⟨notices_bool.wrapped _, notices_integer.wrapped _, notices_char.wrapped _, notices_string.wrapped _,
      List.forall_mem_nil _⟩
  · exact ⟨fun _ _ adds => adds, fun _ _ adds => adds, fun _ _ adds => adds, fun _ _ adds => adds,
      List.forall_mem_nil _⟩

end

variable {key : String} (unknown : key ∉ knownNames)
include unknown

private theorem notices_method : (record Part.method).Notices key openNames := by
  refine notices_record (fun listed => unknown (by simp [knownNames, listed])) ?_
  simp only [Part.method, List.forall_mem_cons]
  exact ⟨.inr notices_string.option, .inr notices_string, .inr notices_string, .inr notices_returnType,
    .inr notices_string.list, .inr notices_bool, .inr notices_string.option, .inl (by decide),
    List.forall_mem_nil _⟩

private theorem notices_type : (record Part.type).Notices key openNames := by
  refine notices_record (fun listed => unknown (by simp [knownNames, listed])) ?_
  simp only [Part.type, List.forall_mem_cons]
  exact ⟨.inr notices_string, .inr notices_named, .inr notices_string.option, .inr notices_string.list,
    .inr (notices_method unknown).list, .inl (by decide), List.forall_mem_nil _⟩

private theorem notices_treeOf (levels : Nat) : (treeOf levels).Notices key openNames := by
  induction levels with
  | zero => exact fun _ _ _ written => written.elim
  | succ levels ih =>
    refine notices_record (fun listed => unknown (List.mem_append_right _ listed)) ?_
    simp only [Part.node, List.forall_mem_cons]
    exact ⟨.inr notices_named, .inr ih.list, .inr notices_constant.option, .inr notices_string.option, .inl (by decide),
      List.forall_mem_nil _⟩

private theorem notices_tree : tree.Notices key openNames := by
  rintro tree datum extended ⟨levels, written⟩ gains
  exact ⟨levels, notices_treeOf unknown levels tree datum extended written gains⟩

private theorem notices_body : (record Part.body).Notices key openNames := by
  refine notices_record (fun listed => unknown (by simp [knownNames, listed])) ?_
  simp only [Part.body, List.forall_mem_cons]
  exact ⟨.inr notices_named, .inr notices_string.option, .inr (notices_tree unknown),
    List.forall_mem_nil _⟩

private theorem notices_unit : (record Part.unit).Notices key openNames := by
  refine notices_record (fun listed => unknown (by simp [knownNames, listed])) ?_
  simp only [Part.unit, List.forall_mem_cons]
  exact ⟨.inr notices_string, .inr notices_string.option, .inr (notices_body unknown).list,
    List.forall_mem_nil _⟩

end Form

private theorem notices_snapshot {key : String} (unknown : key ∉ knownNames) : form.Notices key openNames := by
  refine Form.notices_record (fun listed => unknown (by simp [knownNames, listed])) ?_
  simp only [Part.snapshot, List.forall_mem_cons]
  exact ⟨.inr (Form.notices_type unknown).list, .inr (Form.notices_unit unknown).list,
    List.forall_mem_nil _⟩

/-! ## What can be written -/

/-- The constant is none of floating point, and a number fits 64 bits. -/
def IsPlainConstant : Constant → Prop
  | .int value => -(2 ^ 63) ≤ value ∧ value < 2 ^ 63
  | .float _ => False
  | _ => True

/-- The offsets fit 64 bits. -/
def IsPlainSpan (span : Span) : Prop := span.start < 2 ^ 64 ∧ span.stop < 2 ^ 64

def IsPlainNode (node : Tree) : Prop :=
  (∀ constant ∈ node.constant, IsPlainConstant constant) ∧ ∀ span ∈ node.span, IsPlainSpan span

/-- No constant is of floating point, numbers fit 64 bits, and implementations are in the order of their names. -/
structure IsPlain (snapshot : Snapshot) : Prop where
  implementations : ∀ type ∈ snapshot.types, type.implementations.Pairwise (·.1 < ·.1)
  nameSpans : ∀ type ∈ snapshot.types, ∀ method ∈ type.methods, ∀ span ∈ method.nameSpan, IsPlainSpan span
  nodes : ∀ unit ∈ snapshot.units, ∀ body ∈ unit.bodies, ∀ node ∈ body.root.nodes, IsPlainNode node

namespace Form

private theorem covers_returnType (returns : ReturnType) : returnType.Covers returns := by
  cases returns with
  | void => exact covers_bare List.mem_cons_self
  | value name => exact covers_payload List.mem_cons_self (covers_wrapped (covers_string name) _)
  | reference name =>
    exact covers_payload (List.mem_cons_of_mem _ List.mem_cons_self) (covers_wrapped (covers_string name) _)

private theorem covers_constant {value : Constant} (plain : IsPlainConstant value) : constant.Covers value := by
  cases value with
  | null => exact covers_bare List.mem_cons_self
  | float value => exact plain.elim
  | bool value => exact covers_payload List.mem_cons_self (covers_wrapped (covers_bool value) _)
  | int value =>
    exact covers_payload (List.mem_cons_of_mem _ List.mem_cons_self)
      (covers_wrapped (covers_integer plain.1 plain.2) _)
  | char value =>
    exact covers_payload (List.mem_cons_of_mem _ (List.mem_cons_of_mem _ List.mem_cons_self))
      (covers_wrapped (covers_char value) _)
  | string value =>
    exact covers_payload (List.mem_cons_of_mem _ (List.mem_cons_of_mem _ (List.mem_cons_of_mem _ List.mem_cons_self)))
      (covers_wrapped (covers_string value) _)

private theorem covers_span {span : Span} (plain : IsPlainSpan span) : (record Part.span).lenient.Covers span := by
  have covered : (record Part.span).Covers span := by
    refine covers_record (by decide) ?_
    simp only [Part.span, List.forall_mem_cons]
    exact ⟨covers_offset plain.1, covers_offset plain.2, List.forall_mem_nil _⟩
  exact covered

private theorem covers_strings (values : List String) : string.list.Covers values :=
  covers_list fun value _ => covers_string value

private theorem covers_optionalString (value : Option String) : string.option.Covers value :=
  covers_option fun content _ => covers_string content

private theorem covers_method {method : DeclaredMethod} (plain : ∀ span ∈ method.nameSpan, IsPlainSpan span) :
    (record Part.method).Covers method := by
  refine covers_record (by decide) ?_
  simp only [Part.method, List.forall_mem_cons]
  exact ⟨covers_optionalString _, covers_string _, covers_string _, covers_returnType _, covers_strings _,
    covers_bool _, covers_optionalString _, covers_option fun span own => covers_span (plain span own),
    List.forall_mem_nil _⟩

private theorem covers_type {type : DeclaredType} (sorted : type.implementations.Pairwise (·.1 < ·.1))
    (plain : ∀ method ∈ type.methods, ∀ span ∈ method.nameSpan, IsPlainSpan span) : (record Part.type).Covers type := by
  refine covers_record (by decide) ?_
  simp only [Part.type, List.forall_mem_cons]
  exact ⟨covers_string _, covers_named _ _, covers_optionalString _, covers_strings _,
    covers_list fun method listed => covers_method (plain method listed), covers_texts sorted,
    List.forall_mem_nil _⟩

theorem mem_nodesAll {child : Tree} {children : List Tree} (listed : child ∈ children) {node : Tree}
    (below : node ∈ child.nodes) : node ∈ Tree.nodesAll children := by
  induction children with
  | nil => cases listed
  | cons first rest ih =>
    rw [Tree.nodesAll, List.mem_append]
    rcases List.mem_cons.mp listed with rfl | later
    · exact .inl below
    · exact .inr (ih later)

private theorem size_le_sizeAll {child : Tree} {children : List Tree} (listed : child ∈ children) :
    child.size ≤ Tree.sizeAll children := by
  induction children with
  | nil => cases listed
  | cons first rest ih =>
    rw [Tree.sizeAll]
    rcases List.mem_cons.mp listed with rfl | later
    · exact Nat.le_add_right _ _
    · exact Nat.le_trans (ih later) (Nat.le_add_left _ _)

/-- A tree has no more levels than nodes. -/
theorem covers_treeOf {tree : Tree} (plain : ∀ node ∈ tree.nodes, IsPlainNode node) {levels : Nat}
    (enough : tree.size ≤ levels) : (treeOf levels).Covers tree := by
  induction levels generalizing tree with
  | zero =>
    rw [Tree.size_eq] at enough
    omega
  | succ levels ih =>
    obtain ⟨kind, children, constant, target, span⟩ := tree
    rw [Tree.size] at enough
    rw [Tree.nodes, List.forall_mem_cons] at plain
    obtain ⟨⟨constants, spans⟩, below⟩ := plain
    refine covers_record (by simp [Part.node]) ?_
    simp only [Part.node, List.forall_mem_cons]
    refine ⟨covers_named _ kind, covers_list fun child listed => ?_,
      covers_option fun value own => covers_constant (constants value own), covers_optionalString target,
      covers_option fun value own => covers_span (spans value own), List.forall_mem_nil _⟩
    have small : child.size ≤ Tree.sizeAll children := size_le_sizeAll listed
    exact ih (fun node inside => below node (mem_nodesAll listed inside)) (by omega)

private theorem covers_body {body : DeclaredBody} (plain : ∀ node ∈ body.root.nodes, IsPlainNode node) :
    (record Part.body).Covers body := by
  refine covers_record (by decide) ?_
  simp only [Part.body, List.forall_mem_cons]
  obtain ⟨datum, text, written, spelled⟩ := covers_treeOf plain (Nat.le_refl body.root.size)
  exact ⟨covers_named _ _, covers_optionalString _, ⟨datum, text, ⟨_, written⟩, spelled⟩,
    List.forall_mem_nil _⟩

private theorem covers_unit {unit : DeclaredUnit}
    (plain : ∀ body ∈ unit.bodies, ∀ node ∈ body.root.nodes, IsPlainNode node) :
    (record Part.unit).Covers unit := by
  refine covers_record (by decide) ?_
  simp only [Part.unit, List.forall_mem_cons]
  exact ⟨covers_string _, covers_optionalString _, covers_list fun body listed => covers_body (plain body listed),
    List.forall_mem_nil _⟩

end Form

private theorem covers_snapshot {snapshot : Snapshot} (plain : snapshot.IsPlain) : form.Covers snapshot := by
  refine Form.covers_record (by decide) ?_
  simp only [Part.snapshot, List.forall_mem_cons]
  exact ⟨Form.covers_list fun type listed =>
      Form.covers_type (plain.implementations type listed) (plain.nameSpans type listed),
    Form.covers_list fun unit listed => Form.covers_unit (plain.nodes unit listed),
    List.forall_mem_nil _⟩

/-! ## Decoding -/

/-- Every snapshot without floating-point constants can be written. Decoding gives it back from any text that
does not nest too deep, and refuses what has an unknown name more, wherever that is added. -/
theorem decode_written :
    (∀ snapshot : Snapshot, snapshot.IsPlain → ∃ datum text, form.Writes snapshot datum ∧ datum.IsText text) ∧
    (∀ (snapshot : Snapshot) (datum : Datum) (text : String), form.Writes snapshot datum → datum.depth < 128 →
      datum.IsText text → decode text = .ok snapshot) ∧
    (∀ (datum extended : Datum) (text : String), form.Adds datum extended → extended.IsText text →
      ∃ refusal, decode text = .error refusal) ∧
    ∀ (snapshot : Snapshot) (datum extended : Datum) (key : String), form.Writes snapshot datum → key ∉ knownNames →
      datum.Gains key openNames extended → form.Adds datum extended := by
  refine ⟨fun snapshot plain => ?_, fun snapshot datum text written shallow spelled => ?_,
    fun datum extended text adds spelled => ?_, fun snapshot datum extended key written unknown gains => ?_⟩
  · obtain ⟨datum, text, written, spelled⟩ := covers_snapshot plain
    refine ⟨datum, String.ofList text, written, [], text, [], Datum.isSpace_nil, spelled, Datum.isSpace_nil, ?_⟩
    rw [String.toList_ofList, List.nil_append, List.append_nil]
  · have shallow : datum.depth ≤ Schema.nestingLimit := Nat.le_of_lt_succ shallow
    exact fits_snapshot.reads written (Datum.isShown_parse spelled) shallow shallow
  · exact fits_snapshot.refuses adds (Datum.isShown_parse spelled) _
  · exact notices_snapshot unknown snapshot datum extended written gains

/-- An interface with its parts out of order and its defaults left out. -/
def interfaceSample : Datum :=
  .object [("types", .array [.object [("kind", .string "interface"), ("name", .string "A")]])]

private theorem isText_interfaceSample :
    interfaceSample.IsText "\x7b \"types\":[\x7b\"kind\": \"interface\",\n\"name\":\"\\u0041\"\x7d ]\x7d" := by
  have label {name : String} (plain : IsUnescaped name) {space : List Char} (blank : Datum.IsSpace space) :
      Datum.IsLabel name ('"' :: (name.toList ++ '"' :: ([] ++ ':' :: space))) :=
    ⟨_, [], space, isQuoted_self plain, Datum.isSpace_nil, blank, rfl⟩
  have unit : IsCodeUnit ['0', '0', '4', '1'] 'A'.toNat :=
    ⟨[0, 0, 4, 1], .cons ⟨by decide, .inl rfl⟩ (.cons ⟨by decide, .inl rfl⟩ (.cons ⟨by decide, .inl rfl⟩
      (.cons ⟨by decide, .inl rfl⟩ .nil))), rfl, rfl⟩
  have name : IsQuoted "A" ['\\', 'u', '0', '0', '4', '1'] := ⟨[_], .cons (.codeUnit unit) .nil, rfl⟩
  have kind : IsQuoted "interface" "interface".toList := isQuoted_self (by decide)
  have blank : Datum.IsSpace [' '] := by decide
  have type : (Datum.object [("kind", .string "interface"), ("name", .string "A")]).IsWritten _ :=
    ⟨[], _, Datum.isSpace_nil,
      ⟨_, _, [], ['\n'], _, @label "kind" (by decide) _ blank, ⟨_, kind, rfl⟩, Datum.isSpace_nil, by decide,
        ⟨_, _, [], @label "name" (by decide) _ Datum.isSpace_nil, ⟨_, name, rfl⟩, Datum.isSpace_nil, rfl⟩, rfl⟩,
      rfl⟩
  have types : (Datum.array [.object [("kind", .string "interface"), ("name", .string "A")]]).IsWritten _ :=
    ⟨[], _, Datum.isSpace_nil, ⟨_, [' '], type, blank, rfl⟩, rfl⟩
  exact ⟨[], _, [], Datum.isSpace_nil,
    ⟨[' '], _, blank, ⟨_, _, [], @label "types" (by decide) _ Datum.isSpace_nil, types, Datum.isSpace_nil, rfl⟩, rfl⟩,
    Datum.isSpace_nil, by decide⟩

private theorem writes_interfaceSample :
    form.Writes { types := [{ name := "A", kind := .interfaceType }] } interfaceSample := by
  have type : (Form.record Part.type).Writes { name := "A", kind := .interfaceType }
      (.object [("kind", .string "interface"), ("name", .string "A")]) := by
    refine ⟨_, rfl, by decide, ?_, by simp [Part.type]⟩
    simp only [List.forall_mem_cons]
    exact ⟨⟨_, List.mem_cons_of_mem _ List.mem_cons_self, rfl, rfl⟩,
      ⟨_, List.mem_cons_self, rfl, rfl⟩, List.forall_mem_nil _⟩
  exact ⟨_, rfl, by decide, List.forall_mem_singleton.mpr ⟨_, List.mem_cons_self, rfl, _, rfl, .cons type .nil⟩,
    by simp [Part.snapshot]⟩

theorem decode_written_interfaceSample :
    decode "\x7b \"types\":[\x7b\"kind\": \"interface\",\n\"name\":\"\\u0041\"\x7d ]\x7d" =
      .ok { types := [{ name := "A", kind := .interfaceType }] } ∧
    ∀ (added : Datum) (text : String),
      (Datum.object [("types", .array [.object [("kind", .string "interface"), ("note", added),
        ("name", .string "A")]])]).IsText text → ∃ refusal, decode text = .error refusal := by
  obtain ⟨_, reads, refuses, notices⟩ := decode_written
  refine ⟨reads _ _ _ writes_interfaceSample (by decide) isText_interfaceSample, fun added text spelled => ?_⟩
  refine refuses _ _ text (notices _ _ _ "note" writes_interfaceSample (by decide) ?_) spelled
  exact @Datum.Gains.member _ _ [] [] _ _ _ (by decide) (@Datum.Gains.item _ _ [] [] _ _
    (@Datum.Gains.here _ _ [("kind", .string "interface")] [("name", .string "A")] added))

end NullReturns.Snapshot
