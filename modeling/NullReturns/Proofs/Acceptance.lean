import NullReturns.Proofs.LinkedTable

/-! # Which snapshots are linked

A snapshot is linked exactly when no type name and no method key is repeated and no node has a span that
ends before it starts. Otherwise the error names the first fault: a repeated type comes before a repeated
method, and that before an inverted span. What the references of a snapshot lead to has no part in it.
-/

namespace NullReturns

/-! ## First faults in a list -/

section

variable {α β : Type}

/-- The first entry whose key an earlier one has. -/
def IsFirstRepeated (key : α → String) (list : List α) (entry : α) : Prop :=
  ∃ before after, list = before ++ entry :: after ∧ (before.map key).Nodup ∧ key entry ∈ before.map key

/-- The first entry with a property, and the entries before it. -/
def IsFirst (p : α → Prop) (list before : List α) (entry : α) : Prop :=
  p entry ∧ (∀ earlier ∈ before, ¬ p earlier) ∧ ∃ after, list = before ++ entry :: after

theorem firstRepeated?_eq_some_iff {seen names : List String} {name : String} :
    firstRepeated? seen names = some name ↔ ∃ before after, names = before ++ name :: after ∧
      firstRepeated? seen before = none ∧ (name ∈ before ∨ name ∈ seen) := by
  induction names generalizing seen with
  | nil => simp [firstRepeated?]
  | cons head rest ih =>
    rw [firstRepeated?]
    split
    · rename_i repeated
      constructor
      · intro found
        obtain rfl := Option.some.inj found
        exact ⟨[], rest, rfl, rfl, .inr repeated⟩
      · rintro ⟨before, after, parts, fresh, _⟩
        cases before with
        | nil => rw [(List.cons.inj parts).1]
        | cons first before =>
          rw [← (List.cons.inj parts).1, firstRepeated?, if_pos repeated] at fresh
          cases fresh
    · rename_i unseen
      rw [ih]
      constructor
      · rintro ⟨before, after, rfl, fresh, earlier⟩
        refine ⟨head :: before, after, rfl, ?_, ?_⟩
        · rwa [firstRepeated?, if_neg unseen]
        · simp only [List.mem_cons] at earlier ⊢
          tauto
      · rintro ⟨before, after, parts, fresh, earlier⟩
        cases before with
        | nil =>
          have seen := earlier.resolve_left List.not_mem_nil
          exact absurd ((List.cons.inj parts).1 ▸ seen) unseen
        | cons first before =>
          obtain ⟨rfl, others⟩ := List.cons.inj parts
          rw [firstRepeated?, if_neg unseen] at fresh
          refine ⟨before, after, others, fresh, ?_⟩
          simp only [List.mem_cons] at earlier ⊢
          tauto

theorem firstRepeated?_map_eq_some_iff {key : α → String} {list : List α} {name : String} :
    firstRepeated? [] (list.map key) = some name ↔ ∃ entry, IsFirstRepeated key list entry ∧ key entry = name := by
  rw [firstRepeated?_eq_some_iff]
  simp only [← nodup_iff_firstRepeated?, List.not_mem_nil, or_false]
  constructor
  · rintro ⟨_, _, parts, nodup, earlier⟩
    obtain ⟨before, behind, rfl, rfl, second⟩ := List.map_eq_append_iff.mp parts
    obtain ⟨entry, after, rfl, rfl, _⟩ := List.map_eq_cons_iff.mp second
    exact ⟨entry, ⟨before, after, rfl, nodup, earlier⟩, rfl⟩
  · rintro ⟨entry, ⟨before, after, rfl, nodup, earlier⟩, rfl⟩
    exact ⟨before.map key, after.map key, by rw [List.map_append, List.map_cons], nodup, earlier⟩

theorem isFirst_cons_iff {p : α → Prop} {head entry : α} {rest before : List α} :
    IsFirst p (head :: rest) before entry ↔ (p head ∧ before = [] ∧ entry = head) ∨
      (¬ p head ∧ ∃ others, before = head :: others ∧ IsFirst p rest others entry) := by
  constructor
  · rintro ⟨holds, earlier, after, parts⟩
    cases before with
    | nil =>
      obtain ⟨rfl, _⟩ := List.cons.inj parts
      exact .inl ⟨holds, rfl, rfl⟩
    | cons first others =>
      obtain ⟨rfl, tail⟩ := List.cons.inj parts
      rw [List.forall_mem_cons] at earlier
      exact .inr ⟨earlier.1, others, rfl, holds, earlier.2, after, tail⟩
  · rintro (⟨holds, rfl, rfl⟩ | ⟨fails, others, rfl, holds, earlier, after, rfl⟩)
    · exact ⟨holds, fun _ listed => absurd listed List.not_mem_nil, rest, rfl⟩
    · exact ⟨holds, List.forall_mem_cons.mpr ⟨fails, earlier⟩, after, rfl⟩

/-- The first answer in a list is the answer for the first entry that has one. -/
theorem findSome?_eq_some_iff_isFirst {ask : α → Option β} {p : α → Prop}
    (silent : ∀ entry, ask entry = none ↔ ¬ p entry) {list : List α} {answer : β} :
    list.findSome? ask = some answer ↔ ∃ before entry, IsFirst p list before entry ∧ ask entry = some answer := by
  rw [List.findSome?_eq_some_iff]
  constructor
  · rintro ⟨before, entry, after, parts, found, earlier⟩
    have holds : p entry := by
      by_contra fails
      exact Option.some_ne_none answer (found.symm.trans ((silent entry).mpr fails))
    exact ⟨before, entry, ⟨holds, fun other listed => (silent other).mp (earlier other listed), after, parts⟩, found⟩
  · rintro ⟨before, entry, ⟨_, earlier, after, parts⟩, found⟩
    exact ⟨before, entry, after, parts, found, fun other listed => (silent other).mpr (earlier other listed)⟩

end

/-! ## Inverted spans -/

namespace Tree

def span : Tree → Option Span
  | .node _ _ _ _ span => span

/-- The node has a span, and it ends before it starts. -/
def IsInverted (node : Tree) : Prop := ∃ span, node.span = some span ∧ span.stop < span.start

mutual

/-- All nodes with what is below them, each node before the nodes below it. -/
def nodes : Tree → List Tree
  | .node kind children constant target span => .node kind children constant target span :: nodesAll children

def nodesAll : List Tree → List Tree
  | [] => []
  | tree :: rest => tree.nodes ++ nodesAll rest

end

mutual

private theorem spans_eq : (tree : Tree) → tree.spans = tree.nodes.filterMap (·.span)
  | .node _ children _ _ span => by
    rw [spans, nodes, spansAll_eq children, List.filterMap_cons]
    cases span <;> rfl

private theorem spansAll_eq : (trees : List Tree) → spansAll trees = (nodesAll trees).filterMap (·.span)
  | [] => rfl
  | tree :: rest => by rw [spansAll, nodesAll, spans_eq tree, spansAll_eq rest, List.filterMap_append]

end

theorem filter_span_eq_none_iff (node : Tree) : node.span.filter (·.isInverted) = none ↔ ¬ node.IsInverted := by
  rw [IsInverted]
  cases node.span with
  | none => simp
  | some span => simp [Span.isInverted]

private theorem find?_spans (tree : Tree) :
    tree.spans.find? (·.isInverted) = tree.nodes.findSome? fun node => node.span.filter (·.isInverted) := by
  rw [spans_eq, ← List.head?_filter, List.filter_filterMap, List.head?_filterMap]

end Tree

def DeclaredBody.HasInverted (body : DeclaredBody) : Prop := ∃ node ∈ body.root.nodes, node.IsInverted

def DeclaredUnit.HasInverted (unit : DeclaredUnit) : Prop := ∃ body ∈ unit.bodies, body.HasInverted

theorem DeclaredBody.find?_eq_none_iff (body : DeclaredBody) :
    body.root.spans.find? (·.isInverted) = none ↔ ¬ body.HasInverted := by
  simp only [Tree.find?_spans, List.findSome?_eq_none_iff, Tree.filter_span_eq_none_iff, HasInverted, not_exists,
    not_and]

theorem DeclaredBody.find?_eq_some_iff (body : DeclaredBody) {span : Span} :
    body.root.spans.find? (·.isInverted) = some span ↔
      ∃ before node, IsFirst Tree.IsInverted body.root.nodes before node ∧ node.span = some span := by
  rw [Tree.find?_spans, findSome?_eq_some_iff_isFirst Tree.filter_span_eq_none_iff]
  refine exists₂_congr fun before node => and_congr_right fun first => ?_
  obtain ⟨⟨own, found, inverted⟩, _⟩ := first
  have kept : node.span.filter (·.isInverted) = node.span := by
    rw [found, Option.filter_some, Span.isInverted, if_pos (decide_eq_true inverted)]
  rw [kept]

namespace Snapshot

theorem invertedIn?_eq_none_iff {start : Nat} {bodies : List DeclaredBody} :
    invertedIn? start bodies = none ↔ ∀ body ∈ bodies, ¬ body.HasInverted := by
  induction bodies generalizing start with
  | nil => simp [invertedIn?]
  | cons body rest ih =>
    rw [invertedIn?, List.forall_mem_cons, ← body.find?_eq_none_iff]
    cases body.root.spans.find? (·.isInverted) with
    | some span => simp
    | none => simp [ih]

theorem invertedIn?_eq_some_iff {start : Nat} {bodies : List DeclaredBody} {found : Nat × Span} :
    invertedIn? start bodies = some found ↔ ∃ before body, IsFirst DeclaredBody.HasInverted bodies before body ∧
      found.1 = start + before.length ∧ body.root.spans.find? (·.isInverted) = some found.2 := by
  induction bodies generalizing start with
  | nil => simp [invertedIn?, IsFirst]
  | cons body rest ih =>
    simp only [invertedIn?, isFirst_cons_iff, ← body.find?_eq_none_iff]
    cases first : body.root.spans.find? (·.isInverted) with
    | some span =>
      have present : body.HasInverted := by
        by_contra absent
        rw [body.find?_eq_none_iff.mpr absent] at first
        cases first
      simp only [present, Option.some.injEq, reduceCtorEq, false_and, or_false, true_and]
      constructor
      · rintro rfl
        exact ⟨[], body, ⟨rfl, rfl⟩, rfl, first⟩
      · rintro ⟨_, _, ⟨rfl, rfl⟩, index, same⟩
        rw [first] at same
        exact Prod.ext index.symm (Option.some.inj same)
    | none =>
      have absent := body.find?_eq_none_iff.mp first
      simp only [absent, ih, false_and, false_or, true_and]
      constructor
      · rintro ⟨others, later, rest, index, span⟩
        exact ⟨body :: others, later, ⟨others, rfl, rest⟩, by rw [index, List.length_cons]; omega, span⟩
      · rintro ⟨_, later, ⟨others, rfl, rest⟩, index, span⟩
        exact ⟨others, later, rest, by rw [index, List.length_cons]; omega, span⟩

/-! ## The first fault of a snapshot -/

/-- The key of a method, which comes with the type that declares it: the key it is given, or else the names of
type and method with a dot between them and the signature behind them. -/
def keyOf (declared : DeclaredType × DeclaredMethod) : String :=
  match declared.2.key with
  | some key => key
  | none => declared.1.name ++ "." ++ declared.2.name ++ declared.2.signature

theorem keyOf_eq (declared : DeclaredType × DeclaredMethod) :
    keyOf declared = declared.2.effectiveKey declared.1.name := by
  rw [keyOf, DeclaredMethod.effectiveKey]
  cases declared.2.key with
  | some key => rfl
  | none => rfl

theorem methodKeys_eq_map_keyOf (snapshot : Snapshot) : snapshot.methodKeys = snapshot.methods.map keyOf := by
  rw [methodKeys_eq]
  apply List.map_congr_left
  intro declared _
  exact (keyOf_eq declared).symm

/-- What is wrong with a snapshot in the first place. Methods are looked at where all types have names of
their own, and bodies where all methods have keys of their own. -/
inductive IsFirstFault (snapshot : Snapshot) : LinkError → Prop
  | repeatedType {type : DeclaredType} (first : IsFirstRepeated (·.name) snapshot.types type) :
      IsFirstFault snapshot (.repeatedType type.name)
  | repeatedMethod {declared : DeclaredType × DeclaredMethod}
      (names : (snapshot.types.map (·.name)).Nodup) (first : IsFirstRepeated keyOf snapshot.methods declared) :
      IsFirstFault snapshot (.repeatedMethod (keyOf declared))
  | invertedSpan {units : List DeclaredUnit} {unit : DeclaredUnit} {bodies : List DeclaredBody}
      {body : DeclaredBody} {nodes : List Tree} {node : Tree} {span : Span}
      (names : (snapshot.types.map (·.name)).Nodup) (keys : (snapshot.methods.map keyOf).Nodup)
      (firstUnit : IsFirst DeclaredUnit.HasInverted snapshot.units units unit)
      (firstBody : IsFirst DeclaredBody.HasInverted unit.bodies bodies body)
      (firstNode : IsFirst Tree.IsInverted body.root.nodes nodes node) (found : node.span = some span) :
      IsFirstFault snapshot (.invertedSpan unit.uri bodies.length span)

variable {snapshot : Snapshot}

/-- The error for the first inverted span of a unit. -/
def inverted? (unit : DeclaredUnit) : Option LinkError :=
  (invertedIn? 0 unit.bodies).map fun (index, span) => .invertedSpan unit.uri index span

theorem inverted?_eq_none_iff (unit : DeclaredUnit) : inverted? unit = none ↔ ¬ unit.HasInverted := by
  simp only [inverted?, Option.map_eq_none_iff, invertedIn?_eq_none_iff, DeclaredUnit.HasInverted, not_exists, not_and]

theorem inverted?_eq_some_iff {unit : DeclaredUnit} {error : LinkError} :
    inverted? unit = some error ↔ ∃ bodies body nodes node span,
      IsFirst DeclaredBody.HasInverted unit.bodies bodies body ∧ IsFirst Tree.IsInverted body.root.nodes nodes node ∧
        node.span = some span ∧ error = .invertedSpan unit.uri bodies.length span := by
  simp only [inverted?, Option.map_eq_some_iff, invertedIn?_eq_some_iff, DeclaredBody.find?_eq_some_iff, Nat.zero_add]
  constructor
  · rintro ⟨⟨_, span⟩, ⟨bodies, body, firstBody, rfl, nodes, node, firstNode, found⟩, rfl⟩
    exact ⟨bodies, body, nodes, node, span, firstBody, firstNode, found, rfl⟩
  · rintro ⟨bodies, body, nodes, node, span, firstBody, firstNode, found, rfl⟩
    exact ⟨(bodies.length, span), ⟨bodies, body, firstBody, rfl, nodes, node, firstNode, found⟩, rfl⟩

theorem error?_eq_some_iff {error : LinkError} : snapshot.error? = some error ↔ snapshot.IsFirstFault error := by
  have types := @firstRepeated?_map_eq_some_iff _ (fun type : DeclaredType => type.name) snapshot.types
  have methods := @firstRepeated?_map_eq_some_iff _ keyOf snapshot.methods
  have spans := @findSome?_eq_some_iff_isFirst _ _ inverted? _ inverted?_eq_none_iff snapshot.units error
  rw [error?, typeNames, methodKeys_eq_map_keyOf]
  constructor
  · intro failed
    split at failed
    · rename_i name repeated
      obtain ⟨type, first, rfl⟩ := types.mp repeated
      obtain rfl := Option.some.inj failed
      exact .repeatedType first
    · rename_i distinct
      have distinct := nodup_iff_firstRepeated?.mpr distinct
      split at failed
      · rename_i key repeated
        obtain ⟨declared, first, rfl⟩ := methods.mp repeated
        obtain rfl := Option.some.inj failed
        exact .repeatedMethod distinct first
      · rename_i unique
        obtain ⟨units, unit, firstUnit, made⟩ := spans.mp failed
        obtain ⟨bodies, body, nodes, node, span, firstBody, firstNode, found, rfl⟩ := inverted?_eq_some_iff.mp made
        exact .invertedSpan distinct (nodup_iff_firstRepeated?.mpr unique) firstUnit firstBody firstNode found
  · intro fault
    cases fault with
    | repeatedType first =>
      have repeated := types.mpr ⟨_, first, rfl⟩
      rw [repeated]
    | repeatedMethod distinct first =>
      have repeated := methods.mpr ⟨_, first, rfl⟩
      rw [nodup_iff_firstRepeated?.mp distinct, repeated]
    | invertedSpan distinct unique firstUnit firstBody firstNode found =>
      rw [nodup_iff_firstRepeated?.mp distinct, nodup_iff_firstRepeated?.mp unique]
      exact spans.mpr ⟨_, _, firstUnit, inverted?_eq_some_iff.mpr ⟨_, _, _, _, _, firstBody, firstNode, found, rfl⟩⟩

end Snapshot

/-! ## Snapshots without references -/

mutual

/-- The tree with no call target. -/
def Tree.withoutReferences : Tree → Tree
  | .node kind children constant _ span => .node kind (Tree.withoutReferencesAll children) constant none span

def Tree.withoutReferencesAll : List Tree → List Tree
  | [] => []
  | tree :: rest => tree.withoutReferences :: Tree.withoutReferencesAll rest

end

mutual

private theorem Tree.spans_withoutReferences : (tree : Tree) → tree.withoutReferences.spans = tree.spans
  | .node _ children _ _ _ => by
    rw [Tree.withoutReferences, Tree.spans, Tree.spans, Tree.spansAll_withoutReferences children]

private theorem Tree.spansAll_withoutReferences :
    (trees : List Tree) → Tree.spansAll (Tree.withoutReferencesAll trees) = Tree.spansAll trees
  | [] => rfl
  | tree :: rest => by
    rw [Tree.withoutReferencesAll, Tree.spansAll, Tree.spansAll, Tree.spans_withoutReferences tree,
      Tree.spansAll_withoutReferences rest]

end

def DeclaredType.withoutReferences (type : DeclaredType) : DeclaredType :=
  { type with
    base := none
    interfaces := []
    methods := type.methods.map fun method => { method with overrides := none }
    implementations := [] }

def DeclaredBody.withoutReferences (body : DeclaredBody) : DeclaredBody :=
  { body with owner := none, root := body.root.withoutReferences }

def DeclaredUnit.withoutReferences (unit : DeclaredUnit) : DeclaredUnit :=
  { unit with bodies := unit.bodies.map (·.withoutReferences) }

namespace Snapshot

/-- The snapshot with no base, interface, overridden method, implementation, owner or call target. -/
def withoutReferences (snapshot : Snapshot) : Snapshot where
  types := snapshot.types.map (·.withoutReferences)
  units := snapshot.units.map (·.withoutReferences)

private theorem typeNames_withoutReferences (snapshot : Snapshot) :
    snapshot.withoutReferences.typeNames = snapshot.typeNames := by
  rw [typeNames, typeNames, withoutReferences, List.map_map]
  rfl

private theorem methodKeys_withoutReferences (snapshot : Snapshot) :
    snapshot.withoutReferences.methodKeys = snapshot.methodKeys := by
  rw [methodKeys, methodKeys, withoutReferences, List.flatMap_map]
  refine List.flatMap_congr fun type _ => ?_
  rw [keysOf, keysOf, DeclaredType.withoutReferences, List.map_map]
  rfl

private theorem invertedIn?_withoutReferences (start : Nat) (bodies : List DeclaredBody) :
    invertedIn? start (bodies.map (·.withoutReferences)) = invertedIn? start bodies := by
  induction bodies generalizing start with
  | nil => rfl
  | cons body rest ih =>
    rw [List.map_cons, invertedIn?, invertedIn?, DeclaredBody.withoutReferences, Tree.spans_withoutReferences, ih]

private theorem error?_withoutReferences (snapshot : Snapshot) :
    snapshot.withoutReferences.error? = snapshot.error? := by
  rw [error?, error?, typeNames_withoutReferences, methodKeys_withoutReferences, withoutReferences, List.findSome?_map]
  simp only [Function.comp_def, DeclaredUnit.withoutReferences, invertedIn?_withoutReferences]

/-! ## Acceptance -/

theorem link_eq_error_iff {snapshot : Snapshot} {error : LinkError} :
    snapshot.link = .error error ↔ snapshot.error? = some error := by
  rw [link]
  cases snapshot.error? <;> simp

theorem link_eq_ok_iff {snapshot : Snapshot} :
    (∃ compilation, snapshot.link = .ok compilation) ↔ snapshot.error? = none := by
  rw [link]
  cases snapshot.error? <;> simp

/-- A snapshot is linked if it has no fault, and otherwise the error is its first fault. Dropping its
references does not change whether it is linked, nor the error. -/
theorem link_accepts_iff (snapshot : Snapshot) :
    ((∃ compilation, snapshot.link = .ok compilation) ↔
      (snapshot.types.map (·.name)).Nodup ∧ (snapshot.methods.map keyOf).Nodup ∧
        ∀ unit ∈ snapshot.units, ∀ body ∈ unit.bodies, ∀ node ∈ body.root.nodes, ∀ span,
          node.span = some span → span.start ≤ span.stop) ∧
    (∀ error, snapshot.link = .error error ↔ snapshot.IsFirstFault error) ∧
    ∀ error, snapshot.withoutReferences.link = .error error ↔ snapshot.link = .error error := by
  refine ⟨?_, fun error => ?_, fun error => ?_⟩
  · rw [link_eq_ok_iff, error?_eq_none_iff, methodKeys_eq_map_keyOf, typeNames]
    simp only [invertedIn?_eq_none_iff, DeclaredBody.HasInverted, Tree.IsInverted, not_exists, not_and, Nat.not_lt]
  · rw [link_eq_error_iff, error?_eq_some_iff]
  · rw [link_eq_error_iff, link_eq_error_iff, error?_withoutReferences]

end Snapshot

end NullReturns
