import Mathlib.Data.List.Nodup
import Mathlib.Data.List.Perm.Basic
import Mathlib.Logic.Equiv.Defs
import NullReturns.Proofs.Interfaces
import NullReturns.Proofs.Marking

/-! # Tables under other numbers

Two tables may hold the same types and methods under different numbers. Then chains, lookups and the
interfaces of a type correspond number by number. The methods of the second table may carry further
attributes, which none of these depend on: a method that counts as marked in the first table does so in
the second.
-/

namespace NullReturns

open Equiv (Perm)

theorem rel_getElem?_of_forall₂ {α β : Type} {same : α → β → Prop} {list : List α} {list' : List β}
    (related : List.Forall₂ same list list') (i : Nat) : Option.Rel same list[i]? list'[i]? := by
  induction related generalizing i with
  | nil => exact .none
  | cons here _ ih =>
    cases i with
    | zero => exact .some here
    | succ i => exact ih i

theorem rel_cases {α β : Type} {same : α → β → Prop} {a : Option α} {b : Option β} (related : Option.Rel same a b) :
    (a = none ∧ b = none) ∨ ∃ x y, a = some x ∧ b = some y ∧ same x y := by
  cases related with
  | none => exact .inl ⟨rfl, rfl⟩
  | some here => exact .inr ⟨_, _, rfl, rfl, here⟩

/-! ## Chains -/

/-- Numbers in range are the numbers of those in range. -/
theorem range_perm_map {m n : Nat} {σ : Perm Nat} (inside : ∀ i, σ i < n ↔ i < m) :
    (List.range n).Perm ((List.range m).map σ) := by
  rw [List.perm_ext_iff_of_nodup List.nodup_range (List.Nodup.map σ.injective List.nodup_range)]
  intro i
  simp only [List.mem_range, List.mem_map]
  constructor
  · intro within
    refine ⟨σ.symm i, (inside _).mp ?_, σ.apply_symm_apply i⟩
    rwa [σ.apply_symm_apply]
  · rintro ⟨j, within, rfl⟩
    exact (inside j).mpr within

/-- A chain of links is the same chain under other numbers. -/
theorem follow_map {next next' : Nat → Option Nat} {σ : Perm Nat} {fresh fresh' : List Nat} {id : Nat}
    (links : ∀ id, next' (σ id) = (next id).map σ) (same : fresh'.Perm (fresh.map σ)) :
    follow next' fresh' (σ id) = (follow next fresh id).map σ := by
  fun_induction follow next fresh id generalizing fresh' with
  | case1 fresh id present ih =>
    have present' : σ id ∈ fresh' := same.mem_iff.mpr (List.mem_map_of_mem present)
    have left : (fresh'.erase (σ id)).Perm ((fresh.erase id).map σ) := by
      rw [List.map_erase σ.injective]
      exact same.erase (σ id)
    rw [follow, if_pos present', links id, List.map_cons]
    cases next id with
    | none => rfl
    | some target => exact congrArg (σ id :: ·) (ih target left)
  | case2 fresh id absent =>
    have absent' : σ id ∉ fresh' := by
      rwa [same.mem_iff, List.mem_map_of_injective σ.injective]
    rw [follow, if_neg absent', List.map_nil]

/-! ## Types and methods -/

/-- The same type under other numbers, with its interfaces in any order. -/
structure TypeDef.Renumbered (types : Perm TypeId) (methods : Perm MethodId) (old new : TypeDef) : Prop where
  name : new.name = old.name
  kind : new.kind = old.kind
  base : new.base = old.base.map types
  interfaces : new.interfaces.Perm (old.interfaces.map types)
  members : new.members = old.members.map methods
  implementations : new.implementations = old.implementations.map (Prod.map methods methods)

/-- The same method under other numbers, with at least its attributes. -/
structure Method.Renumbered (types : Perm TypeId) (methods : Perm MethodId) (old new : Method) : Prop where
  name : new.name = old.name
  signature : new.signature = old.signature
  owner : new.owner = types old.owner
  returns : new.returns = old.returns
  isOverride : new.isOverride = old.isOverride
  overridden : new.overridden = old.overridden.map methods
  attributes : old.attributes ⊆ new.attributes
  nameSpan : new.nameSpan = old.nameSpan

theorem Method.Renumbered.hasMarker {types : Perm TypeId} {methods : Perm MethodId} {old new : Method}
    (same : Method.Renumbered types methods old new) (marker : old.hasMarker = true) : new.hasMarker = true := by
  obtain ⟨name, listed, marks⟩ := List.any_eq_true.mp marker
  exact List.any_eq_true.mpr ⟨name, same.attributes listed, marks⟩

theorem Method.Renumbered.canHoldNull {types : Perm TypeId} {methods : Perm MethodId} {old new : Method}
    (same : Method.Renumbered types methods old new) : new.canHoldNull = old.canHoldNull := by
  rw [Method.canHoldNull, Method.canHoldNull, same.returns]

namespace Table

/-- The second table has the types and methods of the first under other numbers, and the methods carry at
least the attributes they have in the first. -/
structure Renumbering (old new : Table) where
  types : Perm TypeId
  methods : Perm MethodId
  type? : ∀ id, Option.Rel (TypeDef.Renumbered types methods) (old.type? id) (new.type? (types id))
  method? : ∀ id, Option.Rel (Method.Renumbered types methods) (old.method? id) (new.method? (methods id))

namespace Renumbering

variable {old new : Table} (numbers : old.Renumbering new)

private theorem lt_length_iff {α β : Type} {same : α → β → Prop} {list : List α} {list' : List β} {i j : Nat}
    (related : Option.Rel same list[i]? list'[j]?) : j < list'.length ↔ i < list.length := by
  rw [← not_iff_not, Nat.not_lt, Nat.not_lt, ← List.getElem?_eq_none_iff, ← List.getElem?_eq_none_iff]
  rcases rel_cases related with ⟨missing, missing'⟩ | ⟨_, _, found, found', _⟩
  · exact iff_of_true missing' missing
  · simp only [found, found', reduceCtorEq]

private theorem type?_cases (id : TypeId) :
    (old.type? id = none ∧ new.type? (numbers.types id) = none) ∨
      ∃ type type', old.type? id = some type ∧ new.type? (numbers.types id) = some type' ∧
        TypeDef.Renumbered numbers.types numbers.methods type type' :=
  rel_cases (numbers.type? id)

theorem method?_cases (id : MethodId) :
    (old.method? id = none ∧ new.method? (numbers.methods id) = none) ∨
      ∃ method method', old.method? id = some method ∧ new.method? (numbers.methods id) = some method' ∧
        Method.Renumbered numbers.types numbers.methods method method' :=
  rel_cases (numbers.method? id)

private theorem types_lt (id : TypeId) : numbers.types id < new.types.length ↔ id < old.types.length :=
  lt_length_iff (numbers.type? id)

private theorem methods_lt (id : MethodId) : numbers.methods id < new.methods.length ↔ id < old.methods.length :=
  lt_length_iff (numbers.method? id)

theorem canHoldNull (id : MethodId) :
    (new.method? (numbers.methods id)).any (·.canHoldNull) = (old.method? id).any (·.canHoldNull) := by
  rcases numbers.method?_cases id with ⟨known, known'⟩ | ⟨_, _, known, known', same⟩
  · rw [known, known']
  · rw [known, known', Option.any_some, Option.any_some, same.canHoldNull]

theorem nameSpan (id : MethodId) :
    (new.method? (numbers.methods id)).bind (·.nameSpan) = (old.method? id).bind (·.nameSpan) := by
  rcases numbers.method?_cases id with ⟨known, known'⟩ | ⟨_, _, known, known', same⟩
  · rw [known, known']
  · rw [known, known', Option.bind_some, Option.bind_some, same.nameSpan]

theorem qualifiedName (id : MethodId) : new.qualifiedName (numbers.methods id) = old.qualifiedName id := by
  rcases numbers.method?_cases id with ⟨known, known'⟩ | ⟨method, method', known, known', same⟩
  · rw [Table.qualifiedName, Table.qualifiedName, known, known']
  · simp only [Table.qualifiedName, known, known', same.owner, same.name]
    rcases numbers.type?_cases method.owner with ⟨found, found'⟩ | ⟨_, _, found, found', alike⟩
    · rw [found, found']
    · rw [found, found', Option.map_some, Option.map_some, alike.name]

/-! ## Bases and interfaces -/

theorem baseChain (id : TypeId) :
    new.baseChain (numbers.types id) = (old.baseChain id).map numbers.types := by
  refine follow_map ?_ (range_perm_map numbers.types_lt)
  intro id
  rcases numbers.type?_cases id with ⟨known, known'⟩ | ⟨_, _, known, known', same⟩
  · rw [known, known', Option.bind_none, Option.map_none]
  · rw [known, known', Option.bind_some, Option.bind_some, same.base]

private theorem linksTo {id target : TypeId} (link : old.LinksTo id target) :
    new.LinksTo (numbers.types id) (numbers.types target) := by
  rcases numbers.type?_cases id with ⟨known, _⟩ | ⟨type, type', known, known', same⟩
  · simp only [LinksTo, links, known, List.not_mem_nil] at link
  · simp only [LinksTo, links, known, known', List.mem_append, Option.mem_toList, same.base,
      same.interfaces.mem_iff, List.mem_map_of_injective numbers.types.injective] at link ⊢
    exact link.imp_left (Option.mem_map_of_mem _)

theorem isInterface (id : TypeId) : new.isInterface (numbers.types id) = old.isInterface id := by
  rcases numbers.type?_cases id with ⟨known, known'⟩ | ⟨_, _, known, known', same⟩
  · rw [Table.isInterface, Table.isInterface, known, known']
  · rw [Table.isInterface, Table.isInterface, known, known', Option.any_some, Option.any_some, same.kind]

theorem mem_allInterfaces {id interface : TypeId} (member : interface ∈ old.allInterfaces id) :
    numbers.types interface ∈ new.allInterfaces (numbers.types id) := by
  obtain ⟨kind, other, path⟩ := Table.mem_allInterfaces.mp member
  refine Table.mem_allInterfaces.mpr ⟨?_, numbers.types.injective.ne other, ?_⟩
  · rw [numbers.isInterface, kind]
  · exact path.lift numbers.types fun _ _ => numbers.linksTo

/-! ## Implementations and overrides -/

private theorem lookup_map {entries : List (MethodId × MethodId)} {σ : Perm MethodId} (member : MethodId) :
    (entries.map (Prod.map σ σ)).lookup (σ member) = (entries.lookup member).map σ := by
  induction entries with
  | nil => rfl
  | cons entry rest ih =>
    have keys : (σ member == σ entry.1) = (member == entry.1) := by
      rw [Bool.eq_iff_iff, beq_iff_eq, beq_iff_eq, σ.injective.eq_iff]
    rw [List.map_cons, List.lookup_cons, List.lookup_cons, Prod.map_fst, keys, ih]
    cases member == entry.1 <;> rfl

theorem implementationIn? (member : MethodId) (id : TypeId) :
    new.implementationIn? (numbers.methods member) (numbers.types id) =
      (old.implementationIn? member id).map numbers.methods := by
  rcases numbers.method?_cases member with ⟨known, known'⟩ | ⟨target, target', known, known', same⟩
  · simp only [Table.implementationIn?, known, known', bind, Option.bind_none, Option.map_none]
  rcases numbers.type?_cases id with ⟨found, found'⟩ | ⟨type, type', found, found', alike⟩
  · simp only [Table.implementationIn?, known, known', found, found', bind, Option.bind_some, Option.bind_none,
      Option.map_none]
  · have candidate (id : MethodId) :
        ((new.method? (numbers.methods id)).any fun method =>
          method.name == target'.name && method.signature == target'.signature) =
        (old.method? id).any fun method => method.name == target.name && method.signature == target.signature := by
      rcases numbers.method?_cases id with ⟨here, here'⟩ | ⟨_, _, here, here', this⟩
      · rw [here, here', Option.any_none, Option.any_none]
      · rw [here, here', Option.any_some, Option.any_some, this.name, this.signature, same.name, same.signature]
    simp only [Table.implementationIn?, known, known', found, found', bind, Option.bind_some, alike.implementations,
      alike.members, lookup_map, List.find?_map, Option.map_or, Function.comp_def, candidate]

theorem resolve? (id : TypeId) (member : MethodId) :
    new.resolve? (numbers.types id) (numbers.methods member) = (old.resolve? id member).map numbers.methods := by
  rw [Table.resolve?, Table.resolve?, numbers.baseChain, List.findSome?_map, List.map_findSome?]
  congr 1
  funext id
  exact numbers.implementationIn? member id

theorem overridden? (id : MethodId) :
    new.overridden? (numbers.methods id) = (old.overridden? id).map numbers.methods := by
  rcases numbers.method?_cases id with ⟨known, known'⟩ | ⟨method, method', known, known', same⟩
  · simp only [Table.overridden?, known, known', bind, Option.bind_none, Option.map_none]
  · simp only [Table.overridden?, known, known', bind, Option.bind_some, same.isOverride, same.overridden]
    cases method.isOverride <;> rfl

theorem overrideChain (id : MethodId) :
    new.overrideChain (numbers.methods id) = (old.overrideChain id).map numbers.methods :=
  follow_map numbers.overridden? (range_perm_map numbers.methods_lt)

/-! ## Markers -/

theorem hasMarker {id : MethodId} (marker : old.hasMarker id = true) :
    new.hasMarker (numbers.methods id) = true := by
  rcases numbers.method?_cases id with ⟨known, _⟩ | ⟨_, _, known, known', same⟩
  · simp only [Table.hasMarker, known, Option.any_none, Bool.false_eq_true] at marker
  · rw [Table.hasMarker, known, Option.any_some] at marker
    rw [Table.hasMarker, known', Option.any_some, same.hasMarker marker]

theorem mem_interfaceMembers {id member : MethodId} (listed : member ∈ old.interfaceMembers id) :
    numbers.methods member ∈ new.interfaceMembers (numbers.methods id) := by
  rcases numbers.method?_cases id with ⟨known, _⟩ | ⟨method, method', known, known', same⟩
  · simp only [Table.interfaceMembers, known, List.not_mem_nil] at listed
  · obtain ⟨interface, type, declared, reached, found, within, given, name⟩ :=
      (Table.mem_interfaceMembers known).mp listed
    rcases numbers.type?_cases interface with ⟨missing, _⟩ | ⟨_, type', found', there, alike⟩
    · exact absurd (missing.symm.trans found) (Option.some_ne_none _).symm
    rcases numbers.method?_cases member with ⟨missing, _⟩ | ⟨_, declared', given', here, this⟩
    · exact absurd (missing.symm.trans given) (Option.some_ne_none _).symm
    obtain rfl := Option.some.inj (found'.symm.trans found)
    obtain rfl := Option.some.inj (given'.symm.trans given)
    refine (Table.mem_interfaceMembers known').mpr
      ⟨numbers.types interface, type', declared', ?_, there, ?_, here, ?_⟩
    · rw [same.owner]
      exact numbers.mem_allInterfaces reached
    · rw [alike.members]
      exact List.mem_map_of_mem within
    · rw [this.name, same.name, name]

theorem isMarkedByInterface {id : MethodId} (marked : old.isMarkedByInterface id = true) :
    new.isMarkedByInterface (numbers.methods id) = true := by
  rcases numbers.method?_cases id with ⟨known, _⟩ | ⟨method, method', known, known', same⟩
  · simp only [Table.isMarkedByInterface, known, Option.any_none, Bool.false_eq_true] at marked
  · simp only [Table.isMarkedByInterface, known, known', Option.any_some, List.any_eq_true, Bool.and_eq_true,
      beq_iff_eq] at marked ⊢
    obtain ⟨member, listed, resolved, marker⟩ := marked
    refine ⟨numbers.methods member, numbers.mem_interfaceMembers listed, ?_, numbers.hasMarker marker⟩
    rw [same.owner, numbers.resolve?, resolved, Option.map_some]

/-- A method that counts as marked does so under its other number. -/
theorem isMarked {id : MethodId} (marked : old.isMarked id = true) : new.isMarked (numbers.methods id) = true := by
  simp only [Table.isMarked, numbers.overrideChain, List.any_map, List.any_eq_true, Function.comp_apply,
    Bool.or_eq_true] at marked ⊢
  obtain ⟨ancestor, met, marks⟩ := marked
  exact ⟨ancestor, met, marks.imp numbers.hasMarker numbers.isMarkedByInterface⟩

end Renumbering

end Table

end NullReturns
