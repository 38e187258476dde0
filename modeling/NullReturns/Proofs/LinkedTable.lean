import NullReturns.Snapshot.Compilation
import Mathlib.Data.List.Nodup

/-! # The table of a snapshot

Where no name and no key is repeated, a number stands for one declaration, and the table of a snapshot is
told by names: each type has the numbers of its methods' keys, and each method the number of the name of
its type. The order of the declarations does not come into it.
-/

namespace NullReturns

/-! ## Names without repetitions -/

theorem firstRepeated?_eq_none_iff {seen names : List String} :
    firstRepeated? seen names = none ↔ names.Nodup ∧ ∀ name ∈ names, name ∉ seen := by
  induction names generalizing seen with
  | nil => simp [firstRepeated?]
  | cons name rest ih =>
    rw [firstRepeated?]
    split
    · rename_i repeated
      simp [repeated]
    · rename_i fresh
      simp only [ih, List.nodup_cons, List.mem_cons, not_or, forall_eq_or_imp]
      constructor
      · rintro ⟨nodup, unseen⟩
        exact ⟨⟨fun again => (unseen name again).1 rfl, nodup⟩, fresh, fun other listed => (unseen other listed).2⟩
      · rintro ⟨⟨once, nodup⟩, _, unseen⟩
        refine ⟨nodup, fun other listed => ⟨?_, unseen other listed⟩⟩
        rintro rfl
        exact once listed

theorem nodup_iff_firstRepeated? {names : List String} : names.Nodup ↔ firstRepeated? [] names = none := by
  simp only [firstRepeated?_eq_none_iff, List.not_mem_nil, not_false_eq_true, implies_true, and_true]

section

variable {α : Type} [BEq α] [LawfulBEq α] {names : List α}

/-- Looking up a name is the inverse of looking up a number. -/
theorem idxOf?_eq_some_iff_of_nodup (nodup : names.Nodup) {name : α} {i : Nat} :
    names.idxOf? name = some i ↔ names[i]? = some name := by
  rw [List.idxOf?_eq_some_iff, List.getElem?_eq_some_iff]
  constructor
  · rintro ⟨inside, same, _⟩
    exact ⟨inside, same⟩
  · rintro ⟨inside, rfl⟩
    refine ⟨inside, rfl, fun j less same => ?_⟩
    exact Nat.ne_of_lt less ((List.Nodup.getElem_inj_iff nodup).mp same)

/-- A stretch of names has consecutive numbers. -/
theorem filterMap_idxOf?_middle {before middle after : List α} (nodup : (before ++ (middle ++ after)).Nodup) :
    middle.filterMap (before ++ (middle ++ after)).idxOf? = List.range' before.length middle.length := by
  induction middle generalizing before with
  | nil => rfl
  | cons name middle ih =>
    have placed : (before ++ (name :: middle ++ after))[before.length]? = some name := by simp
    have shifted : before ++ (name :: middle ++ after) = (before ++ [name]) ++ (middle ++ after) := by simp
    rw [List.filterMap_cons, (idxOf?_eq_some_iff_of_nodup nodup).mpr placed, List.length_cons, List.range'_succ]
    rw [shifted] at nodup ⊢
    simp only [ih nodup, List.length_append, List.length_singleton]

end

namespace Snapshot

variable {snapshot : Snapshot}

theorem error?_eq_none_iff : snapshot.error? = none ↔ snapshot.typeNames.Nodup ∧ snapshot.methodKeys.Nodup ∧
    ∀ unit ∈ snapshot.units, invertedIn? 0 unit.bodies = none := by
  rw [nodup_iff_firstRepeated?, nodup_iff_firstRepeated?, error?]
  cases firstRepeated? [] snapshot.typeNames <;> cases firstRepeated? [] snapshot.methodKeys <;> simp

/-! ## Declarations by name -/

/-- All methods, each with the type it is declared in. -/
def methods (snapshot : Snapshot) : List (DeclaredType × DeclaredMethod) :=
  snapshot.types.flatMap fun type => type.methods.map fun method => (type, method)

/-- A type with the numbers of its methods' keys. -/
def namedType (snapshot : Snapshot) (type : DeclaredType) : TypeDef :=
  { snapshot.linkType 0 type with members := (keysOf type).filterMap snapshot.methodId? }

/-- A method with the number of the name of its type. -/
def namedMethod (snapshot : Snapshot) (declared : DeclaredType × DeclaredMethod) : Method :=
  snapshot.linkMethod (snapshot.typeNames.idxOf declared.1.name) declared.1.name declared.2

theorem methodKeys_eq :
    snapshot.methodKeys = snapshot.methods.map fun declared => declared.2.effectiveKey declared.1.name := by
  rw [methodKeys, methods, List.map_flatMap]
  refine List.flatMap_congr fun type _ => ?_
  rw [keysOf, List.map_map]
  rfl

private theorem linkTypes_eq (nodup : snapshot.methodKeys.Nodup) (before : List String) {rest : List DeclaredType}
    (parts : snapshot.methodKeys = before ++ rest.flatMap keysOf) :
    snapshot.linkTypes before.length rest = rest.map snapshot.namedType := by
  -- The keys of the types that come before number the methods linked so far.
  induction rest generalizing before with
  | nil => rfl
  | cons type rest ih =>
    rw [List.flatMap_cons] at parts
    have members : (keysOf type).filterMap snapshot.methodId? = List.range' before.length type.methods.length := by
      have numbers := filterMap_idxOf?_middle (parts ▸ nodup)
      rw [← parts, keysOf, List.length_map] at numbers
      exact numbers
    have later := ih (before ++ keysOf type) (by rw [parts, List.append_assoc])
    rw [List.length_append, keysOf, List.length_map] at later
    rw [linkTypes, later, List.map_cons, namedType, members]
    rfl

private theorem linkMethods_eq (nodup : snapshot.typeNames.Nodup) (before : List String) {rest : List DeclaredType}
    (parts : snapshot.typeNames = before ++ rest.map (·.name)) :
    snapshot.linkMethods before.length rest =
      (rest.flatMap fun type => type.methods.map fun method => (type, method)).map snapshot.namedMethod := by
  induction rest generalizing before with
  | nil => rfl
  | cons type rest ih =>
    have placed : snapshot.typeNames[before.length]? = some type.name := by simp [parts]
    have owner : snapshot.typeNames.idxOf type.name = before.length := by
      rw [List.idxOf_eq_getD_idxOf?, (idxOf?_eq_some_iff_of_nodup nodup).mpr placed, Option.getD_some]
    have later := ih (before ++ [type.name]) (by rw [parts, List.map_cons, List.append_cons])
    rw [List.length_append, List.length_singleton] at later
    rw [linkMethods, later, List.flatMap_cons, List.map_append, List.map_map, ← owner]
    rfl

theorem table_types (nodup : snapshot.methodKeys.Nodup) :
    snapshot.table.types = snapshot.types.map snapshot.namedType :=
  linkTypes_eq nodup [] rfl

theorem table_methods (nodup : snapshot.typeNames.Nodup) :
    snapshot.table.methods = snapshot.methods.map snapshot.namedMethod :=
  linkMethods_eq nodup [] rfl

end Snapshot

end NullReturns
