import Mathlib.Logic.Equiv.Basic
import NullReturns.Proofs.LinkedTable
import NullReturns.Proofs.Renumbering

/-! # Rearranged snapshots

A snapshot may list its types, the interfaces of a type and the attributes of a method in any order. In
another order types and methods get other numbers, but it is accepted as before, and the two tables
correspond number by number.
-/

namespace NullReturns

open Equiv (Perm)

/-! ## Lists in another order -/

/-- The first number stays, the others change places as given. -/
def keepFirst (σ : Perm Nat) : Perm Nat where
  toFun
    | 0 => 0
    | i + 1 => σ i + 1
  invFun
    | 0 => 0
    | i + 1 => σ.symm i + 1
  left_inv := by rintro (_ | i) <;> simp
  right_inv := by rintro (_ | i) <;> simp

/-- The entries of a list in another order are under other numbers. -/
theorem exists_renumbering {α : Type} {list list' : List α} (same : list.Perm list') :
    ∃ σ : Perm Nat, ∀ i, list'[σ i]? = list[i]? := by
  induction same with
  | nil => exact ⟨Equiv.refl Nat, fun _ => rfl⟩
  | cons entry _ ih =>
    obtain ⟨σ, moved⟩ := ih
    refine ⟨keepFirst σ, ?_⟩
    rintro (_ | i)
    · rfl
    · exact moved i
  | swap first second rest =>
    refine ⟨Equiv.swap 0 1, ?_⟩
    rintro (_ | _ | i)
    · rw [Equiv.swap_apply_left]
      rfl
    · rw [Equiv.swap_apply_right]
      rfl
    · rw [Equiv.swap_apply_of_ne_of_ne (by omega) (by omega)]
      rfl
  | trans _ _ ih ih' =>
    obtain ⟨σ, moved⟩ := ih
    obtain ⟨σ', moved'⟩ := ih'
    exact ⟨σ.trans σ', fun i => (moved' (σ i)).trans (moved i)⟩

section

variable {α β γ δ : Type} {same : α → β → Prop} {list : List α} {list' : List β} {σ : Perm Nat}

/-- Entries that belong together, in another order. -/
theorem exists_partners {middle : List α} (moved : list.Perm middle) (related : List.Forall₂ same middle list') :
    ∃ σ : Perm Nat, ∀ i, Option.Rel same list[i]? list'[σ i]? := by
  obtain ⟨σ, moved⟩ := exists_renumbering moved
  refine ⟨σ, fun i => ?_⟩
  rw [← moved i]
  exact rel_getElem?_of_forall₂ related (σ i)

private theorem rel_map {same' : γ → δ → Prop} {f : α → γ} {g : β → δ} {a : Option α} {b : Option β}
    (related : Option.Rel same a b) (kept : ∀ x ∈ a, ∀ y, same x y → same' (f x) (g y)) :
    Option.Rel same' (a.map f) (b.map g) := by
  cases related with
  | none => exact .none
  | some here => exact .some (kept _ rfl _ here)

private theorem rel_symm {same' : β → α → Prop} {a : Option α} {b : Option β} (related : Option.Rel same a b)
    (back : ∀ a b, same a b → same' b a) : Option.Rel same' b a := by
  cases related with
  | none => exact .none
  | some here => exact .some (back _ _ here)

private theorem map_eq_of_rel {f : α → γ} {g : β → γ} {a : Option α} {b : Option β} (related : Option.Rel same a b)
    (equal : ∀ a b, same a b → g b = f a) : b.map g = a.map f := by
  cases related with
  | none => rfl
  | some here => exact congrArg some (equal _ _ here)

theorem map_eq_of_forall₂ {f : α → γ} {g : β → γ} (related : List.Forall₂ same list list')
    (equal : ∀ a b, same a b → f a = g b) : list.map f = list'.map g := by
  induction related with
  | nil => rfl
  | cons here _ ih => rw [List.map_cons, List.map_cons, equal _ _ here, ih]

/-- A name without repetitions is found under its other number. -/
theorem idxOf?_renumbered {names names' : List α} [BEq α] [LawfulBEq α] (nodup : names.Nodup) (nodup' : names'.Nodup)
    (moved : ∀ i, names'[σ i]? = names[i]?) (name : α) : names'.idxOf? name = (names.idxOf? name).map σ := by
  ext j
  rw [Option.map_eq_some_iff]
  constructor
  · intro found
    refine ⟨σ.symm j, ?_, σ.apply_symm_apply j⟩
    rwa [idxOf?_eq_some_iff_of_nodup nodup, ← moved, σ.apply_symm_apply, ← idxOf?_eq_some_iff_of_nodup nodup']
  · rintro ⟨i, found, rfl⟩
    rwa [idxOf?_eq_some_iff_of_nodup nodup', moved, ← idxOf?_eq_some_iff_of_nodup nodup]

end

/-! ## Snapshots in another order -/

/-- The same method with its attributes in any order. -/
def DeclaredMethod.Rearranged (old new : DeclaredMethod) : Prop :=
  ∃ attributes, attributes.Perm old.attributes ∧ new = { old with attributes }

/-- The same type with its interfaces and the attributes of its methods in any order. -/
def DeclaredType.Rearranged (old new : DeclaredType) : Prop :=
  ∃ interfaces methods, interfaces.Perm old.interfaces ∧
    List.Forall₂ DeclaredMethod.Rearranged old.methods methods ∧ new = { old with interfaces, methods }

/-- The same method of the same type, with its attributes in any order. -/
def Snapshot.RearrangedMember (old new : DeclaredType × DeclaredMethod) : Prop :=
  new.1.name = old.1.name ∧ old.2.Rearranged new.2

/-- The same snapshot with its types, their interfaces and the attributes of their methods in any order. -/
structure Snapshot.Rearranged (old new : Snapshot) : Prop where
  types : ∃ types, old.types.Perm types ∧ List.Forall₂ DeclaredType.Rearranged types new.types
  units : new.units = old.units

theorem DeclaredMethod.Rearranged.symm {old new : DeclaredMethod} (same : old.Rearranged new) :
    new.Rearranged old := by
  obtain ⟨attributes, moved, rfl⟩ := same
  exact ⟨old.attributes, moved.symm, rfl⟩

theorem DeclaredType.Rearranged.symm {old new : DeclaredType} (same : old.Rearranged new) :
    new.Rearranged old := by
  obtain ⟨interfaces, methods, moved, related, rfl⟩ := same
  exact ⟨old.interfaces, old.methods, moved.symm,
    related.flip.imp fun _ _ same => DeclaredMethod.Rearranged.symm same, rfl⟩

theorem DeclaredMethod.Rearranged.effectiveKey {old new : DeclaredMethod} (same : old.Rearranged new)
    (typeName : String) : new.effectiveKey typeName = old.effectiveKey typeName := by
  obtain ⟨attributes, _, rfl⟩ := same
  rfl

theorem DeclaredType.Rearranged.keysOf {old new : DeclaredType} (same : old.Rearranged new) :
    Snapshot.keysOf new = Snapshot.keysOf old := by
  obtain ⟨interfaces, methods, _, related, rfl⟩ := same
  exact (map_eq_of_forall₂ related fun _ _ same => (same.effectiveKey old.name).symm).symm

namespace Snapshot

variable {old new : Snapshot}

namespace Rearranged

theorem typeNames (rearranged : old.Rearranged new) : old.typeNames.Perm new.typeNames := by
  obtain ⟨types, moved, related⟩ := rearranged.types
  have names : types.map (·.name) = new.typeNames := by
    refine map_eq_of_forall₂ related ?_
    rintro type _ ⟨_, _, _, _, rfl⟩
    rfl
  rw [← names]
  exact moved.map (·.name)

theorem methodKeys (rearranged : old.Rearranged new) : old.methodKeys.Perm new.methodKeys := by
  obtain ⟨types, moved, related⟩ := rearranged.types
  have keys : types.map keysOf = new.types.map keysOf := map_eq_of_forall₂ related fun _ _ same => same.keysOf.symm
  have flat : types.flatMap keysOf = new.methodKeys := by
    rw [List.flatMap_def, keys, Snapshot.methodKeys, List.flatMap_def]
  exact flat ▸ moved.flatMap_right keysOf

/-- A snapshot is refused in every order or in none. -/
theorem error?_eq_none_iff (rearranged : old.Rearranged new) : new.error? = none ↔ old.error? = none := by
  rw [Snapshot.error?_eq_none_iff, Snapshot.error?_eq_none_iff, rearranged.typeNames.nodup_iff,
    rearranged.methodKeys.nodup_iff, rearranged.units]

end Rearranged

/-! ## Corresponding numbers -/

/-- The numbers that the types and methods of one snapshot have in another order of the declarations,
where no name and no key is repeated. -/
structure Matching (old new : Snapshot) where
  types : Perm TypeId
  methods : Perm MethodId
  type : ∀ id, Option.Rel DeclaredType.Rearranged old.types[id]? new.types[types id]?
  method : ∀ id, Option.Rel RearrangedMember old.methods[id]? new.methods[methods id]?
  names : old.typeNames.Nodup
  names' : new.typeNames.Nodup
  keys : old.methodKeys.Nodup
  keys' : new.methodKeys.Nodup

theorem Rearranged.matching (rearranged : old.Rearranged new) (linked : old.error? = none) :
    Nonempty (old.Matching new) := by
  obtain ⟨types, moved, related⟩ := rearranged.types
  obtain ⟨σ, type⟩ := exists_partners moved related
  have members : List.Forall₂ RearrangedMember
      (types.flatMap fun type => type.methods.map fun method => (type, method)) new.methods := by
    refine List.rel_flatMap related ?_
    rintro type _ ⟨interfaces, methods, _, alike, rfl⟩
    rw [List.forall₂_map_left_iff, List.forall₂_map_right_iff]
    exact alike.imp fun _ _ same => ⟨rfl, same⟩
  obtain ⟨τ, method⟩ := exists_partners (moved.flatMap_right _) members
  obtain ⟨names, keys, _⟩ := Snapshot.error?_eq_none_iff.mp linked
  exact ⟨⟨σ, τ, type, method, names, rearranged.typeNames.nodup_iff.mp names, keys,
    rearranged.methodKeys.nodup_iff.mp keys⟩⟩

namespace Matching

def symm (matching : old.Matching new) : new.Matching old where
  types := matching.types.symm
  methods := matching.methods.symm
  type id := by
    have related := matching.type (matching.types.symm id)
    rw [Equiv.apply_symm_apply] at related
    exact rel_symm related fun _ _ same => same.symm
  method id := by
    have related := matching.method (matching.methods.symm id)
    rw [Equiv.apply_symm_apply] at related
    exact rel_symm related fun _ _ same => ⟨same.1.symm, same.2.symm⟩
  names := matching.names'
  names' := matching.names
  keys := matching.keys'
  keys' := matching.keys

variable (matching : old.Matching new)

private theorem symm_methods : matching.symm.methods = matching.methods.symm := rfl

theorem typeId? (name : String) : new.typeId? name = (old.typeId? name).map matching.types := by
  refine idxOf?_renumbered matching.names matching.names' (fun id => ?_) name
  rw [typeNames, typeNames, List.getElem?_map, List.getElem?_map]
  refine map_eq_of_rel (matching.type id) ?_
  rintro type _ ⟨_, _, _, _, rfl⟩
  rfl

theorem methodId? (key : String) : new.methodId? key = (old.methodId? key).map matching.methods := by
  refine idxOf?_renumbered matching.keys matching.keys' (fun id => ?_) key
  rw [methodKeys_eq, methodKeys_eq, List.getElem?_map, List.getElem?_map]
  refine map_eq_of_rel (matching.method id) ?_
  rintro declared declared' ⟨name, same⟩
  rw [name, same.effectiveKey]

/-- The name of a known type has its other number. -/
theorem idxOf_typeName {name : String} (known : name ∈ old.typeNames) :
    new.typeNames.idxOf name = matching.types (old.typeNames.idxOf name) := by
  obtain ⟨id, found⟩ := Option.isSome_iff_exists.mp (List.isSome_idxOf?.mpr known)
  have found' := matching.typeId? name
  rw [Snapshot.typeId?, Snapshot.typeId?, found, Option.map_some] at found'
  rw [List.idxOf_eq_getD_idxOf?, List.idxOf_eq_getD_idxOf?, found, found', Option.getD_some, Option.getD_some]

theorem namedType {type type' : DeclaredType} (same : type.Rearranged type') :
    TypeDef.Renumbered matching.types matching.methods (old.namedType type) (new.namedType type') := by
  have keys := same.keysOf
  have types := funext matching.typeId?
  have methods := funext matching.methodId?
  obtain ⟨interfaces, declared, moved, related, rfl⟩ := same
  refine ⟨rfl, rfl, ?_, ?_, ?_, ?_⟩
  · simp only [Snapshot.namedType, linkType, types, Option.map_bind]
    rfl
  · simp only [Snapshot.namedType, linkType, List.map_filterMap, ← matching.typeId?]
    exact moved.filterMap _
  · simp only [Snapshot.namedType, keys, List.map_filterMap, ← matching.methodId?]
  · simp only [Snapshot.namedType, linkType, List.map_filterMap, methods]
    refine List.filterMap_congr fun entry _ => ?_
    cases old.methodId? entry.1 <;> cases old.methodId? entry.2 <;> rfl

theorem namedMethod {declared declared' : DeclaredType × DeclaredMethod} (known : declared.1.name ∈ old.typeNames)
    (same : RearrangedMember declared declared') :
    Method.Renumbered matching.types matching.methods (old.namedMethod declared) (new.namedMethod declared') := by
  obtain ⟨name, attributes, moved, alike⟩ := same
  refine ⟨?_, ?_, ?_, ?_, ?_, ?_, ?_, ?_⟩ <;> simp only [Snapshot.namedMethod, linkMethod, alike]
  · rw [name, matching.idxOf_typeName known]
  · rw [funext matching.methodId?, Option.map_bind]
    rfl
  · exact moved.symm.subset

/-- The tables hold the same types and methods under the matching numbers. -/
def renumbering : old.table.Renumbering new.table where
  types := matching.types
  methods := matching.methods
  type? id := by
    rw [Table.type?, Table.type?, table_types matching.keys, table_types matching.keys', List.getElem?_map,
      List.getElem?_map]
    exact rel_map (matching.type id) fun _ _ _ same => matching.namedType same
  method? id := by
    rw [Table.method?, Table.method?, table_methods matching.names, table_methods matching.names',
      List.getElem?_map, List.getElem?_map]
    refine rel_map (matching.method id) fun declared found _ same => matching.namedMethod ?_ same
    obtain ⟨type, listed, within⟩ := List.mem_flatMap.mp (List.mem_of_getElem? found)
    obtain ⟨_, _, rfl⟩ := List.mem_map.mp within
    exact List.mem_map_of_mem listed

theorem renumbering_methods : matching.renumbering.methods = matching.methods := rfl

/-- What a renumbering keeps holds in both tables or in neither. -/
theorem agree {p : Table → MethodId → Bool}
    (kept : ∀ {table table' : Table} (numbers : table.Renumbering table') {id},
      p table id = true → p table' (numbers.methods id) = true) (id : MethodId) :
    p new.table (matching.methods id) = p old.table id := by
  refine Bool.eq_iff_iff.mpr ⟨fun holds => ?_, kept matching.renumbering⟩
  have back := kept matching.symm.renumbering holds
  rwa [renumbering_methods, symm_methods, Equiv.symm_apply_apply] at back

theorem hasMarker (id : MethodId) : new.table.hasMarker (matching.methods id) = old.table.hasMarker id :=
  matching.agree Table.Renumbering.hasMarker id

theorem isMarked (id : MethodId) : new.table.isMarked (matching.methods id) = old.table.isMarked id :=
  matching.agree Table.Renumbering.isMarked id

end Matching

end Snapshot

end NullReturns
