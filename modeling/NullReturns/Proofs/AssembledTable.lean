import NullReturns.Proofs.Acceptance
import NullReturns.Proofs.Ancestry

/-! # Tables put together step by step

The table of a snapshot can also be put together by the operations on tables, in three passes over the
declared types. The first pass adds the types, the second their bases, interfaces and methods, and the
third what refers to methods, which by then all have their ids. Types and methods that were added before
are found by their names and keys. Where these are not repeated, the outcome is the table that linking
gives.
-/

namespace NullReturns

/-! ## Runs of one operation -/

namespace Table

variable {front back types : List TypeDef} {type : TypeDef} {methods : List Method} {method : Method}

private theorem foldl_addInterface (interfaces : List TypeId) :
    interfaces.foldl (addInterface · front.length) ⟨front ++ type :: back, methods⟩ =
      ⟨front ++ { type with interfaces := type.interfaces ++ interfaces } :: back, methods⟩ := by
  induction interfaces generalizing type with
  | nil => rw [List.foldl_nil, List.append_nil]
  | cons id interfaces ih =>
    rw [List.foldl_cons, addInterface, modifyType, modify_middle _ rfl, ih, List.append_assoc, List.singleton_append]

private theorem foldl_addAttribute (attributes : List String) :
    attributes.foldl (addAttribute · methods.length) ⟨types, methods ++ [method]⟩ =
      ⟨types, methods ++ [{ method with attributes := method.attributes ++ attributes }]⟩ := by
  induction attributes generalizing method with
  | nil => rw [List.foldl_nil, List.append_nil]
  | cons name attributes ih =>
    rw [List.foldl_cons, addAttribute, modifyMethod, modify_middle _ rfl, ih, List.append_assoc, List.singleton_append]

/-- Members that differ are noted one behind the other. -/
theorem foldl_implement {entries : List (MethodId × MethodId)}
    (distinct : ((type.implementations ++ entries).map (·.1)).Nodup) :
    entries.foldl (fun table entry => implement table front.length entry.1 entry.2)
        ⟨front ++ type :: back, methods⟩ =
      ⟨front ++ { type with implementations := type.implementations ++ entries } :: back, methods⟩ := by
  induction entries generalizing type with
  | nil => rw [List.foldl_nil, List.append_nil]
  | cons entry entries ih =>
    have others : type.implementations.filter (·.1 != entry.1) = type.implementations := by
      rw [List.map_append, List.map_cons, List.nodup_middle, List.nodup_cons, List.mem_append, not_or] at distinct
      apply List.filter_eq_self.mpr
      intro other listed
      apply bne_iff_ne.mpr
      intro same
      exact distinct.1.1 (same ▸ List.mem_map_of_mem listed)
    rw [List.append_cons] at distinct
    rw [List.foldl_cons, implement, modifyType, modify_middle _ rfl, others, ih distinct, List.append_assoc,
      List.singleton_append]

end Table

namespace Snapshot

variable (snapshot : Snapshot)

/-! ## The passes -/

/-- Adds a method of the type `owner` with all that does not refer to other methods. -/
def addDeclared (owner : TypeId) (typeName : String) (table : Table) (method : DeclaredMethod) : Table :=
  let id := table.methods.length
  let table := table.addMethod owner (method.effectiveKey typeName) method.name method.signature method.returns
  let table := method.attributes.foldl (·.addAttribute id) table
  method.nameSpan.elim table (table.setNameSpan id)

/-- Gives the type `id` its base, its interfaces and its methods. -/
def populate (id : TypeId) (table : Table) (type : DeclaredType) : Table :=
  let table := (type.base.bind snapshot.typeId?).elim table (table.setBase id)
  let table := (type.interfaces.filterMap snapshot.typeId?).foldl (·.addInterface id) table
  type.methods.foldl (addDeclared id type.name) table

/-- Notes what a method overrides, if it is an override. -/
def override (typeName : String) (table : Table) (method : DeclaredMethod) : Table :=
  if method.isOverride || method.overrides.isSome then
    (snapshot.methodId? (method.effectiveKey typeName)).elim table fun id =>
      table.setOverride id (method.overrides.bind snapshot.methodId?)
  else table

/-- The ids of an interface member and of the method that implements it, if both are known. -/
def implementation? (entry : String × String) : Option (MethodId × MethodId) := do
  return (← snapshot.methodId? entry.1, ← snapshot.methodId? entry.2)

/-- Notes what the methods of the type `id` override and what it implements explicitly. -/
def connect (id : TypeId) (table : Table) (type : DeclaredType) : Table :=
  let table := type.methods.foldl (snapshot.override type.name) table
  let known := type.implementations.filterMap snapshot.implementation?
  known.foldl (fun table entry => table.implement id entry.1 entry.2) table

/-- Does a step for each type that is found under its name. -/
def pass (step : TypeId → Table → DeclaredType → Table) (table : Table) : Table :=
  snapshot.types.foldl (fun table type => (snapshot.typeId? type.name).elim table (step · table type)) table

/-- The table put together step by step. -/
def assembled : Table :=
  let table : Table := snapshot.types.foldl (fun table type => table.addType type.name type.kind) { }
  snapshot.pass snapshot.connect (snapshot.pass snapshot.populate table)

variable {snapshot}

/-- What each step of a pass does to the types before and behind it, the pass does to all. -/
theorem pass_eq (names : snapshot.typeNames.Nodup) {step : TypeId → Table → DeclaredType → Table}
    {state : List DeclaredType → List DeclaredType → Table}
    (advance : ∀ before type rest, snapshot.types = before ++ type :: rest →
      step before.length (state before (type :: rest)) type = state (before ++ [type]) rest) :
    snapshot.pass step (state [] snapshot.types) = state snapshot.types [] := by
  suffices run : ∀ before rest, snapshot.types = before ++ rest →
      rest.foldl (fun table type => (snapshot.typeId? type.name).elim table (step · table type)) (state before rest) =
        state snapshot.types [] from run [] snapshot.types rfl
  intro before rest parts
  -- As names are not repeated, the step is done for the place of the type, behind those of `before`.
  induction rest generalizing before with
  | nil => rw [List.foldl_nil, parts, List.append_nil]
  | cons type rest ih =>
    have found : snapshot.typeId? type.name = some before.length := by
      apply (idxOf?_eq_some_iff_of_nodup names).mpr
      rw [typeNames, parts, List.map_append, List.map_cons, List.getElem?_append_right (by simp)]
      simp
    rw [List.foldl_cons, found, Option.elim_some, advance before type rest parts, ih]
    rw [parts, List.append_cons]

/-! ## Linked types and methods in parts -/

private theorem linkTypes_append (first : MethodId) (front back : List DeclaredType) :
    snapshot.linkTypes first (front ++ back) =
      snapshot.linkTypes first front ++ snapshot.linkTypes (first + (front.flatMap (·.methods)).length) back := by
  induction front generalizing first with
  | nil => rfl
  | cons type front ih =>
    rw [List.cons_append, linkTypes, linkTypes, ih, List.flatMap_cons, List.length_append, Nat.add_assoc,
      List.cons_append]

private theorem linkMethods_append (owner : TypeId) (front back : List DeclaredType) :
    snapshot.linkMethods owner (front ++ back) =
      snapshot.linkMethods owner front ++ snapshot.linkMethods (owner + front.length) back := by
  induction front generalizing owner with
  | nil => rfl
  | cons type front ih =>
    rw [List.cons_append, linkMethods, linkMethods, ih, List.length_cons, List.append_assoc, Nat.add_assoc,
      Nat.add_comm 1]

private theorem length_linkTypes (first : MethodId) (types : List DeclaredType) :
    (snapshot.linkTypes first types).length = types.length := by
  induction types generalizing first with
  | nil => rfl
  | cons type types ih => rw [linkTypes, List.length_cons, ih, List.length_cons]

private theorem length_linkMethods (owner : TypeId) (types : List DeclaredType) :
    (snapshot.linkMethods owner types).length = (types.flatMap (·.methods)).length := by
  induction types generalizing owner with
  | nil => rfl
  | cons type types ih =>
    rw [linkMethods, List.length_append, List.length_map, ih, List.flatMap_cons, List.length_append]

end Snapshot

/-! ## The first and the second pass -/

/-- A type before its explicit implementations are noted. -/
def TypeDef.unconnected (type : TypeDef) : TypeDef := { type with implementations := [] }

/-- A method before what it overrides is noted. -/
def Method.unconnected (method : Method) : Method := { method with isOverride := false, overridden := none }

namespace Snapshot

variable {snapshot : Snapshot} {front back : List TypeDef} {methods : List Method}

/-- A type with nothing but its name and its kind. -/
def bareType (type : DeclaredType) : TypeDef := { name := type.name, kind := type.kind }

private theorem foldl_addType (types : List DeclaredType) (table : Table) :
    types.foldl (fun table type => table.addType type.name type.kind) table =
      { table with types := table.types ++ types.map bareType } := by
  induction types generalizing table with
  | nil => rw [List.foldl_nil, List.map_nil, List.append_nil]
  | cons type types ih =>
    rw [List.foldl_cons, ih, Table.addType, List.append_assoc, List.map_cons, List.singleton_append]
    rfl

variable (snapshot) in
private theorem addDeclared_eq (owner : TypeId) (typeName : String) (table : Table) (method : DeclaredMethod) :
    addDeclared owner typeName table method =
      ⟨table.types.modify owner fun type => { type with members := type.members ++ [table.methods.length] },
        table.methods ++ [(snapshot.linkMethod owner typeName method).unconnected]⟩ := by
  simp only [addDeclared, Table.addMethod, Table.modifyType, Table.foldl_addAttribute, Method.unconnected, linkMethod]
  cases method.nameSpan with
  | none => rfl
  | some span =>
    rw [Option.elim_some, Table.setNameSpan, Table.modifyMethod, modify_middle _ rfl]
    rfl

variable (snapshot) in
private theorem foldl_addDeclared {type : TypeDef} {typeName : String} (declared : List DeclaredMethod) :
    declared.foldl (addDeclared front.length typeName) ⟨front ++ type :: back, methods⟩ =
      ⟨front ++ { type with members := type.members ++ List.range' methods.length declared.length } :: back,
        methods ++ declared.map fun method => (snapshot.linkMethod front.length typeName method).unconnected⟩ := by
  induction declared generalizing type methods with
  | nil => simp only [List.foldl_nil, List.length_nil, List.range'_zero, List.append_nil, List.map_nil]
  | cons method declared ih =>
    rw [List.foldl_cons, addDeclared_eq snapshot, modify_middle _ rfl, ih]
    simp only [List.append_assoc, List.length_append, List.length_cons, List.length_nil, Nat.zero_add,
      List.range'_succ, List.singleton_append, List.map_cons]

private theorem populate_eq (type : DeclaredType) :
    snapshot.populate front.length ⟨front ++ bareType type :: back, methods⟩ type =
      ⟨front ++ (snapshot.linkType methods.length type).unconnected :: back,
        methods ++ type.methods.map fun method =>
          (snapshot.linkMethod front.length type.name method).unconnected⟩ := by
  have based : (type.base.bind snapshot.typeId?).elim (⟨front ++ bareType type :: back, methods⟩ : Table)
      (Table.setBase ⟨front ++ bareType type :: back, methods⟩ front.length) =
        ⟨front ++ { bareType type with base := type.base.bind snapshot.typeId? } :: back, methods⟩ := by
    cases type.base.bind snapshot.typeId? with
    | none => rfl
    | some base => rw [Option.elim_some, Table.setBase, Table.modifyType, modify_middle _ rfl]
  rw [populate, based, Table.foldl_addInterface, foldl_addDeclared snapshot]
  rfl

/-- The table while the second pass is between two types. -/
def populated (snapshot : Snapshot) (before rest : List DeclaredType) : Table :=
  ⟨(snapshot.linkTypes 0 before).map (·.unconnected) ++ rest.map bareType,
    (snapshot.linkMethods 0 before).map (·.unconnected)⟩

private theorem populate_populated (before : List DeclaredType) (type : DeclaredType) (rest : List DeclaredType) :
    snapshot.populate before.length (snapshot.populated before (type :: rest)) type =
      snapshot.populated (before ++ [type]) rest := by
  have place : ((snapshot.linkTypes 0 before).map (·.unconnected)).length = before.length := by
    rw [List.length_map, length_linkTypes]
  rw [populated, List.map_cons, ← place, populate_eq, populated, linkTypes_append, linkMethods_append]
  simp only [place, List.length_map, length_linkMethods, Nat.zero_add, linkTypes, linkMethods, List.map_append,
    List.map_cons, List.map_nil, List.append_assoc, List.singleton_append, List.append_nil, List.map_map]
  rfl

/-! ## The third pass -/

private theorem override_eq {types : List TypeDef} {front back : List Method} {owner : TypeId} {typeName : String}
    {method : DeclaredMethod} (found : snapshot.methodId? (method.effectiveKey typeName) = some front.length) :
    snapshot.override typeName
        ⟨types, front ++ (snapshot.linkMethod owner typeName method).unconnected :: back⟩ method =
      ⟨types, front ++ snapshot.linkMethod owner typeName method :: back⟩ := by
  rw [override]
  split
  · rename_i overrides
    rw [found, Option.elim_some, Table.setOverride, Table.modifyMethod, modify_middle _ rfl, linkMethod, overrides]
    rfl
  · -- A method that is no override is linked as one without an overridden method.
    rename_i plain
    simp only [Bool.or_eq_true, not_or, Bool.not_eq_true, Option.isSome_eq_false_iff,
      Option.isNone_iff_eq_none] at plain
    rw [linkMethod, plain.1, plain.2]
    rfl

private theorem foldl_override {types : List TypeDef} {front back : List Method} {owner : TypeId} {typeName : String}
    {declared : List DeclaredMethod} (found : ∀ {j method}, declared[j]? = some method →
      snapshot.methodId? (method.effectiveKey typeName) = some (front.length + j)) :
    declared.foldl (snapshot.override typeName)
        ⟨types, front ++ (declared.map fun method => (snapshot.linkMethod owner typeName method).unconnected) ++ back⟩ =
      ⟨types, front ++ declared.map (snapshot.linkMethod owner typeName) ++ back⟩ := by
  induction declared generalizing front with
  | nil => rfl
  | cons method declared ih =>
    have later {j : Nat} {other : DeclaredMethod} (listed : declared[j]? = some other) :
        snapshot.methodId? (other.effectiveKey typeName) =
          some ((front ++ [snapshot.linkMethod owner typeName method]).length + j) := by
      rw [@found (j + 1) other listed, List.length_append, List.length_singleton, Nat.add_assoc, Nat.add_comm 1]
    have first := @found 0 method rfl
    have run := ih later
    simp only [List.append_assoc, List.cons_append, List.nil_append] at run
    simp only [List.map_cons, List.foldl_cons, List.append_assoc, List.cons_append]
    rw [override_eq first, run]

private theorem connect_eq {front back : List TypeDef} {before after : List Method} {type : DeclaredType}
    {first : MethodId}
    (found : ∀ {j method}, type.methods[j]? = some method →
      snapshot.methodId? (method.effectiveKey type.name) = some (before.length + j))
    (distinct : ((type.implementations.filterMap snapshot.implementation?).map (·.1)).Nodup) :
    snapshot.connect front.length
        ⟨front ++ (snapshot.linkType first type).unconnected :: back,
          before ++ (type.methods.map fun method =>
            (snapshot.linkMethod front.length type.name method).unconnected) ++ after⟩ type =
      ⟨front ++ snapshot.linkType first type :: back,
        before ++ type.methods.map (snapshot.linkMethod front.length type.name) ++ after⟩ := by
  rw [connect, foldl_override found, Table.foldl_implement distinct]
  rfl

private theorem nodup_filterMap_implementation? (keys : snapshot.methodKeys.Nodup) {entries : List (String × String)}
    (once : (entries.map (·.1)).Nodup) : ((entries.filterMap snapshot.implementation?).map (·.1)).Nodup := by
  have key {entry : String × String} {ids : MethodId × MethodId} (known : snapshot.implementation? entry = some ids) :
      snapshot.methodKeys[ids.1]? = some entry.1 := by
    simp only [implementation?, bind, pure, Option.bind_eq_some_iff, Option.some.injEq] at known
    obtain ⟨member, found, _, _, rfl⟩ := known
    exact (idxOf?_eq_some_iff_of_nodup keys).mp found
  apply List.pairwise_map.mpr
  apply List.pairwise_filterMap.mpr
  apply (List.pairwise_map.mp once).imp
  intro left right differ ids known ids' known' same
  have both := key known
  rw [same, key known', Option.some.injEq] at both
  exact differ both.symm

/-- The table while the third pass is between two types. -/
def connected (snapshot : Snapshot) (before rest : List DeclaredType) : Table :=
  ⟨snapshot.linkTypes 0 before ++
      (snapshot.linkTypes (before.flatMap (·.methods)).length rest).map (·.unconnected),
    snapshot.linkMethods 0 before ++ (snapshot.linkMethods before.length rest).map (·.unconnected)⟩

private theorem connect_connected (keys : snapshot.methodKeys.Nodup) {before : List DeclaredType} {type : DeclaredType}
    {rest : List DeclaredType} (parts : snapshot.types = before ++ type :: rest)
    (once : (type.implementations.map (·.1)).Nodup) :
    snapshot.connect before.length (snapshot.connected before (type :: rest)) type =
      snapshot.connected (before ++ [type]) rest := by
  have found {j : Nat} {method : DeclaredMethod} (listed : type.methods[j]? = some method) :
      snapshot.methodId? (method.effectiveKey type.name) = some ((snapshot.linkMethods 0 before).length + j) := by
    have count : (before.flatMap keysOf).length = (before.flatMap (·.methods)).length := by
      simp [List.length_flatMap, keysOf]
    apply (idxOf?_eq_some_iff_of_nodup keys).mpr
    rw [length_linkMethods, ← count, methodKeys, parts, List.flatMap_append, List.flatMap_cons,
      List.getElem?_append_right (Nat.le_add_right _ _), Nat.add_sub_cancel_left]
    have inside : j < (keysOf type).length := by
      rw [keysOf, List.length_map]
      exact (List.getElem?_eq_some_iff.mp listed).1
    rw [List.getElem?_append_left inside, keysOf, List.getElem?_map, listed, Option.map_some]
  have distinct := nodup_filterMap_implementation? keys once
  have place : (snapshot.linkTypes 0 before).length = before.length := length_linkTypes 0 before
  rw [connected, linkTypes, linkMethods, List.map_cons, List.map_append, List.map_map, ← place, ← List.append_assoc]
  refine (connect_eq found distinct).trans ?_
  rw [connected, linkTypes_append, linkMethods_append]
  simp only [place, Nat.zero_add, linkTypes, linkMethods, List.flatMap_append, List.flatMap_cons, List.flatMap_nil,
    List.length_append, List.length_singleton, List.append_nil, List.append_assoc, List.singleton_append]

/-- The three passes give the table of the snapshot, if no type name and no key is repeated and each type
has an interface member once. -/
theorem assembled_eq_table (names : snapshot.typeNames.Nodup) (keys : snapshot.methodKeys.Nodup)
    (once : ∀ type ∈ snapshot.types, (type.implementations.map (·.1)).Nodup) :
    snapshot.assembled = snapshot.table := by
  have added : snapshot.types.foldl (fun table type => table.addType type.name type.kind) { } =
      snapshot.populated [] snapshot.types := foldl_addType snapshot.types { }
  have between : snapshot.populated snapshot.types [] = snapshot.connected [] snapshot.types := by
    rw [populated, connected, List.map_nil, List.append_nil]
    rfl
  rw [assembled, added, pass_eq names fun before type rest _ => populate_populated before type rest, between]
  rw [pass_eq names fun before type rest parts => connect_connected keys parts (once type (by simp [parts]))]
  rw [connected, linkTypes, linkMethods, List.map_nil, List.map_nil, List.append_nil, List.append_nil, table]

/-- A linked snapshot has the table that the three passes give. -/
theorem table_of_link {compilation : Compilation} (linked : snapshot.link = .ok compilation)
    (once : ∀ type ∈ snapshot.types, (type.implementations.map (·.1)).Nodup) :
    compilation.table = snapshot.assembled := by
  rw [link] at linked
  split at linked
  · cases linked
  · rename_i accepted
    obtain ⟨names, keys, _⟩ := error?_eq_none_iff.mp accepted
    rw [← Except.ok.inj linked, assembled_eq_table names keys once]

end Snapshot

end NullReturns
