import NullReturns.Proofs.Acceptance
import NullReturns.Proofs.Rearrangement
import NullReturns.Proofs.StrictLookups
import Mathlib.Data.List.Nodup

/-! # Where the references of a snapshot lead

In a linked snapshot every id is the id of what its declaration names. Told by names, the references of each
type, method and body are those of its declaration that the snapshot knows, in the same order; what it does
not know is left out. All ids are therefore in range, each method is a member of its own type and of no
other, and the analysis finds whatever it looks up.
-/

namespace NullReturns

/-! ## References told by names -/

/-- The ids are those of the names that occur among the labels, in the same order. -/
def Refers (labels names : List String) (ids : List Nat) : Prop :=
  ids.map (labels[·]?) = (names.filter (· ∈ labels)).map some

/-- The pairs of ids are those of the pairs of names that both occur among the labels. -/
def RefersPairwise (labels : List String) (names : List (String × String)) (ids : List (Nat × Nat)) : Prop :=
  ids.map (fun pair => (labels[pair.1]?, labels[pair.2]?)) =
    (names.filter fun pair => pair.1 ∈ labels ∧ pair.2 ∈ labels).map fun pair => (some pair.1, some pair.2)

section

variable {labels names : List String} {ids : List Nat}

theorem Refers.lt (refers : Refers labels names ids) {id : Nat} (listed : id ∈ ids) : id < labels.length := by
  have told : labels[id]? ∈ ids.map (labels[·]?) := List.mem_map_of_mem listed
  rw [refers] at told
  obtain ⟨name, _, found⟩ := List.mem_map.mp told
  exact (List.getElem?_eq_some_iff.mp found.symm).1

theorem RefersPairwise.lt {names : List (String × String)} {ids : List (Nat × Nat)}
    (refers : RefersPairwise labels names ids) {pair : Nat × Nat} (listed : pair ∈ ids) :
    pair.1 < labels.length ∧ pair.2 < labels.length := by
  have told : (labels[pair.1]?, labels[pair.2]?) ∈ ids.map (fun pair => (labels[pair.1]?, labels[pair.2]?)) :=
    List.mem_map_of_mem listed
  rw [refers] at told
  obtain ⟨name, _, found⟩ := List.mem_map.mp told
  obtain ⟨first, second⟩ := Prod.mk.inj found
  exact ⟨(List.getElem?_eq_some_iff.mp first.symm).1, (List.getElem?_eq_some_iff.mp second.symm).1⟩

/-- An unknown name has no number, and a known one has a number that leads back to it. -/
theorem idxOf?_cases (distinct : labels.Nodup) (name : String) :
    (name ∉ labels ∧ labels.idxOf? name = none) ∨
      (name ∈ labels ∧ ∃ id, labels.idxOf? name = some id ∧ labels[id]? = some name) := by
  cases found : labels.idxOf? name with
  | none => exact .inl ⟨List.idxOf?_eq_none_iff.mp found, rfl⟩
  | some id =>
    have placed := (idxOf?_eq_some_iff_of_nodup distinct).mp found
    exact .inr ⟨List.mem_of_getElem? placed, id, rfl, placed⟩

private theorem refers_filterMap (distinct : labels.Nodup) (names : List String) :
    Refers labels names (names.filterMap (labels.idxOf? ·)) := by
  rw [Refers]
  induction names with
  | nil => rfl
  | cons name rest ih =>
    rcases idxOf?_cases distinct name with ⟨unknown, absent⟩ | ⟨known, id, found, placed⟩
    · rw [List.filterMap_cons, absent, List.filter_cons_of_neg (by simpa using unknown), ih]
    · rw [List.filterMap_cons, found, List.filter_cons_of_pos (by simpa using known), List.map_cons, List.map_cons,
        placed, ih]

private theorem refers_bind (distinct : labels.Nodup) (name : Option String) :
    Refers labels name.toList (name.bind (labels.idxOf? ·)).toList := by
  have listed := refers_filterMap distinct name.toList
  cases name with
  | none => exact listed
  | some name =>
    rw [Option.toList_some, List.filterMap_cons, List.filterMap_nil] at listed
    cases found : labels.idxOf? name <;> simpa only [found, Option.bind_some, Option.toList] using listed

private theorem refersPairwise_filterMap (distinct : labels.Nodup) (names : List (String × String)) :
    RefersPairwise labels names (names.filterMap fun (first, second) => do
      return (← labels.idxOf? first, ← labels.idxOf? second)) := by
  rw [RefersPairwise]
  induction names with
  | nil => rfl
  | cons pair rest ih =>
    rw [List.filterMap_cons, List.filter_cons]
    rcases idxOf?_cases distinct pair.1 with ⟨unknown, absent⟩ | ⟨known, id, found, placed⟩
    · simpa [absent, unknown] using ih
    rcases idxOf?_cases distinct pair.2 with ⟨unknown, absent⟩ | ⟨known', id', found', placed'⟩
    · simpa [found, absent, unknown] using ih
    · simpa [found, found', known, known', placed, placed'] using ih

end

/-- What is paired with an entry. -/
theorem exists_of_forall₂ {α β : Type} {related : α → β → Prop} {firsts : List α} {seconds : List β}
    (paired : List.Forall₂ related firsts seconds) {second : β} (listed : second ∈ seconds) :
    ∃ first ∈ firsts, related first second := by
  induction paired with
  | nil => cases listed
  | cons pair _ ih =>
    rcases List.mem_cons.mp listed with rfl | later
    · exact ⟨_, List.mem_cons_self, pair⟩
    · obtain ⟨first, member, holds⟩ := ih later
      exact ⟨first, List.mem_cons_of_mem _ member, holds⟩

/-- A label has one place. -/
theorem place_unique {labels : List String} (distinct : labels.Nodup) {name : String} {id other : Nat}
    (found : labels[id]? = some name) (again : labels[other]? = some name) : id = other :=
  (List.getElem?_inj (List.getElem?_eq_some_iff.mp found).1 distinct).mp (found.trans again.symm)

/-- Where the ids of a list are told by all labels in order, they count up from zero. -/
theorem eq_range_of_map_getElem? {labels : List String} (distinct : labels.Nodup) {ids : List Nat}
    (told : ids.map (labels[·]?) = labels.map some) : ids = List.range labels.length := by
  have length : ids.length = labels.length := by simpa using congrArg List.length told
  refine List.ext_getElem (by rw [length, List.length_range]) fun place inside within => ?_
  rw [List.length_range] at within
  have here := congrArg (·[place]?) told
  simp only [List.getElem?_map, List.getElem?_eq_getElem inside, List.getElem?_eq_getElem within,
    Option.map_some, Option.some.injEq] at here
  rw [List.getElem_range]
  exact place_unique distinct here (List.getElem?_eq_getElem within)

/-! ## Links of a table -/

namespace Table

def typeNames (table : Table) : List String := table.types.map (·.name)

def methodKeys (table : Table) : List String := table.methods.map (·.key)

variable (table : Table)

/-- The type is the declared one, and its links lead to what the declaration names. -/
structure IsTypeOf (declared : DeclaredType) (type : TypeDef) : Prop where
  name : type.name = declared.name
  base : Refers table.typeNames declared.base.toList type.base.toList
  interfaces : Refers table.typeNames declared.interfaces type.interfaces
  members : type.members.map (table.methodKeys[·]?) = (Snapshot.keysOf declared).map some
  implementations : RefersPairwise table.methodKeys declared.implementations type.implementations

/-- The method is the declared one, and its links lead to what the declaration names. -/
structure IsMethodOf (declared : DeclaredType × DeclaredMethod) (method : Method) : Prop where
  key : method.key = Snapshot.keyOf declared
  owner : table.typeNames[method.owner]? = some declared.1.name
  overridden : Refers table.methodKeys declared.2.overrides.toList method.overridden.toList

/-- The node is the declared one. Only a call has a target. -/
structure IsNodeOf (declared : Tree) (node : Node) : Prop where
  kind : node.kind = declared.kind
  target : Refers table.methodKeys (if declared.kind = .invocation then declared.target.toList else [])
    node.target.toList

/-- The body is the declared one, node by node in document order. -/
structure IsBodyOf (declared : DeclaredBody) (body : Body) : Prop where
  owner : Refers table.methodKeys declared.owner.toList body.owner.toList
  nodes : List.Forall₂ table.IsNodeOf declared.root.nodes body.nodes

/-- Each method is listed once, and that in the type it belongs to. -/
def ListsMembersOnce : Prop :=
  ∀ id < table.methods.length, (table.types.flatMap (·.members)).count id = 1 ∧
    ∃ method type, table.method? id = some method ∧ table.type? method.owner = some type ∧ id ∈ type.members

end Table

/-- Types, methods and bodies are those declared, in the order of the declarations. -/
structure Snapshot.IsLinkedAs (snapshot : Snapshot) (compilation : Compilation) : Prop where
  distinct : compilation.table.typeNames.Nodup
  unique : compilation.table.methodKeys.Nodup
  types : List.Forall₂ compilation.table.IsTypeOf snapshot.types compilation.table.types
  methods : List.Forall₂ compilation.table.IsMethodOf snapshot.methods compilation.table.methods
  units : List.Forall₂ (fun declared unit => List.Forall₂ compilation.table.IsBodyOf declared.bodies unit.bodies)
    snapshot.units compilation.units

/-- Every id in the compilation is the id of a type or method of its table. -/
structure Compilation.IsClosed (compilation : Compilation) : Prop where
  table : compilation.table.IsClosed
  bodies : ∀ unit ∈ compilation.units, ∀ body ∈ unit.bodies, body.IsClosed compilation.table

/-- Whatever is looked up is there: the outcome is the same when every lookup has to succeed. -/
structure Compilation.FindsAll (compilation : Compilation) : Prop where
  allInterfaces : ∀ id < compilation.table.types.length,
    Strict.allInterfaces compilation.table id = some (compilation.table.allInterfaces id)
  resolve : ∀ id < compilation.table.types.length, ∀ member < compilation.table.methods.length,
    Strict.resolve compilation.table id member = some (compilation.table.resolve? id member)
  interfaceMembers : ∀ id < compilation.table.methods.length,
    Strict.interfaceMembers compilation.table id = some (compilation.table.interfaceMembers id)
  isMarked : ∀ id < compilation.table.methods.length,
    Strict.isMarked compilation.table id = some (compilation.table.isMarked id)
  report : ∀ unit ∈ compilation.units, ∀ body ∈ unit.bodies,
    Strict.ofBody body compilation.table = some (Report.ofBody? compilation.table body)

namespace Snapshot

variable {snapshot : Snapshot} {compilation : Compilation}

/-! ## Linking leads where the names say -/

private theorem typeNames_table (unique : snapshot.methodKeys.Nodup) :
    snapshot.table.typeNames = snapshot.typeNames := by
  rw [Table.typeNames, table_types unique, List.map_map]
  rfl

private theorem methodKeys_table (distinct : snapshot.typeNames.Nodup) :
    snapshot.table.methodKeys = snapshot.methodKeys := by
  rw [Table.methodKeys, table_methods distinct, List.map_map, methodKeys_eq]
  rfl

mutual

/-- The nodes of an arena stand for the nodes of a tree one by one, where each of them does so as a root. -/
theorem forall₂_flatten {table : Table} {resolve : String → Option MethodId}
    (each : ∀ parent id tree, table.IsNodeOf tree (Body.rootNode resolve parent id tree))
    (parent : Option NodeId) (id : NodeId) :
    (tree : Tree) → List.Forall₂ table.IsNodeOf tree.nodes (Body.flatten resolve parent id tree)
  | .node kind children constant target span => by
    rw [Body.flatten_eq, Tree.nodes]
    exact .cons (each parent id _) (forall₂_flattenAll each id (id + 1) children)

private theorem forall₂_flattenAll {table : Table} {resolve : String → Option MethodId}
    (each : ∀ parent id tree, table.IsNodeOf tree (Body.rootNode resolve parent id tree)) (parent id : NodeId) :
    (trees : List Tree) →
      List.Forall₂ table.IsNodeOf (Tree.nodesAll trees) (Body.flattenAll resolve parent id trees)
  | [] => .nil
  | tree :: rest => by
    rw [Body.flattenAll, Tree.nodesAll]
    exact List.rel_append (forall₂_flatten each (some parent) id tree)
      (forall₂_flattenAll each parent (id + tree.size) rest)

end

section

variable (distinct : snapshot.typeNames.Nodup) (unique : snapshot.methodKeys.Nodup)
include distinct unique

private theorem isTypeOf_namedType {declared : DeclaredType} (listed : declared ∈ snapshot.types) :
    snapshot.table.IsTypeOf declared (snapshot.namedType declared) where
  name := rfl
  base := typeNames_table unique ▸ refers_bind distinct declared.base
  interfaces := typeNames_table unique ▸ refers_filterMap distinct declared.interfaces
  members := by
    have told := refers_filterMap unique (keysOf declared)
    have all : (keysOf declared).filter (· ∈ snapshot.methodKeys) = keysOf declared := by
      refine List.filter_eq_self.mpr fun key owned => decide_eq_true ?_
      exact List.mem_flatMap.mpr ⟨declared, listed, owned⟩
    rw [Refers, all] at told
    rw [methodKeys_table distinct]
    exact told
  implementations := methodKeys_table distinct ▸ refersPairwise_filterMap unique declared.implementations

private theorem isMethodOf_namedMethod {declared : DeclaredType × DeclaredMethod}
    (listed : declared ∈ snapshot.methods) :
    snapshot.table.IsMethodOf declared (snapshot.namedMethod declared) where
  key := (keyOf_eq declared).symm
  owner := by
    obtain ⟨type, known, method⟩ := List.mem_flatMap.mp listed
    obtain ⟨_, _, rfl⟩ := List.mem_map.mp method
    rw [typeNames_table unique]
    exact List.getElem?_idxOf (List.mem_map_of_mem known)
  overridden := methodKeys_table distinct ▸ refers_bind unique declared.2.overrides

private theorem isNodeOf_rootNode (parent : Option NodeId) (id : NodeId) (tree : Tree) :
    snapshot.table.IsNodeOf tree (Body.rootNode snapshot.methodId? parent id tree) where
  kind := rfl
  target := by
    rw [Body.rootNode, methodKeys_table distinct]
    split
    · exact refers_bind unique tree.target
    · rfl

private theorem isBodyOf_linkBody (declared : DeclaredBody) :
    snapshot.table.IsBodyOf declared (snapshot.linkBody declared) where
  owner := methodKeys_table distinct ▸ refers_bind unique declared.owner
  nodes := forall₂_flatten (isNodeOf_rootNode distinct unique) none 0 declared.root

private theorem isLinkedAs_table :
    snapshot.IsLinkedAs ⟨snapshot.table, snapshot.units.map snapshot.linkUnit⟩ where
  distinct := typeNames_table unique ▸ distinct
  unique := methodKeys_table distinct ▸ unique
  types := by
    rw [table_types unique, List.forall₂_map_right_iff]
    exact List.forall₂_same.mpr fun declared listed => isTypeOf_namedType distinct unique listed
  methods := by
    rw [table_methods distinct, List.forall₂_map_right_iff]
    exact List.forall₂_same.mpr fun declared listed => isMethodOf_namedMethod distinct unique listed
  units := by
    rw [List.forall₂_map_right_iff]
    refine List.forall₂_same.mpr fun unit _ => ?_
    rw [linkUnit, List.forall₂_map_right_iff]
    exact List.forall₂_same.mpr fun declared _ => isBodyOf_linkBody distinct unique declared

end

private theorem isLinkedAs_of_link (linked : snapshot.link = .ok compilation) : snapshot.IsLinkedAs compilation := by
  have accepted := link_eq_ok_iff.mp ⟨compilation, linked⟩
  obtain ⟨distinct, unique, _⟩ := error?_eq_none_iff.mp accepted
  rw [link, accepted] at linked
  obtain rfl := Except.ok.inj linked
  exact isLinkedAs_table distinct unique

/-- Each body of a linked snapshot is a tree of nodes that is not empty. -/
theorem isTree_of_link (linked : snapshot.link = .ok compilation) {unit : SourceUnit}
    (listed : unit ∈ compilation.units) {body : Body} (member : body ∈ unit.bodies) :
    body.IsTree ∧ 0 < body.nodes.length := by
  rw [link, link_eq_ok_iff.mp ⟨compilation, linked⟩] at linked
  obtain rfl := Except.ok.inj linked
  obtain ⟨declared, _, rfl⟩ := List.mem_map.mp listed
  obtain ⟨source, _, rfl⟩ := List.mem_map.mp member
  refine ⟨(Body.isBuilt_ofTree _ _ _ _).isTree, ?_⟩
  rw [linkBody, Body.ofTree, Body.length_flatten, Tree.size_eq]
  omega

/-! ## What follows from the names -/

namespace IsLinkedAs

variable (known : snapshot.IsLinkedAs compilation)
include known

private theorem isClosed_table : compilation.table.IsClosed := by
  have types {id : TypeId} (inside : id < compilation.table.typeNames.length) :
      id < compilation.table.types.length := by
    rwa [Table.typeNames, List.length_map] at inside
  have methods {id : MethodId} (inside : id < compilation.table.methodKeys.length) :
      id < compilation.table.methods.length := by
    rwa [Table.methodKeys, List.length_map] at inside
  constructor
  · intro type listed id base
    obtain ⟨declared, _, named⟩ := exists_of_forall₂ known.types listed
    exact types (named.base.lt (Option.mem_toList.mpr base))
  · intro type listed id interface
    obtain ⟨declared, _, named⟩ := exists_of_forall₂ known.types listed
    exact types (named.interfaces.lt interface)
  · intro type listed id member
    obtain ⟨declared, _, named⟩ := exists_of_forall₂ known.types listed
    have told : compilation.table.methodKeys[id]? ∈ type.members.map (compilation.table.methodKeys[·]?) :=
      List.mem_map_of_mem member
    rw [named.members] at told
    obtain ⟨key, _, found⟩ := List.mem_map.mp told
    exact methods (List.getElem?_eq_some_iff.mp found.symm).1
  · intro type listed entry implemented
    obtain ⟨declared, _, named⟩ := exists_of_forall₂ known.types listed
    exact (named.implementations.lt implemented).imp methods methods
  · intro method listed
    obtain ⟨declared, _, named⟩ := exists_of_forall₂ known.methods listed
    exact types (List.getElem?_eq_some_iff.mp named.owner).1
  · intro method listed id overridden
    obtain ⟨declared, _, named⟩ := exists_of_forall₂ known.methods listed
    exact methods (named.overridden.lt (Option.mem_toList.mpr overridden))

private theorem map_members : (compilation.table.types.flatMap (·.members)).map (compilation.table.methodKeys[·]?) =
    compilation.table.methodKeys.map some := by
  have keys : compilation.table.methodKeys = snapshot.methodKeys := by
    rw [Table.methodKeys, methodKeys_eq_map_keyOf]
    exact (map_eq_of_forall₂ known.methods fun _ _ named => named.key.symm).symm
  have members : (compilation.table.types.map fun type => type.members.map (compilation.table.methodKeys[·]?)) =
      snapshot.types.map fun declared => (keysOf declared).map some :=
    (map_eq_of_forall₂ known.types fun _ _ named => named.members.symm).symm
  rw [List.map_flatMap, List.flatMap_def, members, keys, methodKeys, List.map_flatMap, List.flatMap_def]

private theorem listsMembersOnce : compilation.table.ListsMembersOnce := by
  intro id inside
  have numbered := eq_range_of_map_getElem? known.unique known.map_members
  rw [Table.methodKeys, List.length_map] at numbered
  refine ⟨by rw [numbered, List.count_eq_one_of_mem List.nodup_range (List.mem_range.mpr inside)], ?_⟩
  obtain ⟨method, listed, found⟩ := Table.exists_method? inside
  obtain ⟨declared, member, named⟩ := exists_of_forall₂ known.methods listed
  obtain ⟨declaring, declares, owned⟩ := List.mem_flatMap.mp member
  obtain ⟨source, sourced, rfl⟩ := List.mem_map.mp owned
  obtain ⟨place, placed⟩ := List.mem_iff_getElem?.mp declares
  obtain ⟨type, there, linked⟩ : ∃ type, compilation.table.types[place]? = some type ∧
      compilation.table.IsTypeOf declaring type := by
    rcases rel_cases (rel_getElem?_of_forall₂ known.types place) with ⟨absent, _⟩ | ⟨_, type, here, there, linked⟩
    · rw [absent] at placed
      contradiction
    · obtain rfl := Option.some.inj (placed.symm.trans here)
      exact ⟨type, there, linked⟩
  -- The owner of the method has the name of the type that declares it, so it is that type.
  have home : method.owner = place := by
    have name : compilation.table.typeNames[place]? = some declaring.name := by
      rw [Table.typeNames, List.getElem?_map, there, Option.map_some, linked.name]
    exact place_unique known.distinct named.owner name
  refine ⟨method, type, found, home ▸ there, ?_⟩
  have key : some method.key ∈ type.members.map (compilation.table.methodKeys[·]?) := by
    rw [linked.members, named.key, keyOf_eq]
    exact List.mem_map_of_mem (List.mem_map_of_mem sourced)
  obtain ⟨other, listed', same⟩ := List.mem_map.mp key
  have own : compilation.table.methodKeys[id]? = some method.key := by
    rw [Table.methodKeys, List.getElem?_map]
    exact congrArg (Option.map _) found
  rwa [place_unique known.unique own same]

end IsLinkedAs

private theorem isClosed_of_link (linked : snapshot.link = .ok compilation) : compilation.IsClosed := by
  have known := isLinkedAs_of_link linked
  refine ⟨known.isClosed_table, fun unit listed body member => ?_⟩
  have methods {id : MethodId} (inside : id < compilation.table.methodKeys.length) :
      id < compilation.table.methods.length := by
    rwa [Table.methodKeys, List.length_map] at inside
  obtain ⟨declaredUnit, _, bodies⟩ := exists_of_forall₂ known.units listed
  obtain ⟨declared, _, named⟩ := exists_of_forall₂ bodies member
  obtain ⟨tree, _⟩ := isTree_of_link linked listed member
  have placed {node : Node} (contained : node ∈ body.nodes) := List.mem_iff_getElem?.mp contained
  constructor
  · intro id owner
    exact methods (named.owner.lt (Option.mem_toList.mpr owner))
  · intro node contained id target
    obtain ⟨source, _, same⟩ := exists_of_forall₂ named.nodes contained
    exact methods (same.target.lt (Option.mem_toList.mpr target))
  · intro node contained id above
    obtain ⟨place, found⟩ := placed contained
    have link : body.parent? place = some id := by rw [Body.parent?, found, Option.bind_some, above]
    exact Nat.lt_trans (tree.parent_lt link) (Body.lt_of_parent? link)
  · intro node contained id below
    obtain ⟨place, found⟩ := placed contained
    have child : id ∈ body.children place := by rwa [Body.children, found]
    exact Body.lt_of_parent? (tree.mem_children.mp child)

private theorem findsAll_of_link (linked : snapshot.link = .ok compilation) : compilation.FindsAll := by
  obtain ⟨closed, bodies⟩ := isClosed_of_link linked
  constructor
  · intro id inside
    exact closed.strict_allInterfaces inside
  · intro id inside member within
    exact closed.strict_resolve? inside within
  · intro id inside
    exact closed.strict_interfaceMembers inside
  · intro id inside
    exact closed.strict_isMarked inside
  · intro unit listed body member
    obtain ⟨tree, inside⟩ := isTree_of_link linked listed member
    exact tree.strict_ofBody? (bodies unit listed body member) closed inside

/-- In a linked snapshot all links lead to what the declarations name and are in range, each method is a
member of its own type alone, and the analysis finds whatever it looks up. -/
theorem link_resolves_names {snapshot : Snapshot} {compilation : Compilation}
    (linked : snapshot.link = .ok compilation) :
    compilation.IsClosed ∧ compilation.table.ListsMembersOnce ∧ snapshot.IsLinkedAs compilation ∧
      compilation.FindsAll :=
  have known := isLinkedAs_of_link linked
  ⟨isClosed_of_link linked, known.listsMembersOnce, known, findsAll_of_link linked⟩

/-- A type that comes before its base and its interface, with an interface that is not declared. -/
def forwardSample : Snapshot where
  types := [
    { name := "C", base := some "B", interfaces := ["I", "J"],
      methods := [{ key := some "c", name := "Find", overrides := some "b" }],
      implementations := [("i", "c"), ("j", "c")] },
    { name := "B", methods := [{ key := some "b", name := "Find", overrides := some "a" }] },
    { name := "I", kind := .interfaceType,
      methods := [{ key := some "i", name := "Find", attributes := ["CanBeNull"] }] }]
  units := [{
    uri := "C.cs",
    bodies := [{
      owner := some "c",
      root := .node .block
        [.node .return [.node .invocation [] none (some "b") none] none none none,
          .node .return [.node .invocation [] none (some "a") none] none none none]
        none none none }] }]

theorem link_resolves_names_forwardSample :
    ∃ compilation, forwardSample.link = .ok compilation ∧
      compilation.table.types.map (fun type => (type.base, type.interfaces, type.members, type.implementations)) =
        [(some 1, [2], [0], [(2, 0)]), (none, [], [1], []), (none, [], [2], [])] ∧
      compilation.table.methods.map (fun method => (method.owner, method.overridden)) =
        [(0, some 1), (1, none), (2, none)] ∧
      compilation.units.map (fun unit => unit.bodies.map fun body => (body.owner, body.nodes.map (·.target))) =
        [[(some 0, [none, none, some 1, none, none])]] ∧
      compilation.IsClosed ∧ compilation.table.ListsMembersOnce ∧ forwardSample.IsLinkedAs compilation ∧
      compilation.FindsAll := by
  have linked : forwardSample.link =
      .ok ⟨forwardSample.table, forwardSample.units.map forwardSample.linkUnit⟩ := by
    rw [link, show forwardSample.error? = none by cbv]
  refine ⟨_, linked, ?_, ?_, ?_, link_resolves_names linked⟩
  · cbv
  · cbv
  · cbv

end Snapshot

end NullReturns
