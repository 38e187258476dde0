import NullReturns.Proofs.DeclaredReport
import NullReturns.Proofs.Marking
import NullReturns.Proofs.NearestImplementations

/-! # Markers of implemented interface members

The members that a method may implement are looked up by name, and what implements a member is looked up
first among the explicit implementations, which may join methods of any names. The marker of a member
reaches the method that implements it where the two have one name: always when no explicit implementation
joins them, and otherwise only if the joined names are the same.
-/

namespace NullReturns

namespace Table

variable {table : Table} {id member : MethodId}

/-- The method is what implements the member, which an interface of its type declares. -/
def Implements (table : Table) (id member : MethodId) : Prop :=
  ∃ method interface type, table.method? id = some method ∧ interface ∈ table.allInterfaces method.owner ∧
    table.type? interface = some type ∧ member ∈ type.members ∧ table.resolve? method.owner member = some id

/-- The type of the method, or one of its bases, has an explicit implementation of the member by the
method. -/
def ImplementsExplicitly (table : Table) (id member : MethodId) : Prop :=
  ∃ method type, table.method? id = some method ∧
    ∃ base ∈ table.baseChain method.owner, table.type? base = some type ∧
      type.implementations.lookup member = some id

def HasNameOf (table : Table) (id member : MethodId) : Prop :=
  (table.method? id).map (·.name) = (table.method? member).map (·.name)

/-- What a type says itself about a member is an explicit implementation or a method of the same name. -/
theorem implementationIn?_cases {owner : TypeId} (said : table.implementationIn? member owner = some id) :
    (∃ type, table.type? owner = some type ∧ type.implementations.lookup member = some id) ∨
      table.HasNameOf id member := by
  obtain ⟨declared, target, _⟩ := Option.bind_eq_some_iff.mp said
  rcases (implementationIn?_eq_some_iff target).mp said with ⟨known, explicit⟩ | ⟨_, _, _, matching, _⟩
  · exact .inl ⟨_, known, explicit⟩
  · obtain ⟨_, _, target, found, name, _⟩ := matching
    right
    rw [HasNameOf, found, target, Option.map_some, Option.map_some, name]

namespace Implements

private theorem explicitly_or_hasNameOf (implements : table.Implements id member) :
    table.ImplementsExplicitly id member ∨ table.HasNameOf id member := by
  obtain ⟨method, _, _, found, _, _, _, resolved⟩ := implements
  obtain ⟨base, above, said⟩ := List.exists_of_findSome?_eq_some resolved
  rcases implementationIn?_cases said with ⟨type, known, explicit⟩ | named
  · exact .inl ⟨method, type, found, base, above, known, explicit⟩
  · exact .inr named

/-- A member that a method implements is looked at only if it has the method's name. -/
theorem mem_interfaceMembers_iff (implements : table.Implements id member) :
    member ∈ table.interfaceMembers id ↔ table.HasNameOf id member := by
  obtain ⟨method, interface, type, found, reached, known, listed, _⟩ := implements
  rw [mem_interfaceMembers found, HasNameOf, found, Option.map_some, eq_comm, Option.map_eq_some_iff]
  constructor
  · rintro ⟨_, _, declared, _, _, _, target, name⟩
    exact ⟨declared, target, name⟩
  · rintro ⟨declared, target, name⟩
    exact ⟨interface, type, declared, reached, known, listed, target, name⟩

theorem isMarkedByInterface (implements : table.Implements id member) (named : table.HasNameOf id member)
    (marker : table.hasMarker member = true) : table.isMarkedByInterface id = true := by
  have looked := implements.mem_interfaceMembers_iff.mpr named
  obtain ⟨method, _, _, found, _, _, _, resolved⟩ := implements
  rw [Table.isMarkedByInterface, found, Option.any_some]
  refine List.any_eq_true.mpr ⟨member, looked, ?_⟩
  rw [resolved, marker, beq_self_eq_true, Bool.and_self]

end Implements

end Table

private theorem Report.ofBody?_of_isMarked {table : Table} {body : Body} {id : MethodId} (owned : body.owner = some id)
    (marked : table.isMarked id = true) : ofBody? table body = none := by
  have nobody : owner? table body = none := by
    simp only [owner?, owned, marked, Bool.not_true, Bool.and_false, Bool.false_eq_true, if_false, bind,
      Option.bind_some, Option.bind_fun_none, ite_self]
  rw [ofBody?_eq, nobody, Option.bind_none]

namespace Table

variable {table : Table} {id member : MethodId}

/-- A method that implements a marked member counts as marked, and no body of it is reported, unless an
explicit implementation joins it to the member under another name. -/
theorem isMarked_of_implements (implements : table.Implements id member) (marker : table.hasMarker member = true)
    (joined : table.ImplementsExplicitly id member → table.HasNameOf id member) :
    table.isMarked id = true ∧ ∀ body : Body, body.owner = some id → Report.ofBody? table body = none := by
  have named : table.HasNameOf id member := implements.explicitly_or_hasNameOf.elim joined fun named => named
  have marked : table.isMarked id = true :=
    isMarked_of_marks (.inr (implements.isMarkedByInterface named marker))
  exact ⟨marked, fun _ owned => Report.ofBody?_of_isMarked owned marked⟩

/-- A marked member `I.Get`, and a method of the given name that implements it explicitly. -/
def joinedAs (name : String) : Table where
  types := [
    { name := "I", kind := .interfaceType, members := [0] },
    { name := "C", kind := .classType, interfaces := [0], members := [1], implementations := [(0, 1)] }]
  methods := [
    { key := "I.Get()", name := "Get", signature := "()", owner := 0, returns := .reference "object"
      attributes := ["CanBeNull"] },
    { key := "C." ++ name ++ "()", name, signature := "()", owner := 1, returns := .reference "object" }]

/-- The body `{ return null; }` of that method. -/
def joinedBody : Body :=
  .ofTree .method (some 1) (fun _ => none)
    (.node .block [.node .return [.node .literal [] (some .null) none none] none none none] none none none)

private theorem allInterfaces_joinedAs (name : String) : (joinedAs name).allInterfaces 1 = [0] := by
  have links : (joinedAs name).links 0 = [] := rfl
  change (explore (joinedAs name).links [0] [0]).filter (joinedAs name).isInterface = [0]
  rw [explore, if_pos (List.mem_singleton_self 0), links, List.append_nil, explore]
  rfl

private theorem baseChain_joinedAs (name : String) : (joinedAs name).baseChain 1 = [1] := by
  rw [baseChain, follow]
  rfl

private theorem implements_joinedAs (name : String) : (joinedAs name).Implements 1 0 := by
  have resolved : (joinedAs name).resolve? 1 0 = some 1 := by
    rw [resolve?, baseChain_joinedAs]
    rfl
  refine ⟨_, 0, _, rfl, ?_, rfl, List.mem_singleton_self 0, resolved⟩
  exact allInterfaces_joinedAs name ▸ List.mem_singleton_self 0

theorem isMarked_joinedAs_get :
    (joinedAs "Get").ImplementsExplicitly 1 0 ∧ (joinedAs "Get").isMarked 1 = true ∧
      Report.ofBody? (joinedAs "Get") joinedBody = none := by
  have explicit : (joinedAs "Get").ImplementsExplicitly 1 0 :=
    ⟨_, _, rfl, 1, baseChain_joinedAs "Get" ▸ List.mem_singleton_self 1, rfl, rfl⟩
  obtain ⟨marked, unreported⟩ := isMarked_of_implements (implements_joinedAs "Get") rfl fun _ => rfl
  exact ⟨explicit, marked, unreported joinedBody rfl⟩

/-- Under the name that explicit implementations have, the marker of the member does not count. -/
theorem isMarked_joinedAs_qualified :
    (joinedAs "I.Get").Implements 1 0 ∧ (joinedAs "I.Get").hasMarker 0 = true ∧
      (joinedAs "I.Get").isMarked 1 = false ∧
      Report.ofBody? (joinedAs "I.Get") joinedBody = some ⟨.nullValue, 1, none⟩ := by
  have overrides : (joinedAs "I.Get").overrideChain 1 = [1] := by
    rw [overrideChain, follow]
    rfl
  have members : (joinedAs "I.Get").interfaceMembers 1 = [] := by
    change ((joinedAs "I.Get").allInterfaces 1).flatMap _ = []
    rw [allInterfaces_joinedAs]
    rfl
  have unmarked : (joinedAs "I.Get").isMarked 1 = false := by
    rw [isMarked, overrides, List.any_cons, isMarkedByInterface, members]
    rfl
  have owner : Report.owner? (joinedAs "I.Get") joinedBody = some 1 := by
    change (if (true && !(joinedAs "I.Get").isMarked 1) = true then some 1 else none) = some 1
    rw [unmarked]
    rfl
  refine ⟨implements_joinedAs "I.Get", rfl, unmarked, ?_⟩
  rw [Report.ofBody?_eq, owner]
  cbv

end Table

end NullReturns
