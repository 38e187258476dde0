import NullReturns.Proofs.Chain
import NullReturns.Symbol.Resolution

/-! # Which methods count as marked

A method counts as marked exactly when some method that override links lead to from it, itself included,
carries the marker or implements an interface member that does. Cycles of overrides neither hide such
a method nor make the search longer than the table.
-/

namespace NullReturns.Table

/-- The method implements a member of an interface of its type under the member's name, and the member
carries the marker. -/
def ImplementsMarked (table : Table) (id : MethodId) : Prop :=
  ∃ method interface type member declared,
    table.method? id = some method ∧ interface ∈ table.allInterfaces method.owner ∧
      table.type? interface = some type ∧ member ∈ type.members ∧ table.method? member = some declared ∧
        declared.name = method.name ∧ table.resolve? method.owner member = some id ∧
          table.hasMarker member = true

theorem mem_interfaceMembers {table : Table} {id member : MethodId} {method : Method}
    (found : table.method? id = some method) :
    member ∈ table.interfaceMembers id ↔
      ∃ interface type declared, interface ∈ table.allInterfaces method.owner ∧
        table.type? interface = some type ∧ member ∈ type.members ∧ table.method? member = some declared ∧
          declared.name = method.name := by
  simp only [interfaceMembers, found, List.mem_flatMap, List.mem_filter]
  constructor
  · rintro ⟨interface, reached, listed, named⟩
    cases known : table.type? interface with
    | none => simp only [known, Option.elim_none, List.not_mem_nil] at listed
    | some type =>
      obtain ⟨declared, same, name⟩ := (Option.any_eq_true _ _).mp named
      rw [known, Option.elim_some] at listed
      exact ⟨interface, type, declared, reached, known, listed, same, beq_iff_eq.mp name⟩
  · rintro ⟨interface, type, declared, reached, known, listed, same, name⟩
    refine ⟨interface, reached, ?_, ?_⟩
    · simpa only [known, Option.elim_some] using listed
    · simp only [same, Option.any_some, name, beq_self_eq_true]

theorem isMarkedByInterface_iff (table : Table) (id : MethodId) :
    table.isMarkedByInterface id = true ↔ table.ImplementsMarked id := by
  cases found : table.method? id with
  | none => simp [isMarkedByInterface, ImplementsMarked, found]
  | some method =>
    simp only [isMarkedByInterface, ImplementsMarked, found, Option.any_some, List.any_eq_true, Bool.and_eq_true,
      beq_iff_eq, mem_interfaceMembers found]
    constructor
    · rintro ⟨member, ⟨interface, type, declared, reached, known, listed, same, name⟩, resolved, marker⟩
      exact ⟨method, interface, type, member, declared, rfl, reached, known, listed, same, name, resolved, marker⟩
    · rintro ⟨other, interface, type, member, declared, self, reached, known, listed, same, name, resolved, marker⟩
      obtain rfl : method = other := Option.some.inj self
      exact ⟨member, ⟨interface, type, declared, reached, known, listed, same, name⟩, resolved, marker⟩

/-- Only methods of the table override anything. -/
theorem lt_of_overridden? {table : Table} {id target : MethodId} (step : table.overridden? id = some target) :
    id < table.methods.length := by
  obtain ⟨method, found, _⟩ := Option.bind_eq_some_iff.mp step
  exact (List.getElem?_eq_some_iff.mp found).1

theorem mem_overrideChain_iff (table : Table) (id ancestor : MethodId) :
    ancestor ∈ table.overrideChain id ↔
      Relation.ReflTransGen (Links table.overridden?) id ancestor ∧ ancestor < table.methods.length :=
  mem_follow_iff lt_of_overridden?

/-- Only methods of the table carry the marker or implement anything. -/
theorem lt_of_marks {table : Table} {id : MethodId}
    (marks : table.hasMarker id = true ∨ table.isMarkedByInterface id = true) : id < table.methods.length := by
  have known : (table.method? id).isSome := by
    rcases marks with own | implemented
    · exact Option.isSome_of_any own
    · exact Option.isSome_of_any implemented
  obtain ⟨method, found⟩ := Option.isSome_iff_exists.mp known
  exact (List.getElem?_eq_some_iff.mp found).1

theorem isMarked_of_marks {table : Table} {id : MethodId}
    (marks : table.hasMarker id = true ∨ table.isMarkedByInterface id = true) : table.isMarked id = true :=
  List.any_eq_true.mpr ⟨id, mem_follow_self (List.mem_range.mpr (lt_of_marks marks)), Bool.or_eq_true_iff.mpr marks⟩

/-- A method counts as marked exactly when override links lead from it to a method with the marker, or
to one that implements a member with the marker. The links are followed through cycles to every method
they lead to, and to each of them once. -/
theorem isMarked_iff_reachable (table : Table) (id : MethodId) :
    (table.isMarked id = true ↔
      ∃ ancestor, Relation.ReflTransGen (Links table.overridden?) id ancestor ∧
        (table.hasMarker ancestor = true ∨ table.ImplementsMarked ancestor)) ∧
    (table.overrideChain id).Nodup ∧
    ∀ ancestor, ancestor ∈ table.overrideChain id ↔
      Relation.ReflTransGen (Links table.overridden?) id ancestor ∧ ancestor < table.methods.length := by
  refine ⟨?_, nodup_follow List.nodup_range, table.mem_overrideChain_iff id⟩
  simp only [isMarked, List.any_eq_true, Bool.or_eq_true, ← isMarkedByInterface_iff]
  constructor
  · rintro ⟨ancestor, member, marks⟩
    exact ⟨ancestor, ((table.mem_overrideChain_iff id ancestor).mp member).1, marks⟩
  · rintro ⟨ancestor, path, marks⟩
    exact ⟨ancestor, (table.mem_overrideChain_iff id ancestor).mpr ⟨path, lt_of_marks marks⟩, marks⟩

end NullReturns.Table
