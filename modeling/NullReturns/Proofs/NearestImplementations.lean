import NullReturns.Proofs.StrictLookups

/-! # Nearest implementations

What implements an interface member for a type is what the nearest type says that has anything to say about
the member, where the type itself comes first and then its base, the base of that one and so on. Explicit
implementations take precedence over methods of the same name and signature in one type, but not over those of
a nearer type. A cycle of bases neither keeps the search going nor hides a type from it.
-/

namespace NullReturns.Table

/-- The base of a type, if it has one that is known. -/
def base? (table : Table) (id : TypeId) : Option TypeId := (table.type? id).bind (·.base)

/-- The type that so many base links lead to. -/
def nthBase? (table : Table) (count : Nat) (id : TypeId) : Option TypeId := linkedAfter table.base? count id

/-- The method has the name and the signature of the member. -/
def Matches (table : Table) (member candidate : MethodId) : Prop :=
  ∃ declared method, table.method? member = some declared ∧ table.method? candidate = some method ∧
    method.name = declared.name ∧ method.signature = declared.signature

/-- The type has an explicit implementation of the member, or a method that matches it. -/
def HasImplementation (table : Table) (member : MethodId) (id : TypeId) : Prop :=
  ∃ type, table.type? id = some type ∧
    ((type.implementations.lookup member).isSome ∨ ∃ candidate ∈ type.members, table.Matches member candidate)

/-- The method is what implements the member as far as one type says: the explicit implementation if there
is one, and otherwise the first of the declared methods that match. -/
inductive ImplementsIn (table : Table) (member : MethodId) (id : TypeId) (method : MethodId) : Prop
  | explicit {type : TypeDef} (known : table.type? id = some type)
      (entry : type.implementations.lookup member = some method)
  | implicit {type : TypeDef} {before after : List MethodId} (known : table.type? id = some type)
      (noEntry : type.implementations.lookup member = none) (declared : type.members = before ++ method :: after)
      (matching : table.Matches member method) (first : ∀ earlier ∈ before, ¬ table.Matches member earlier)

/-- The fewest base links that lead from a type to one with an implementation of the member, and that one. -/
structure IsNearest (table : Table) (member : MethodId) (id : TypeId) (count : Nat) (base : TypeId) : Prop where
  reached : table.nthBase? count id = some base
  implemented : table.HasImplementation member base
  least : ∀ fewer < count, ∀ other, table.nthBase? fewer id = some other → ¬ table.HasImplementation member other

variable {table : Table} {id : TypeId} {member method : MethodId}

/-! ## One type -/

section

variable {target : Method} (known : table.method? member = some target)

include known

theorem matches_iff (candidate : MethodId) :
    table.Matches member candidate ↔ ((table.method? candidate).any fun method =>
      method.name == target.name && method.signature == target.signature) = true := by
  simp only [Matches, known, Option.any_eq_true, Bool.and_eq_true, beq_iff_eq]
  constructor
  · rintro ⟨_, method, ⟨⟩, found, same⟩
    exact ⟨method, found, same⟩
  · rintro ⟨method, found, same⟩
    exact ⟨target, method, rfl, found, same⟩

theorem implementationIn?_eq_some_iff :
    table.implementationIn? member id = some method ↔ table.ImplementsIn member id method := by
  simp only [implementationIn?, known, bind, Option.bind_some]
  constructor
  · intro said
    obtain ⟨type, found, said⟩ := Option.bind_eq_some_iff.mp said
    rcases Option.or_eq_some_iff.mp said with entry | ⟨noEntry, first⟩
    · exact .explicit found entry
    · obtain ⟨matching, before, after, parts, earlier⟩ := List.find?_eq_some_iff_append.mp first
      refine .implicit found noEntry parts ((matches_iff known method).mpr matching) ?_
      intro other listed same
      have differs := earlier other listed
      rw [(matches_iff known other).mp same] at differs
      exact absurd differs Bool.false_ne_true
  · rintro (⟨found, entry⟩ | ⟨found, noEntry, parts, matching, first⟩)
    · rw [found, Option.bind_some, entry, Option.some_or]
    · rw [found, Option.bind_some, noEntry, Option.none_or]
      refine List.find?_eq_some_iff_append.mpr ⟨(matches_iff known method).mp matching, _, _, parts, ?_⟩
      intro earlier listed
      rw [Bool.not_eq_true']
      exact Bool.eq_false_iff.mpr fun same => first earlier listed ((matches_iff known earlier).mpr same)

theorem implementationIn?_eq_none_iff :
    table.implementationIn? member id = none ↔ ¬ table.HasImplementation member id := by
  simp only [implementationIn?, known, bind, Option.bind_some, HasImplementation]
  cases table.type? id with
  | none => simp
  | some type =>
    simp only [Option.bind_some, Option.or_eq_none_iff, List.find?_eq_none, Option.some.injEq, exists_eq_left',
      not_or, Option.not_isSome_iff_eq_none, not_exists, not_and, matches_iff known]

end

/-! ## The chain of bases -/

private theorem lt_of_base? {base : TypeId} (link : table.base? id = some base) : id < table.types.length := by
  obtain ⟨type, found, _⟩ := Option.bind_eq_some_iff.mp link
  exact (List.getElem?_eq_some_iff.mp found).1

private theorem lt_of_implementationIn? (said : table.implementationIn? member id = some method) :
    id < table.types.length := by
  obtain ⟨_, _, said⟩ := Option.bind_eq_some_iff.mp said
  obtain ⟨type, found, _⟩ := Option.bind_eq_some_iff.mp said
  exact (List.getElem?_eq_some_iff.mp found).1

/-- The type that answers first is the nearest one with an implementation. -/
theorem answersFirst_iff {target : Method} (known : table.method? member = some target) {count : Nat} {base : TypeId} :
    AnswersFirst table.base? (table.implementationIn? member) id count base method ↔
      table.IsNearest member id count base ∧ table.ImplementsIn member base method := by
  constructor
  · rintro ⟨reached, answers, silent⟩
    refine ⟨⟨reached, ?_, ?_⟩, (implementationIn?_eq_some_iff known).mp answers⟩
    · by_contra absent
      rw [(implementationIn?_eq_none_iff known).mpr absent] at answers
      exact absurd answers (Option.some_ne_none method).symm
    · exact fun fewer less other led => (implementationIn?_eq_none_iff known).mp (silent fewer less other led)
  · rintro ⟨⟨reached, _, least⟩, implements⟩
    refine ⟨reached, (implementationIn?_eq_some_iff known).mpr implements, ?_⟩
    exact fun fewer less other led => (implementationIn?_eq_none_iff known).mpr (least fewer less other led)

/-- A member is implemented by what the nearest type with an implementation says, and it is not implemented
exactly when no type that bases lead to has an implementation. Where all ids of the table are in range, the
search is over after as many steps as the table has types, whatever cycles the bases form. -/
theorem resolve_nearest (table : Table) (id : TypeId) {member : MethodId} (known : member < table.methods.length) :
    (∀ method, table.resolve? id member = some method ↔
      ∃ count base, table.IsNearest member id count base ∧ table.ImplementsIn member base method) ∧
    (table.resolve? id member = none ↔
      ∀ base, Relation.ReflTransGen (Links table.base?) id base → ¬ table.HasImplementation member base) ∧
    (table.IsClosed → id < table.types.length →
      Strict.resolve table id member = some (table.resolve? id member)) := by
  obtain ⟨target, _, found⟩ := exists_method? known
  refine ⟨fun method => ?_, ?_, fun closed inside => closed.strict_resolve? inside known⟩
  · rw [resolve?, baseChain]
    refine (findSome?_follow_eq_some_iff lt_of_base? lt_of_implementationIn?).trans ?_
    exact exists₂_congr fun count base => answersFirst_iff found
  · rw [resolve?, baseChain]
    refine (findSome?_follow_eq_none_iff lt_of_base? lt_of_implementationIn?).trans ?_
    exact forall₂_congr fun base _ => implementationIn?_eq_none_iff found

/-- A class `A` whose bases `B` and `C` are bases of each other. `A` has a method of another signature than the
member `I.Get(int)`, `B` has nothing, and `C` has both a method that matches it and an explicit implementation. -/
def mutualBases : Table where
  types := [
    { name := "I", kind := .interfaceType, members := [0] },
    { name := "A", kind := .classType, base := some 2, interfaces := [0], members := [1] },
    { name := "B", kind := .classType, base := some 3 },
    { name := "C", kind := .classType, base := some 2, members := [2, 3], implementations := [(0, 3)] }]
  methods := [
    { key := "I.Get(int)", name := "Get", signature := "(int)", owner := 0, returns := .reference "object" },
    { key := "A.Get()", name := "Get", signature := "()", owner := 1, returns := .reference "object" },
    { key := "C.Get(int)", name := "Get", signature := "(int)", owner := 3, returns := .reference "object" },
    { key := "C.I.Get(int)", name := "I.Get", signature := "(int)", owner := 3, returns := .reference "object" }]

theorem resolve_mutualBases :
    mutualBases.nthBase? 3 1 = some 2 ∧ mutualBases.IsNearest 0 1 2 3 ∧ mutualBases.resolve? 1 0 = some 3 := by
  have nearest : mutualBases.IsNearest 0 1 2 3 := by
    refine ⟨rfl, ⟨_, rfl, .inl rfl⟩, ?_⟩
    intro fewer less other led
    rw [← implementationIn?_eq_none_iff (show mutualBases.method? 0 = some _ from rfl)]
    obtain rfl | rfl : fewer = 0 ∨ fewer = 1 := by omega
    · obtain rfl := Option.some.inj led
      decide
    · obtain rfl := Option.some.inj led
      decide
  have known : 0 < mutualBases.methods.length := by decide
  exact ⟨rfl, nearest, ((resolve_nearest mutualBases 1 known).1 3).mpr ⟨2, 3, nearest, .explicit rfl rfl⟩⟩

end NullReturns.Table
