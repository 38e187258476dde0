import Mathlib.Data.Option.Basic
import NullReturns.Finding
import NullReturns.Proofs.Renumbering

/-! # Added attributes

An attribute that is added to a method can only make more methods count as marked. On the owner of a
body, or on a method that the owner overrides or implements, it takes a report away; on the target of a
call it brings one about. Nothing else changes: a new report is for a call to a method that has gained
the marker, and a report is gone only where the owner has come to count as marked.
-/

namespace NullReturns

/-! ## Tables with more attributes -/

/-- The same method with at least its attributes. -/
def Method.Gains (old new : Method) : Prop :=
  ∃ attributes, old.attributes ⊆ attributes ∧ new = { old with attributes }

namespace Table

/-- The same table with attributes added to some of its methods. -/
structure Gains (old new : Table) : Prop where
  types : new.types = old.types
  methods : List.Forall₂ Method.Gains old.methods new.methods

variable {old new : Table}

/-- Every type and method keeps its number. -/
def Gains.renumbering (gains : old.Gains new) : old.Renumbering new where
  types := Equiv.refl TypeId
  methods := Equiv.refl MethodId
  type? id := by
    have known : new.type? id = old.type? id := by rw [type?, type?, gains.types]
    rw [Equiv.refl_apply, known]
    cases old.type? id with
    | none => exact .none
    | some type =>
      refine .some ⟨rfl, rfl, ?_, ?_, ?_, ?_⟩
      · exact Option.map_id'.symm
      · exact .of_eq (List.map_id' type.interfaces).symm
      · exact (List.map_id' type.members).symm
      · exact (List.map_id' type.implementations).symm
  method? id := by
    refine rel_getElem?_of_forall₂ (gains.methods.imp ?_) id
    rintro method _ ⟨attributes, kept, rfl⟩
    exact ⟨rfl, rfl, rfl, rfl, rfl, Option.map_id'.symm, kept, rfl⟩

theorem Gains.hasMarker (gains : old.Gains new) {id : MethodId} (marker : old.hasMarker id = true) :
    new.hasMarker id = true :=
  gains.renumbering.hasMarker marker

theorem Gains.isMarked (gains : old.Gains new) {id : MethodId} (marked : old.isMarked id = true) :
    new.isMarked id = true :=
  gains.renumbering.isMarked marked

theorem Gains.canHoldNull (gains : old.Gains new) {id : MethodId} :
    (new.method? id).any (·.canHoldNull) = (old.method? id).any (·.canHoldNull) :=
  gains.renumbering.canHoldNull id

end Table

/-! ## Reports of single statements -/

namespace Body

theorem yieldsMarkedCall_iff {body : Body} {table : Table} {statement : NodeId} :
    body.yieldsMarkedCall table statement = true ↔
      ∃ call target, body.firstCall? statement = some (call, some target) ∧
        ((body.parent? call).bind body.kind?).any (·.guardsCall) = false ∧ table.hasMarker target = true := by
  rw [yieldsMarkedCall]
  rcases body.firstCall? statement with _ | ⟨call, _ | target⟩
  · simp only [Bool.false_eq_true, reduceCtorEq, false_and, exists_false]
  · simp only [Option.any_none, Bool.and_false, Bool.false_eq_true, Option.some.injEq, Prod.mk.injEq, reduceCtorEq,
      and_false, false_and, exists_false]
  · simp only [Option.any_some, Bool.and_eq_true, Bool.not_eq_true', Option.some.injEq, Prod.mk.injEq]
    constructor
    · rintro ⟨unused, marker⟩
      exact ⟨call, target, ⟨rfl, rfl⟩, unused, marker⟩
    · rintro ⟨_, _, ⟨rfl, rfl⟩, unused, marker⟩
      exact ⟨unused, marker⟩

end Body

namespace Report

variable {table old new : Table} {body : Body} {statement : NodeId}

theorem subject?_eq_some_iff {id : MethodId} :
    subject? table body statement = some id ↔
      body.kind = .method ∧ body.isNested statement = false ∧ body.owner = some id ∧
        (table.method? id).any (·.canHoldNull) = true ∧ table.isMarked id = false := by
  simp only [subject?, guard, bind, Option.bind_eq_some_iff]
  constructor
  · rintro ⟨_, passed, owner, owned, method, known, holds⟩
    split_ifs at passed with kind
    split_ifs at holds with null
    obtain rfl := Option.some.inj holds
    rw [Bool.and_eq_true, Bool.not_eq_true'] at null
    exact ⟨kind.1, kind.2, owned, by rw [known, Option.any_some, null.1], null.2⟩
  · rintro ⟨kind, outside, owned, null, unmarked⟩
    obtain ⟨method, known, null⟩ := (Option.any_eq_true _ _).mp null
    refine ⟨(), if_pos ⟨kind, outside⟩, id, owned, method, known, ?_⟩
    rw [null, unmarked]
    rfl

theorem rule?_eq_none_iff :
    rule? table body statement = none ↔
      body.yieldsNull statement = false ∧ body.yieldsMarkedCall table statement = false := by
  rw [rule?]
  cases body.yieldsNull statement <;> cases body.yieldsMarkedCall table statement <;> decide

theorem ofStatement?_parts {report : Report} (reported : ofStatement? table body statement = some report) :
    subject? table body statement = some report.method ∧ rule? table body statement = some report.rule := by
  obtain ⟨method, subject, rest⟩ := Option.bind_eq_some_iff.mp reported
  obtain ⟨rule, broken, made⟩ := Option.bind_eq_some_iff.mp rest
  obtain rfl := Option.some.inj made
  exact ⟨subject, broken⟩

/-- A statement that is not reported breaks no rule, unless there is no method to report. -/
theorem rule?_of_silent {id : MethodId} (silent : ofStatement? table body statement = none)
    (subject : subject? table body statement = some id) : rule? table body statement = none := by
  simpa only [ofStatement?, subject, bind, Option.bind_some, pure, Option.bind_eq_none_iff, reduceCtorEq,
    imp_false, ← Option.eq_none_iff_forall_ne_some] using silent

/-! ## Two tables -/

/-- No method becomes a subject of reports by gaining attributes. -/
theorem subject?_of_gains (gains : old.Gains new) {id : MethodId} (subject : subject? new body statement = some id) :
    subject? old body statement = some id := by
  obtain ⟨kind, outside, owned, null, unmarked⟩ := subject?_eq_some_iff.mp subject
  refine subject?_eq_some_iff.mpr ⟨kind, outside, owned, gains.canHoldNull ▸ null, ?_⟩
  exact Bool.eq_false_iff.mpr fun marked => Bool.eq_false_iff.mp unmarked (gains.isMarked marked)

/-- A statement goes on breaking rules. -/
theorem rule?_of_gains (gains : old.Gains new) (unbroken : rule? new body statement = none) :
    rule? old body statement = none := by
  obtain ⟨null, call⟩ := rule?_eq_none_iff.mp unbroken
  refine rule?_eq_none_iff.mpr ⟨null, Bool.eq_false_iff.mpr fun yields => ?_⟩
  obtain ⟨place, target, first, unused, marker⟩ := Body.yieldsMarkedCall_iff.mp yields
  exact Bool.eq_false_iff.mp call
    (Body.yieldsMarkedCall_iff.mpr ⟨place, target, first, unused, gains.hasMarker marker⟩)

/-- What a statement breaks newly is the rule on marked calls, and for a call whose target has gained the
marker. -/
theorem rule?_gained {rule : Rule} (before : rule? old body statement = none)
    (after : rule? new body statement = some rule) :
    rule = .markedCall ∧ ∃ call target, body.firstCall? statement = some (call, some target) ∧
      new.hasMarker target = true ∧ old.hasMarker target = false := by
  obtain ⟨null, call⟩ := rule?_eq_none_iff.mp before
  rw [rule?, null, if_neg Bool.false_ne_true] at after
  split_ifs at after with yields
  obtain ⟨place, target, first, unused, marker⟩ := Body.yieldsMarkedCall_iff.mp yields
  refine ⟨(Option.some.inj after).symm, place, target, first, marker, ?_⟩
  exact Bool.eq_false_iff.mpr fun marker' => Bool.eq_false_iff.mp call
    (Body.yieldsMarkedCall_iff.mpr ⟨place, target, first, unused, marker'⟩)

/-! ## Reports of bodies -/

/-- Attributes that are added to methods keep what counts as marked. They bring about only reports of
calls to methods that have gained the marker, and take away only reports of methods that have come to
count as marked. -/
theorem ofBody_of_gains (gains : old.Gains new) (body : Body) :
    (∀ id, old.isMarked id = true → new.isMarked id = true) ∧
    (∀ report, ofBody? old body = none → ofBody? new body = some report →
      report.rule = .markedCall ∧ ∃ statement ∈ body.returns, body.isNested statement = false ∧
        ∃ call target, body.firstCall? statement = some (call, some target) ∧
          new.hasMarker target = true ∧ old.hasMarker target = false) ∧
    (∀ report, ofBody? old body = some report → ofBody? new body = none →
      ∃ owner, body.owner = some owner ∧ new.isMarked owner = true ∧ old.isMarked owner = false) := by
  refine ⟨fun id => gains.isMarked, ?_, ?_⟩
  · intro report before after
    obtain ⟨statement, listed, reported⟩ := List.exists_of_findSome?_eq_some after
    have silent := List.findSome?_eq_none_iff.mp before statement listed
    obtain ⟨subject, broken⟩ := ofStatement?_parts reported
    have kept := rule?_of_silent silent (subject?_of_gains gains subject)
    obtain ⟨rule, call⟩ := rule?_gained kept broken
    exact ⟨rule, statement, listed, (subject?_eq_some_iff.mp subject).2.1, call⟩
  · intro report before after
    obtain ⟨statement, listed, reported⟩ := List.exists_of_findSome?_eq_some before
    have silent := List.findSome?_eq_none_iff.mp after statement listed
    obtain ⟨subject, broken⟩ := ofStatement?_parts reported
    obtain ⟨kind, outside, owned, null, unmarked⟩ := subject?_eq_some_iff.mp subject
    refine ⟨report.method, owned, ?_, unmarked⟩
    by_contra other
    have subject' : subject? new body statement = some report.method :=
      subject?_eq_some_iff.mpr ⟨kind, outside, owned, gains.canHoldNull ▸ null, Bool.eq_false_iff.mpr other⟩
    have unbroken := rule?_of_gains gains (rule?_of_silent silent subject')
    exact Option.some_ne_none _ (broken.symm.trans unbroken)

/-- A method that returns what another one returns, each with the given attributes. -/
def delegation (caller callee : List String) : Table where
  types := [⟨"T", .classType, none, [], [0, 1], []⟩]
  methods :=
    [⟨"T.Get()", "Get", "()", 0, .reference "object", false, none, caller, none⟩,
      ⟨"T.Find()", "Find", "()", 0, .reference "object", false, none, callee, none⟩]

/-- The body of the first method. -/
def delegatingBody : Body :=
  .ofTree .method (some 0) (fun _ => some 1)
    (.node .block [.node .return [.node .invocation [] none (some "T.Find()") none] none none none] none none none)

/-- The marker on the callee brings a report about, and the marker on the caller takes it away. -/
theorem ofBody_delegation :
    (delegation [] []).Gains (delegation [] ["CanBeNull"]) ∧
    (delegation [] ["CanBeNull"]).Gains (delegation ["Pure", "CanBeNull"] ["CanBeNull"]) ∧
    ofBody? (delegation [] []) delegatingBody = none ∧
    ofBody? (delegation [] ["CanBeNull"]) delegatingBody = some ⟨.markedCall, 0, none⟩ ∧
    ofBody? (delegation ["Pure", "CanBeNull"] ["CanBeNull"]) delegatingBody = none ∧
    (∃ statement ∈ delegatingBody.returns, delegatingBody.isNested statement = false ∧
      ∃ call target, delegatingBody.firstCall? statement = some (call, some target) ∧
        (delegation [] ["CanBeNull"]).hasMarker target = true ∧ (delegation [] []).hasMarker target = false) ∧
    ∃ owner, delegatingBody.owner = some owner ∧
      (delegation ["Pure", "CanBeNull"] ["CanBeNull"]).isMarked owner = true ∧
      (delegation [] ["CanBeNull"]).isMarked owner = false := by
  have callee : (delegation [] []).Gains (delegation [] ["CanBeNull"]) :=
    ⟨rfl, .cons ⟨[], List.Subset.refl [], rfl⟩ (.cons ⟨["CanBeNull"], List.nil_subset _, rfl⟩ .nil)⟩
  have caller : (delegation [] ["CanBeNull"]).Gains (delegation ["Pure", "CanBeNull"] ["CanBeNull"]) :=
    ⟨rfl, .cons ⟨_, List.nil_subset _, rfl⟩ (.cons ⟨_, List.Subset.refl _, rfl⟩ .nil)⟩
  have silent : ofBody? (delegation [] []) delegatingBody = none := by cbv
  have reported : ofBody? (delegation [] ["CanBeNull"]) delegatingBody = some ⟨.markedCall, 0, none⟩ := by cbv
  have fixed : ofBody? (delegation ["Pure", "CanBeNull"] ["CanBeNull"]) delegatingBody = none := by cbv
  have gained := (ofBody_of_gains callee delegatingBody).2.1 _ silent reported
  have lost := (ofBody_of_gains caller delegatingBody).2.2 _ reported fixed
  exact ⟨callee, caller, silent, reported, fixed, gained.2, lost⟩

end Report

end NullReturns
