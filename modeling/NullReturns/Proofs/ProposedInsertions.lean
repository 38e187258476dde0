import NullReturns.Proofs.AnalysisResults
import NullReturns.Proofs.MarkerLines

/-! # Insertions that an analysis proposes

A result proposes the marker of its method's name, if the name starts at a boundary of the unit's text.
Reading the insertions back from results gives these markers and nothing else, as long as offsets keep
their value as signed numbers.
-/

namespace NullReturns

/-- A marker is put into the text. -/
theorem Insertion.offset_le {text : String} {offset : Nat} {insertion : Insertion}
    (made : marker? text offset = some insertion) : insertion.offset ≤ text.utf8ByteSize := by
  obtain ⟨number, _, rfl⟩ := marker?_eq_some_iff.mp made
  have parts := congrArg List.flatten (List.take_append_drop number (Text.lines text.toList))
  rw [List.flatten_append, Text.flatten_lines] at parts
  rw [← Text.byteLength_toList, ← congrArg Text.byteLength parts, Text.byteLength_append]
  exact Nat.le_add_right _ _

namespace SourceUnit

variable {unit : SourceUnit} {table : Table} {report : Report} {insertion : Insertion}

/-- Where the names of the methods with reported bodies start. -/
def nameStarts (table : Table) (unit : SourceUnit) : List Nat :=
  unit.bodies.filterMap fun body => do
    let report ← Report.ofBody? table body
    let method ← table.method? report.method
    return (← method.nameSpan).start

theorem mem_nameStarts {offset : Nat} : offset ∈ unit.nameStarts table ↔
    ∃ body ∈ unit.bodies, ∃ report ∈ Report.ofBody? table body, ∃ span ∈ report.location, span.start = offset := by
  simp only [nameStarts, bind, List.mem_filterMap, Option.bind_eq_some_iff, Option.mem_def]
  constructor
  · rintro ⟨body, listed, report, found, method, known, span, named, start⟩
    refine ⟨body, listed, report, found, span, ?_, Option.some.inj start⟩
    rw [Report.location_eq found, known, Option.bind_some, named]
  · rintro ⟨body, listed, report, found, span, named, start⟩
    rw [Report.location_eq found] at named
    obtain ⟨method, known, named⟩ := Option.bind_eq_some_iff.mp named
    exact ⟨body, listed, report, found, method, known, span, named, congrArg some start⟩

theorem insertion?_eq_some_iff : unit.insertion? report = some insertion ↔
    ∃ text ∈ unit.text, ∃ span ∈ report.location, Insertion.marker? text span.start = some insertion := by
  simp only [insertion?, bind, Option.bind_eq_some_iff, Option.mem_def]

/-- The insertions that can be read back from a result are those that it was made with. -/
theorem insertions_result (short : ∀ text ∈ unit.text, text.utf8ByteSize < 2 ^ 63) (index : Nat) :
    (unit.result index table report).insertions =
      ((unit.insertion? report).map fun insertion => (unit.uri, insertion)).toList := by
  have fixable : Rule.isFixable report.rule.id = true := by cases report.rule <;> rfl
  cases made : unit.insertion? report with
  | none => simp [Sarif.Result.insertions, result, made]
  | some insertion =>
    obtain ⟨text, known, span, _, marked⟩ := insertion?_eq_some_iff.mp made
    have small : insertion.offset < 2 ^ 63 := Nat.lt_of_le_of_lt (Insertion.offset_le marked) (short text known)
    simp [Sarif.Result.insertions, result, Option.mem_def.mp known, made, fixable, Sarif.Fix.ofInsertion,
      Sarif.ArtifactChange.insertions, Sarif.Replacement.insertion?, Sarif.Region.at, Sarif.signed_of_lt small]

end SourceUnit

namespace Compilation

variable {compilation : Compilation}

/-- What the results of an analysis propose: the markers of all names, each for the unit's URI. -/
theorem mem_insertions (short : compilation.HasShortTexts) {uri : String} {insertion : Insertion} :
    (uri, insertion) ∈ compilation.analyzeAll.results.flatMap (·.insertions) ↔
      ∃ unit ∈ compilation.units, unit.uri = uri ∧ ∃ text ∈ unit.text,
        ∃ offset ∈ unit.nameStarts compilation.table, Insertion.marker? text offset = some insertion := by
  simp only [analyzeAll_eq, Sarif.Result.sort, List.mem_flatMap, List.mem_mergeSort, List.mem_filterMap]
  constructor
  · rintro ⟨_, ⟨⟨⟨unit, index⟩, body⟩, listed, found⟩, member⟩
    obtain ⟨report, reported, rfl⟩ := Option.map_eq_some_iff.mp found
    obtain ⟨placed, inside⟩ := (mem_sites compilation).mp listed
    have listed := List.mem_of_getElem? placed
    rw [SourceUnit.insertions_result (short unit listed), Option.mem_toList, Option.map_eq_some_iff] at member
    obtain ⟨_, made, same⟩ := member
    obtain ⟨rfl, rfl⟩ := Prod.mk.inj same
    obtain ⟨text, known, span, here, marked⟩ := SourceUnit.insertion?_eq_some_iff.mp made
    have starts := SourceUnit.mem_nameStarts.mpr ⟨body, inside, report, reported, span, here, rfl⟩
    exact ⟨unit, listed, rfl, text, known, span.start, starts, marked⟩
  · rintro ⟨unit, listed, rfl, text, known, _, starts, marked⟩
    obtain ⟨body, inside, report, reported, span, here, rfl⟩ := SourceUnit.mem_nameStarts.mp starts
    obtain ⟨index, placed⟩ := List.mem_iff_getElem?.mp listed
    refine ⟨unit.result index compilation.table report, ⟨((unit, index), body), ?_, ?_⟩, ?_⟩
    · exact (mem_sites compilation).mpr ⟨placed, inside⟩
    · rw [resultAt?, Option.mem_def.mp reported, Option.map_some]
    · have made := SourceUnit.insertion?_eq_some_iff.mpr ⟨text, known, span, here, marked⟩
      rw [SourceUnit.insertions_result (short unit listed), made, Option.map_some, Option.mem_toList]

end Compilation

end NullReturns
