import NullReturns.Analysis
import Mathlib.Algebra.Group.Nat.Defs
import Mathlib.Data.Option.Basic

/-! # Results of an analysis

An analysis that is never told to stop gives one result for each body that has a report.
-/

namespace NullReturns

theorem Sarif.signed_of_lt {n : Nat} (small : n < 2 ^ 63) : signed n = n := by
  have low : -((0x10000000000000000 : Nat) : Int) ≤ (n : Int) * 2 := by omega
  have high : (n : Int) * 2 < ((0x10000000000000000 : Nat) : Int) := by omega
  exact Int.bmod_eq_of_le_mul_two low high

/-- A report is placed where its method's name is. -/
theorem Report.location_eq {table : Table} {body : Body} {report : Report}
    (found : ofBody? table body = some report) :
    report.location = (table.method? report.method).bind (·.nameSpan) := by
  obtain ⟨statement, _, reported⟩ := List.exists_of_findSome?_eq_some found
  obtain ⟨method, _, broken⟩ := Option.bind_eq_some_iff.mp reported
  obtain ⟨rule, _, made⟩ := Option.bind_eq_some_iff.mp broken
  rw [← Option.some.inj made]

/-- The texts are so short that every offset into them is a signed 64-bit number. -/
def Compilation.HasShortTexts (compilation : Compilation) : Prop :=
  ∀ unit ∈ compilation.units, ∀ text ∈ unit.text, text.utf8ByteSize < 2 ^ 63

namespace Compilation

variable (compilation : Compilation)

theorem analyze_unstopped {m : Type → Type} [Monad m] [LawfulMonad m] :
    compilation.analyze (pure false) =
      (pure ⟨Rule.all, Sarif.Result.sort (compilation.sites.filterMap compilation.resultAt?), true⟩ :
        m Analysis) := by
  have visited : compilation.sites.mapM (fun site => pure (some (compilation.resultAt? site))) =
      (pure (compilation.sites.map fun site => some (compilation.resultAt? site)) : m _) := List.mapM_pure
  have joined : (Option.join ∘ fun site => some (compilation.resultAt? site)) = compilation.resultAt? := rfl
  simp only [analyze, pure_bind, Bool.false_eq_true, if_false, visited, List.filterMap_map, joined, List.all_map]
  congr 2
  exact List.all_eq_true.mpr fun _ _ => rfl

theorem analyzeAll_eq : compilation.analyzeAll =
    ⟨Rule.all, Sarif.Result.sort (compilation.sites.filterMap compilation.resultAt?), true⟩ :=
  @analyze_unstopped compilation Id _ _

theorem mem_sites {unit : SourceUnit} {index : Nat} {body : Body} :
    ((unit, index), body) ∈ compilation.sites ↔ compilation.units[index]? = some unit ∧ body ∈ unit.bodies := by
  simp only [sites, List.mem_flatMap, List.mem_map, Prod.mk.injEq, exists_eq_right_right,
    List.mk_mem_zipIdx_iff_getElem?]

end Compilation

end NullReturns
