import NullReturns.Proofs.ResultOrder

/-! # An analysis that is told to stop

Whatever the answers to the questions whether to stop, what an analysis gives is a part of what it would
have given without them, in the same order, and it says whether a body was skipped.
-/

namespace NullReturns

/-- Answers each question by its number, and counts the questions. -/
def scripted (answers : Nat → Bool) : StateM Nat Bool := fun asked => (answers asked, asked + 1)

private theorem Sarif.Result.sort_sublist {part results : List Sarif.Result} (sub : part.Sublist results) :
    (sort part).Sublist (sort results) :=
  mergeSort_sublist (fun _ _ _ => Std.TransCmp.isLE_trans) order_isLE_total sub

/-! ## Visits -/

section

variable {α β : Type} (answers : Nat → Bool) (look : α → Option β) (sites : List α) (asked : Nat)

/-- What is seen of a site, by the answer to its question. -/
def visit (site : α × Nat) : Option (Option β) :=
  if answers site.2 then none else some (look site.1)

private theorem run_mapM_scripted :
    StateT.run (m := Id) (sites.mapM fun site => do
      return if ← scripted answers then none else some (look site)) asked =
      ((sites.zipIdx asked).map (visit answers look), asked + sites.length) := by
  induction sites generalizing asked with
  | nil => rfl
  | cons site sites ih =>
    have first : (scripted answers).run asked = (pure (answers asked, asked + 1) : Id _) := rfl
    have rest := ih (asked + 1)
    rw [Nat.add_assoc, Nat.add_comm 1] at rest
    simp only [List.mapM_cons, StateT.run_bind, first, StateT.run_pure, pure_bind, rest]
    rfl

/-- Only the sites whose question was answered with no are seen. -/
theorem filterMap_visit : ((sites.zipIdx asked).map (visit answers look)).filterMap Option.join =
    ((sites.zipIdx asked).filter fun site => !answers site.2).filterMap fun site => look site.1 := by
  rw [List.filterMap_map, List.filterMap_filter]
  refine List.filterMap_congr fun site _ => ?_
  rw [Function.comp_apply, visit]
  cases answers site.2 <;> rfl

private theorem all_visit : ((sites.zipIdx asked).map (visit answers look)).all Option.isSome =
    (sites.zipIdx asked).all fun site => !answers site.2 := by
  rw [List.all_map]
  refine List.all_congr rfl fun site => ?_
  rw [Function.comp_apply, visit]
  cases answers site.2 <;> rfl

variable {answers sites asked}

theorem all_zipIdx_eq_false_iff : ((sites.zipIdx asked).all fun site => !answers site.2) = false ↔
    ∃ question, asked ≤ question ∧ question < asked + sites.length ∧ answers question = true := by
  rw [List.all_eq_false]
  constructor
  · rintro ⟨⟨site, question⟩, placed, told⟩
    obtain ⟨low, high, _⟩ := List.mem_zipIdx placed
    exact ⟨question, low, high, by simpa using told⟩
  · rintro ⟨question, low, high, told⟩
    have inside : question - asked < sites.length := by omega
    refine ⟨(sites[question - asked], question), ?_, by simp [told]⟩
    exact List.mk_mem_zipIdx_iff_le_and_getElem?_sub.mpr ⟨low, List.getElem?_eq_getElem inside⟩

private theorem filterMap_zipIdx : (sites.zipIdx asked).filterMap (fun site => look site.1) = sites.filterMap look := by
  conv_rhs => rw [← List.zipIdx_map_fst asked sites, List.filterMap_map]
  rfl

end

/-! ## The stopped analysis -/

namespace Compilation

variable (compilation : Compilation) {answers : Nat → Bool}

/-- The analysis for given answers, with the number of questions that it asked. The first question comes
before any work, the others before one body each. -/
def analyzeBy (answers : Nat → Bool) : Analysis × Nat :=
  (compilation.analyze (scripted answers)).run 0

private theorem length_sites : compilation.sites.length = compilation.bodyCount := by
  have units : compilation.units = compilation.units.zipIdx.map (·.1) := (List.zipIdx_map_fst 0 _).symm
  rw [bodyCount]
  conv_rhs => rw [units, List.flatMap_map]
  simp only [sites, List.length_flatMap, List.length_map]

private theorem analyzeBy_of_stopped (stopped : answers 0 = true) :
    compilation.analyzeBy answers = (⟨Rule.all, [], false⟩, 1) := by
  have first : (scripted answers).run 0 = (pure (true, 1) : Id _) := by rw [← stopped]; rfl
  simp only [analyzeBy, analyze, StateT.run_bind, first, pure_bind, if_true]
  rfl

private theorem analyzeBy_of_started (started : answers 0 = false) :
    compilation.analyzeBy answers =
      (⟨Rule.all,
        Sarif.Result.sort (((compilation.sites.zipIdx 1).filter fun site => !answers site.2).filterMap
          fun site => compilation.resultAt? site.1),
        (compilation.sites.zipIdx 1).all fun site => !answers site.2⟩, 1 + compilation.bodyCount) := by
  have first : (scripted answers).run 0 = (pure (false, 1) : Id _) := by rw [← started]; rfl
  rw [← filterMap_visit, ← all_visit answers compilation.resultAt?, ← length_sites]
  simp only [analyzeBy, analyze, StateT.run_bind, first, pure_bind, Bool.false_eq_true, if_false, run_mapM_scripted]
  rfl

/-- A body whose own question is answered with no is looked at, whatever the other answers. -/
theorem mem_analyzeBy {index : Nat} {site : (SourceUnit × Nat) × Body} {result : Sarif.Result}
    (started : answers 0 = false) (placed : compilation.sites[index]? = some site)
    (allowed : answers (index + 1) = false) (found : compilation.resultAt? site = some result) :
    result ∈ (compilation.analyzeBy answers).1.results := by
  rw [compilation.analyzeBy_of_started started, Sarif.Result.sort, List.mem_mergeSort]
  refine List.mem_filterMap.mpr ⟨(site, index + 1), List.mem_filter.mpr ⟨?_, ?_⟩, found⟩
  · exact List.mk_mem_zipIdx_iff_le_and_getElem?_sub.mpr ⟨Nat.le_add_left 1 index, placed⟩
  · rw [allowed, Bool.not_false]

/-- An analysis gives a part of all results in their order, and all of them unless it was told to stop. It
leaves out no result but those of bodies that it was told to skip. -/
theorem analyzeBy_isPart (answers : Nat → Bool) :
    ∃ analysis asked, compilation.analyzeBy answers = (analysis, asked) ∧
      asked = (if answers 0 then 1 else 1 + compilation.bodyCount) ∧
      analysis.results.Sublist compilation.analyzeAll.results ∧
      (∀ index site result, answers 0 = false → compilation.sites[index]? = some site →
        answers (index + 1) = false → compilation.resultAt? site = some result → result ∈ analysis.results) ∧
      (analysis.isComplete = false ↔ ∃ question < asked, answers question = true) ∧
      (analysis.isComplete = true → analysis.results = compilation.analyzeAll.results) ∧
      analysis.rules = Rule.all ∧ compilation.analyzeAll.rules = Rule.all := by
  rw [analyzeAll_eq]
  cases start : answers 0 with
  | true =>
    refine ⟨_, _, compilation.analyzeBy_of_stopped start, rfl, List.nil_sublist _, ?_, ?_, ?_, rfl, rfl⟩
    · exact fun _ _ _ started => absurd started.symm Bool.false_ne_true
    · exact iff_of_true rfl ⟨0, Nat.one_pos, start⟩
    · exact fun complete => absurd complete Bool.false_ne_true
  | false =>
    refine ⟨_, _, compilation.analyzeBy_of_started start, rfl, Sarif.Result.sort_sublist ?_, ?_, ?_, ?_, rfl, rfl⟩
    · rw [← filterMap_zipIdx compilation.resultAt?]
      exact List.filter_sublist.filterMap _
    · intro index site result _ placed allowed found
      have seen := compilation.mem_analyzeBy start placed allowed found
      rwa [compilation.analyzeBy_of_started start] at seen
    · rw [← length_sites, all_zipIdx_eq_false_iff]
      constructor
      · rintro ⟨question, _, high, told⟩
        exact ⟨question, high, told⟩
      · rintro ⟨question, high, told⟩
        refine ⟨question, ?_, high, told⟩
        rcases question with _ | question
        · exact absurd told (by simp [start])
        · omega
    · intro complete
      rw [List.filter_eq_self.mpr (List.all_eq_true.mp complete), filterMap_zipIdx]

end Compilation

end NullReturns
