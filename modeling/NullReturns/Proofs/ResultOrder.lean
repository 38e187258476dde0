import NullReturns.Proofs.AnalysisResults
import NullReturns.Proofs.ByteOrder
import NullReturns.Proofs.Lines
import NullReturns.Sarif.Document
import Mathlib.Data.List.Nodup
import Mathlib.Data.List.Perm.Subperm
import Mathlib.Data.Prod.Lex

/-! # The order of results

An analysis gives its results in the order of their keys, and results with one key in the order of the
bodies they are for. Each result leads to the artifact of its unit.
-/

namespace NullReturns

/-! ## Stable sorting -/

section

variable {α : Type} {le : α → α → Bool} {list : List α}

/-- Elements that are all alike stay in their order. -/
theorem filter_mergeSort (transitive : ∀ a b c, le a b → le b c → le a c) (total : ∀ a b, le a b || le b a)
    {p : α → Bool} (alike : ∀ a b, p a → p b → le a b) : (list.mergeSort le).filter p = list.filter p := by
  have ordered : (list.filter p).Pairwise fun a b => le a b = true := by
    refine List.pairwise_of_forall_mem_list ?_
    intro a here b there
    exact alike a b (List.mem_filter.mp here).2 (List.mem_filter.mp there).2
  have kept := (List.sublist_mergeSort transitive total ordered List.filter_sublist).filter p
  rw [List.filter_filter, funext fun a => Bool.and_self (p a)] at kept
  exact (kept.eq_of_length ((List.mergeSort_perm list le).filter p).length_eq.symm).symm

/-- Sorting keeps the order of elements that compare both ways. -/
theorem pairwise_mergeSort_stable (transitive : ∀ a b c, le a b → le b c → le a c)
    (total : ∀ a b, le a b || le b a) {before : α → α → Prop} (ordered : list.Pairwise before) :
    (list.mergeSort le).Pairwise fun a b => le a b ∧ (le b a → before a b) := by
  rw [List.pairwise_iff_forall_sublist]
  intro a b pair
  have sorted : le a b = true :=
    List.pairwise_iff_forall_sublist.mp (List.pairwise_mergeSort transitive total list) pair
  refine ⟨sorted, fun back => ?_⟩
  have self : le a a = true := by simpa using total a a
  have alike (c d : α) (like : (le a c && le c a) = true) (like' : (le a d && le d a) = true) : le c d = true := by
    rw [Bool.and_eq_true] at like like'
    exact transitive c a d like.2 like'.1
  have whole : [a, b].filter (fun c => le a c && le c a) = [a, b] := by simp [self, sorted, back]
  have kept := pair.filter fun c => le a c && le c a
  rw [whole, filter_mergeSort transitive total alike] at kept
  exact List.pairwise_iff_forall_sublist.mp ordered (kept.trans List.filter_sublist)

private theorem zipIdx_pairwise (list : List α) : list.zipIdx.Pairwise fun left right => left.2 < right.2 := by
  rw [← List.pairwise_map, List.zipIdx_map_snd]
  exact List.pairwise_lt_range'

/-- Sorting a part of a list gives a part of the sorted list. -/
theorem mergeSort_sublist (transitive : ∀ a b c, le a b → le b c → le a c) (total : ∀ a b, le a b || le b a)
    {part : List α} (sub : part.Sublist list) : (part.mergeSort le).Sublist (list.mergeSort le) := by
  -- With their places, elements that compare both ways are still told apart.
  rw [← List.zipIdx_map_fst 0 list] at sub ⊢
  obtain ⟨placed, kept, rfl⟩ := List.sublist_map_iff.mp sub
  have sorted (list : List (α × Nat)) :
      (list.mergeSort fun a b => le a.1 b.1).map (·.1) = (list.map (·.1)).mergeSort le :=
    List.map_mergeSort fun _ _ _ _ => rfl
  have stable {list : List (α × Nat)} (places : list.Pairwise fun a b => a.2 < b.2) :
      (list.mergeSort fun a b => le a.1 b.1).Pairwise fun a b => le a.1 b.1 ∧ (le b.1 a.1 → a.2 < b.2) :=
    pairwise_mergeSort_stable (fun a b c => transitive a.1 b.1 c.1) (fun a b => total a.1 b.1) places
  have whole := stable (zipIdx_pairwise list)
  obtain ⟨chosen, same, within⟩ : (placed.mergeSort fun a b => le a.1 b.1).Subperm
      (list.zipIdx.mergeSort fun a b => le a.1 b.1) :=
    (List.mergeSort_perm placed _).subperm.trans
      (kept.subperm.trans (List.mergeSort_perm list.zipIdx _).symm.subperm)
  have equal : chosen = placed.mergeSort fun a b => le a.1 b.1 := by
    refine same.eq_of_pairwise ?_ (whole.sublist within) (stable ((zipIdx_pairwise list).sublist kept))
    intro a b _ _ there back
    exact absurd (there.2 back.1) (Nat.lt_asymm (back.2 there.1))
  rw [← sorted, ← sorted, ← equal]
  exact within.map _

end

/-! ## Keys of results -/

namespace Sarif.Result

/-- What results are sorted by: the bytes of the rule id and of the URI, the byte offset or -1, and the
bytes of the message. -/
def key (result : Result) : List UInt8 ×ₗ List UInt8 ×ₗ Int ×ₗ List UInt8 :=
  toLex (Text.utf8 (result.ruleId.getD ""), toLex (Text.utf8 (result.uri?.getD ""),
    toLex (result.byteOffset?.getD (-1), Text.utf8 (result.message.getD ""))))

variable {left right : Result}

theorem order_eq_lt_iff : left.order right = .lt ↔ left.key < right.key := by
  simp only [order, Ordering.then_eq_lt, compare_lt_iff_lt, compare_eq_iff_eq, key, Prod.Lex.lt_iff, ofLex_toLex,
    Text.utf8_lt_iff, Text.utf8_inj]

theorem order_eq_eq_iff : left.order right = .eq ↔ left.key = right.key := by
  simp only [order, Ordering.then_eq_eq, compare_eq_iff_eq, key, toLex_inj, Prod.mk.injEq, Text.utf8_inj]

theorem order_isLE_iff : (left.order right).isLE = true ↔ left.key < right.key ∨ left.key = right.key := by
  rw [Ordering.isLE_iff_eq_lt_or_eq_eq, order_eq_lt_iff, order_eq_eq_iff]

private theorem order_eq : order = compareLex (compareOn fun result => result.ruleId.getD "")
    (compareLex (compareOn fun result => result.uri?.getD "")
      (compareLex (compareOn fun result => result.byteOffset?.getD (-1))
        (compareOn fun result => result.message.getD ""))) := rfl

instance : Std.TransCmp order := by
  rw [order_eq]
  infer_instance

theorem order_isLE_total (left right : Result) : (left.order right).isLE || (right.order left).isLE := by
  have swapped : right.order left = (left.order right).swap := Std.OrientedCmp.eq_swap
  rw [swapped]
  cases left.order right <;> rfl

private theorem key_lt_asymm (less : left.key < right.key) : ¬right.key < left.key := by
  rw [← order_eq_lt_iff] at less ⊢
  exact Std.OrientedCmp.not_lt_of_lt less

end Sarif.Result

/-! ## Results with their places -/

namespace Compilation

variable (compilation : Compilation)

/-- The results of all bodies that have one, each with the index of the unit and that of the body. -/
def placedResults : List ((Nat × Nat) × Sarif.Result) :=
  compilation.units.zipIdx.flatMap fun (unit, i) => unit.bodies.zipIdx.filterMap fun (body, j) =>
    (compilation.resultAt? ((unit, i), body)).map fun result => ((i, j), result)

private theorem map_placedResults :
    compilation.placedResults.map (·.2) = compilation.sites.filterMap compilation.resultAt? := by
  rw [placedResults, sites, List.map_flatMap, List.filterMap_flatMap]
  refine List.flatMap_congr fun unit _ => ?_
  have bodies : unit.1.bodies = unit.1.bodies.zipIdx.map (·.1) := (List.zipIdx_map_fst 0 _).symm
  rw [List.filterMap_map]
  conv_rhs => rw [bodies, List.filterMap_map]
  rw [List.map_filterMap]
  refine List.filterMap_congr fun body _ => ?_
  simp only [Option.map_map, Function.comp_def, Option.map_id']

theorem mem_placedResults {i j : Nat} {result : Sarif.Result} :
    ((i, j), result) ∈ compilation.placedResults ↔
      ∃ unit body report, compilation.units[i]? = some unit ∧ unit.bodies[j]? = some body ∧
        Report.ofBody? compilation.table body = some report ∧ result = unit.result i compilation.table report := by
  simp only [placedResults, List.mem_flatMap, List.mem_filterMap, resultAt?, Option.map_eq_some_iff, Prod.mk.injEq]
  constructor
  · rintro ⟨⟨unit, _⟩, placed, ⟨body, _⟩, placed', _, ⟨report, found, made⟩, ⟨rfl, rfl⟩, rfl⟩
    rw [List.mk_mem_zipIdx_iff_getElem?] at placed placed'
    exact ⟨unit, body, report, placed, placed', found, made.symm⟩
  · rintro ⟨unit, body, report, placed, placed', found, rfl⟩
    rw [← List.mk_mem_zipIdx_iff_getElem?] at placed placed'
    exact ⟨(unit, i), placed, (body, j), placed', _, ⟨report, found, rfl⟩, ⟨rfl, rfl⟩, rfl⟩

private theorem placedResults_pairwise :
    compilation.placedResults.Pairwise fun left right => toLex left.1 < toLex right.1 := by
  rw [placedResults, List.pairwise_flatMap]
  refine ⟨?_, ?_⟩
  · rintro ⟨unit, i⟩ _
    refine List.pairwise_filterMap.mpr ((zipIdx_pairwise _).imp ?_)
    rintro ⟨body, j⟩ ⟨body', j'⟩ less _ found _ found'
    obtain ⟨_, _, rfl⟩ := Option.map_eq_some_iff.mp found
    obtain ⟨_, _, rfl⟩ := Option.map_eq_some_iff.mp found'
    exact Prod.Lex.lt_iff.mpr (.inr ⟨rfl, less⟩)
  · refine (zipIdx_pairwise _).imp ?_
    rintro ⟨unit, i⟩ ⟨unit', i'⟩ less left here right there
    obtain ⟨_, _, found⟩ := List.mem_filterMap.mp here
    obtain ⟨_, _, found'⟩ := List.mem_filterMap.mp there
    obtain ⟨_, _, rfl⟩ := Option.map_eq_some_iff.mp found
    obtain ⟨_, _, rfl⟩ := Option.map_eq_some_iff.mp found'
    exact Prod.Lex.lt_iff.mpr (.inl less)

private theorem nodup_placedResults : (compilation.placedResults.map (·.1)).Nodup :=
  List.pairwise_map.mpr (compilation.placedResults_pairwise.imp fun less equal =>
    ne_of_lt less (congrArg toLex equal))

/-- The results with their places, in the order of the analysis. -/
def orderedResults : List ((Nat × Nat) × Sarif.Result) :=
  compilation.placedResults.mergeSort fun left right => (left.2.order right.2).isLE

private theorem results_eq_orderedResults : compilation.analyzeAll.results = compilation.orderedResults.map (·.2) := by
  have sorted : compilation.orderedResults.map (·.2) = Sarif.Result.sort (compilation.placedResults.map (·.2)) :=
    List.map_mergeSort fun _ _ _ _ => rfl
  rw [sorted, map_placedResults, analyzeAll_eq]

private theorem orderedResults_pairwise : compilation.orderedResults.Pairwise fun left right =>
    left.2.key < right.2.key ∨ left.2.key = right.2.key ∧ toLex left.1 < toLex right.1 := by
  refine (pairwise_mergeSort_stable ?_ ?_ compilation.placedResults_pairwise).imp ?_
  · intro a b c first second
    exact Std.TransCmp.isLE_trans first second
  · exact fun a b => Sarif.Result.order_isLE_total a.2 b.2
  · rintro left right ⟨sorted, stable⟩
    rcases Sarif.Result.order_isLE_iff.mp sorted with less | same
    · exact .inl less
    · exact .inr ⟨same, stable (Sarif.Result.order_isLE_iff.mpr (.inr same.symm))⟩

/-- The results of a compilation with their places: one for each body with a report, in the order of keys
and then of places, and each with the artifact of its unit. -/
structure IsReporting (placed : List ((Nat × Nat) × Sarif.Result)) : Prop where
  once : (placed.map (·.1)).Nodup
  complete : ∀ {i j result}, ((i, j), result) ∈ placed ↔
    ∃ unit body report, compilation.units[i]? = some unit ∧ unit.bodies[j]? = some body ∧
      Report.ofBody? compilation.table body = some report ∧ result = unit.result i compilation.table report
  sorted : placed.Pairwise fun left right =>
    left.2.key < right.2.key ∨ left.2.key = right.2.key ∧ toLex left.1 < toLex right.1
  located : ∀ {i j result}, ((i, j), result) ∈ placed → ∃ location artifact,
    result.locations = [location] ∧ location.artifact = ⟨some (i : Int), some artifact.uri⟩ ∧
      compilation.artifacts[i]? = some artifact ∧
        ∀ unit ∈ compilation.units[i]?, ∀ text ∈ unit.text, artifact.length = some (text.utf8ByteSize : Int)

/-- A result leads to the artifact of the unit that it was made for. -/
theorem artifact_of_unit (short : compilation.HasShortTexts) {unit : SourceUnit} {i : Nat}
    (placed : compilation.units[i]? = some unit) :
    compilation.artifacts[i]? = some unit.artifact ∧
      ∀ text ∈ unit.text, unit.artifact.length = some (text.utf8ByteSize : Int) := by
  refine ⟨by rw [artifacts, List.getElem?_map, placed, Option.map_some], ?_⟩
  intro text known
  have small := short unit (List.mem_of_getElem? placed) text known
  rw [SourceUnit.artifact, Option.mem_def.mp known, Option.map_some, Text.byteLength_toList,
    Sarif.signed_of_lt small]

/-- The results have one order only. -/
theorem IsReporting.eq_of_perm {compilation : Compilation} {placed listed : List ((Nat × Nat) × Sarif.Result)}
    (reporting : compilation.IsReporting placed) (same : listed.Perm compilation.placedResults)
    (sorted : listed.Pairwise fun left right =>
      left.2.key < right.2.key ∨ left.2.key = right.2.key ∧ toLex left.1 < toLex right.1) :
    placed = listed := by
  have whole : placed.Perm compilation.placedResults := by
    rw [List.perm_ext_iff_of_nodup (.of_map _ reporting.once) (.of_map _ compilation.nodup_placedResults)]
    rintro ⟨⟨i, j⟩, result⟩
    rw [reporting.complete, mem_placedResults]
  refine (whole.trans same.symm).eq_of_pairwise ?_ reporting.sorted sorted
  rintro left right _ _ (less | ⟨equal, less⟩) (more | ⟨equal, more⟩)
  · exact absurd more (Sarif.Result.key_lt_asymm less)
  · exact absurd (equal ▸ less) (Sarif.Result.key_lt_asymm less)
  · exact absurd (equal ▸ more) (Sarif.Result.key_lt_asymm more)
  · exact absurd more (lt_asymm less)

/-- Two reports with one key, and a third that is sorted before them. -/
def threeReports : Compilation where
  table := ⟨[], [⟨"T.Find", "Find", "()", 0, .reference "T", false, none, [], some ⟨8, 12⟩⟩]⟩
  units := [⟨"b.cs", some "class T", [body, body]⟩, ⟨"a.cs", none, [body]⟩]
where
  body : Body :=
    .ofTree .method (some 0) (fun _ => none)
      (.node .block [.node .return [.node .literal [] (some .null) none none] none none none] none none none)

end Compilation

end NullReturns
