import NullReturns.Proofs.AnalysisResults
import NullReturns.Proofs.ByteOrder
import NullReturns.Proofs.Grouping
import NullReturns.Proofs.Weaving

/-! # Insertions carried by fixes

An insertion that was written as a fix can be read back from the results that carry the fix, as long as its
offset keeps its value as a signed number. A fix gives the place of its insertion twice, in bytes and in
characters. Both lead to the same edited text, whatever characters stand before the place.
-/

namespace NullReturns

/-! ## Bytes and characters -/

namespace Text

/-- A list with another one put in at a place. -/
def putAt {α : Type} (list added : List α) (place : Nat) : List α := list.take place ++ added ++ list.drop place

private theorem putAt_length {α : Type} (before after added : List α) :
    putAt (before ++ after) added before.length = before ++ added ++ after := by
  rw [putAt, List.take_left, List.drop_left]

/-- Where a text is cut, characters are put between its characters as their bytes are put between its bytes. -/
theorem utf8_putAt {text : String} {before after : List Char} (cut : text.toList = before ++ after) (added : String) :
    utf8 (String.ofList (putAt text.toList added.toList before.length)) =
      putAt (utf8 text) (utf8 added) (byteLength before) := by
  rw [utf8_eq, String.toList_ofList, utf8_eq, utf8_eq, cut, putAt_length, bytes_append, bytes_append, bytes_append,
    ← length_bytes before, putAt_length]

end Text

namespace Sarif

theorem signed_lt_zero_iff {n : Nat} (bounded : n < 2 ^ 64) : signed n < 0 ↔ 2 ^ 63 ≤ n := by
  have low : -((0x10000000000000000 : Nat) : Int) ≤ n := by omega
  have high : (n : Int) < ((0x10000000000000000 : Nat) : Int) := by omega
  refine (Int.bmod_neg_iff low high).trans ?_
  omega

/-! ## Proposals -/

namespace Replacement

variable {region : Region} {offset : Nat} {place : Int} {text : String}

private theorem insertion?_of_nonneg (placed : region.byteOffset = some (offset : Int)) :
    insertion? ⟨region, some text⟩ = some ⟨offset, text⟩ := by
  simp [insertion?, placed]

private theorem insertion?_of_negative (placed : region.byteOffset = some place) (negative : place < 0) :
    insertion? ⟨region, some text⟩ = none := by
  simp [insertion?, placed, negative]

end Replacement

private theorem ArtifactChange.insertions_singleton (uri : String) (replacement : Replacement) :
    insertions { artifact := { uri }, replacements := [replacement] } =
      (replacement.insertion?.map fun insertion => (uri, insertion)).toList := by
  simp only [insertions, List.filterMap_cons, List.filterMap_nil]
  cases replacement.insertion? <;> rfl

/-- An insertion into the text of a document. Texts have fewer than 2 ^ 63 bytes, and offsets have 64 bits. -/
structure Proposal where
  uri : String
  text : String
  insertion : Insertion
  short : text.utf8ByteSize < 2 ^ 63
  bounded : insertion.offset < 2 ^ 64

namespace Proposal

variable (proposal : Proposal)

def fix : Fix := Fix.ofInsertion proposal.uri proposal.text proposal.insertion

/-- An insertion is read back from its fix, unless its offset has become negative. -/
theorem insertions_fix : proposal.fix.changes.flatMap (·.insertions) =
    if proposal.insertion.offset < 2 ^ 63 then [(proposal.uri, proposal.insertion)] else [] := by
  have single := ArtifactChange.insertions_singleton proposal.uri
    ⟨Region.at proposal.text proposal.insertion.offset, some proposal.insertion.text⟩
  refine (List.flatMap_singleton _ _).trans (single.trans ?_)
  split_ifs with small
  · have placed : (Region.at proposal.text proposal.insertion.offset).byteOffset = some _ := rfl
    rw [signed_of_lt small] at placed
    rw [Replacement.insertion?_of_nonneg placed]
    rfl
  · have negative := (signed_lt_zero_iff proposal.bounded).mpr (Nat.le_of_not_lt small)
    rw [Replacement.insertion?_of_negative rfl negative]
    rfl

/-- The insertions for a URI whose offsets keep their value as signed numbers, in their order. -/
def signedFor (proposals : List Proposal) (uri : String) : List Insertion :=
  (proposals.filter fun proposal => proposal.insertion.offset < 2 ^ 63 && proposal.uri == uri).map (·.insertion)

private theorem forUri_fixes (proposals : List Proposal) (uri : String) :
    forUri (proposals.flatMap fun proposal => proposal.fix.changes.flatMap (·.insertions)) uri =
      signedFor proposals uri := by
  induction proposals with
  | nil => rfl
  | cons first rest ih =>
    rw [forUri, signedFor] at ih
    rw [List.flatMap_cons, insertions_fix, forUri, signedFor, List.filter_append, List.map_append, ih, List.filter_cons]
    split_ifs <;> grind

end Proposal

/-- The result has the fixes of these proposals, or it has no part in them: it names no rule or a rule that has
no fixes. -/
inductive Result.Carries : Result → List Proposal → Prop
  | own {result : Result} {proposals : List Proposal} (fixable : result.ruleId.any Rule.isFixable = true)
    (fixes : result.fixes = proposals.map (·.fix)) : Carries result proposals
  | foreign {result : Result} (other : result.ruleId.any Rule.isFixable = false) : Carries result []

private theorem Result.Carries.insertions_eq {result : Result} {proposals : List Proposal}
    (carries : result.Carries proposals) :
    result.insertions = proposals.flatMap fun proposal => proposal.fix.changes.flatMap (·.insertions) := by
  cases carries with
  | own fixable fixes => rw [insertions, if_pos fixable, fixes, List.flatMap_map]
  | foreign other => rw [insertions, if_neg (Bool.eq_false_iff.mp other), List.flatMap_nil]

/-! ## The place of an insertion -/

/-- The two places that a fix gives for its insertion lead to the same text. -/
structure Proposal.Locates (proposal : Proposal) (region : Region) : Prop where
  changes : proposal.fix.changes =
    [{ artifact := { uri := some proposal.uri }, replacements := [⟨region, some proposal.insertion.text⟩] }]
  empty : region.byteLength = some 0
  negative : ∃ offset ∈ region.byteOffset, offset < 0 ↔ 2 ^ 63 ≤ proposal.insertion.offset
  within : Text.isBoundary proposal.text.toList proposal.insertion.offset = true → ∃ chars bytes : Nat,
    region.charOffset = some (chars : Int) ∧ region.charLength = some 0 ∧ region.byteOffset = some (bytes : Int) ∧
      let edited := String.ofList (Text.putAt proposal.text.toList proposal.insertion.text.toList chars)
      Text.utf8 edited = Text.putAt (Text.utf8 proposal.text) (Text.utf8 proposal.insertion.text) bytes ∧
        edited = Insertion.applyAll proposal.text [proposal.insertion]
  outside : Text.isBoundary proposal.text.toList proposal.insertion.offset = false →
    region.charOffset = none ∧ region.charLength = none

private theorem Proposal.locates (proposal : Proposal) :
    proposal.Locates (Region.at proposal.text proposal.insertion.offset) where
  changes := rfl
  empty := rfl
  negative := ⟨_, rfl, signed_lt_zero_iff proposal.bounded⟩
  within := by
    intro fits
    obtain ⟨⟨before, after⟩, cut⟩ := Option.isSome_iff_exists.mp fits
    obtain ⟨whole, here⟩ := Text.cut?_eq_some_iff.mp cut
    have small : proposal.insertion.offset < 2 ^ 63 := by
      have short := proposal.short
      rw [← Text.byteLength_toList, whole, Text.byteLength_append] at short
      omega
    have count := Text.length_le_byteLength before
    refine ⟨before.length, proposal.insertion.offset, ?_, ?_, ?_, ?_, ?_⟩
    · simp only [Region.at, Text.charOffset?, cut, Option.map_some]
      rw [signed_of_lt (by omega)]
    · simp only [Region.at, Text.charOffset?, cut, Option.map_some]
    · simp only [Region.at, signed_of_lt small]
    · rw [Text.utf8_putAt whole, here]
    · apply String.toList_inj.mp
      rw [String.toList_ofList, Insertion.toList_applyAll_singleton, whole, Text.putAt_length, Insertion.apply_eq here,
        List.append_assoc]
  outside := by
    intro off
    have uncut : Text.cut? proposal.text.toList proposal.insertion.offset = none := by
      simpa only [Text.isBoundary, Option.isSome_eq_false_iff, Option.isNone_iff_eq_none] using off
    simp only [Region.at, Text.charOffset?, uncut, Option.map_none, and_self]

/-- From results that carry the fixes of proposals, mixed with others, exactly the insertions are read back
whose offsets keep their value as signed numbers: one group for each of their URIs, with its insertions in the
order of the proposals. And each fix gives the place of its insertion in bytes and, at a boundary of the text
only, in characters, so that both lead to the same text. -/
theorem insertionsByUri_carried (entries : List (Result × List Proposal))
    (carried : ∀ entry ∈ entries, entry.1.Carries entry.2) :
    ((insertionsByUri (entries.map (·.1))).Pairwise fun left right => left.1 < right.1) ∧
    (∀ uri group, (uri, group) ∈ insertionsByUri (entries.map (·.1)) ↔
      group ≠ [] ∧ group = Proposal.signedFor (entries.flatMap (·.2)) uri) ∧
    ∀ proposal : Proposal, ∃ region, proposal.Locates region := by
  have same : (entries.map (·.1)).flatMap (·.insertions) =
      (entries.flatMap (·.2)).flatMap fun proposal => proposal.fix.changes.flatMap (·.insertions) := by
    rw [List.flatMap_map, List.flatMap_assoc]
    exact List.flatMap_congr fun entry listed => (carried entry listed).insertions_eq
  refine ⟨(isGrouping_insertionsByUri _).sorted, ?_, fun proposal => ⟨_, proposal.locates⟩⟩
  intro uri group
  rw [mem_insertionsByUri, same, Proposal.forUri_fixes]

/-- Two fixes behind characters of two bytes, one of them at an offset that becomes negative, results that
have no part in them, and a third fix at the start of the first text. -/
def mixedSample : List (Result × List Proposal) :=
  [({ ruleId := some "NR1001", fixes := [behind.fix, lost.fix] }, [behind, lost]),
    ({ ruleId := some "OTHER", fixes := [lost.fix] }, []), ({ fixes := [behind.fix] }, []),
    ({ ruleId := some "NR1002", fixes := [atStart.fix] }, [atStart])]
where
  behind : Proposal := ⟨"a.cs", "// Größe\nT A();", ⟨11, "[CanBeNull]\n"⟩, by decide, by decide⟩
  lost : Proposal := ⟨"b.cs", "", ⟨2 ^ 63, "[CanBeNull]\n"⟩, by decide, by decide⟩
  atStart : Proposal := ⟨"a.cs", "// Größe\nT A();", ⟨0, "[CanBeNull]\n"⟩, by decide, by decide⟩

theorem insertionsByUri_mixedSample : (∀ entry ∈ mixedSample, entry.1.Carries entry.2) ∧
    ("a.cs", [⟨11, "[CanBeNull]\n"⟩, ⟨0, "[CanBeNull]\n"⟩]) ∈ insertionsByUri (mixedSample.map (·.1)) ∧
    ∀ group, ("b.cs", group) ∉ insertionsByUri (mixedSample.map (·.1)) := by
  have carried : ∀ entry ∈ mixedSample, entry.1.Carries entry.2 := by
    simp only [mixedSample, List.forall_mem_cons]
    refine ⟨.own (by decide) rfl, .foreign (by decide), .foreign (by decide), .own (by decide) rfl, ?_⟩
    exact fun _ listed => absurd listed List.not_mem_nil
  obtain ⟨_, groups, _⟩ := insertionsByUri_carried mixedSample carried
  refine ⟨carried, (groups _ _).mpr ⟨List.cons_ne_nil _ _, by decide⟩, ?_⟩
  intro group member
  obtain ⟨nonempty, same⟩ := (groups _ _).mp member
  have empty : Proposal.signedFor (mixedSample.flatMap (·.2)) "b.cs" = [] := by decide
  exact nonempty (same.trans empty)

end Sarif

end NullReturns
