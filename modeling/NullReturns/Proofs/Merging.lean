import NullReturns.Proofs.ByteOrder
import NullReturns.Proofs.Weaving
import Mathlib.Data.Option.Basic

/-! # Merging insertions into a text

Sorting the insertions, dropping those at one offset but the first and editing from the end of the text to
its start comes to a merge from left to right: the characters of the text are copied, and in front of each
of them stands the greatest text given for its offset, if there is one. The order in which insertions are
given therefore does not matter, nor how often each is given.
-/

namespace NullReturns.Insertion

open Text (byteLength byteLength_cons byteLength_append isBoundary isBoundary_iff cut?_eq_some_iff)

/-! ## The merge -/

/-- A part of an edited text: a character of the unedited text, or a text that was put in. -/
inductive Piece where
  | kept (c : Char)
  | added (text : String)

def Piece.chars : Piece → List Char
  | .kept c => [c]
  | .added text => text.toList

def Piece.kept? : Piece → Option Char
  | .kept c => some c
  | .added _ => none

/-- Copies a text that starts at `offset`, and puts in at every boundary what `added` has for it. -/
def merge (added : Nat → Option String) (offset : Nat) : List Char → List Piece
  | [] => (added offset).toList.map .added
  | c :: rest => (added offset).toList.map .added ++ .kept c :: merge added (offset + c.utf8Size) rest

/-- The greatest text that is given for an offset. -/
def greatestAt? (insertions : List Insertion) (offset : Nat) : Option String :=
  ((insertions.filter (·.offset == offset)).map (·.text)).max?

theorem greatestAt?_eq_some_iff {insertions : List Insertion} {offset : Nat} {text : String} :
    greatestAt? insertions offset = some text ↔
      ⟨offset, text⟩ ∈ insertions ∧ ∀ rival ∈ insertions, rival.offset = offset → rival.text ≤ text := by
  simp only [greatestAt?, List.max?_eq_some_iff, List.mem_map, List.mem_filter, beq_iff_eq]
  constructor
  · rintro ⟨⟨insertion, ⟨listed, rfl⟩, rfl⟩, greatest⟩
    exact ⟨listed, fun rival there same => greatest _ ⟨rival, ⟨there, same⟩, rfl⟩⟩
  · rintro ⟨listed, greatest⟩
    refine ⟨⟨_, ⟨listed, rfl⟩, rfl⟩, ?_⟩
    rintro _ ⟨rival, ⟨there, same⟩, rfl⟩
    exact greatest rival there same

theorem greatestAt?_eq_none_iff {insertions : List Insertion} {offset : Nat} :
    greatestAt? insertions offset = none ↔ ∀ insertion ∈ insertions, insertion.offset ≠ offset := by
  simp [greatestAt?, List.max?_eq_none_iff, List.filter_eq_nil_iff]

private theorem flatMap_merge (added : Nat → Option String) (offset : Nat) (text : List Char) :
    (merge added offset text).flatMap Piece.chars =
      weave (fun place => (added place).elim [] (·.toList)) offset text ++
        (added (offset + byteLength text)).elim [] (·.toList) := by
  have emitted (place : Nat) :
      ((added place).toList.map Piece.added).flatMap Piece.chars = (added place).elim [] (·.toList) := by
    cases added place <;> simp [Piece.chars]
  induction text generalizing offset with
  | nil => rw [merge, emitted, weave, byteLength, Nat.add_zero, List.nil_append]
  | cons c rest ih =>
    simp only [merge, weave, List.flatMap_append, List.flatMap_cons, emitted, ih, Piece.chars, byteLength_cons,
      List.append_assoc, List.cons_append, List.nil_append, Nat.add_assoc]

/-- Without what was put in, the merged text is the unedited one. -/
theorem filterMap_merge (added : Nat → Option String) (offset : Nat) (text : List Char) :
    (merge added offset text).filterMap Piece.kept? = text := by
  have dropped (place : Nat) : ((added place).toList.map Piece.added).filterMap Piece.kept? = [] := by
    cases added place <;> rfl
  induction text generalizing offset with
  | nil => rw [merge, dropped]
  | cons c rest ih => rw [merge, List.filterMap_append, dropped, List.nil_append, List.filterMap_cons, ih]; rfl

/-! ## Insertions in the order in which they are made -/

/-- Puts the insertion's text into `text`, if its offset is a boundary there. -/
def insert? (text : List Char) (insertion : Insertion) : Option (List Char) :=
  (Text.cut? text insertion.offset).map fun (before, after) => before ++ insertion.text.toList ++ after

private theorem insert?_eq_some {text : List Char} {insertion : Insertion}
    (fits : isBoundary text insertion.offset = true) : insert? text insertion = some (apply text insertion) := by
  obtain ⟨⟨before, after⟩, cut⟩ := Option.isSome_iff_exists.mp fits
  rw [insert?, apply, cut, Option.map_some]

/-- Insertions at descending boundaries of a text are made at boundaries of the texts in between. -/
theorem foldlM_insert? {insertions : List Insertion} {text : List Char}
    (descending : insertions.Pairwise fun later earlier => earlier.offset < later.offset)
    (fits : ∀ insertion ∈ insertions, isBoundary text insertion.offset = true) :
    insertions.foldlM insert? text = some (insertions.foldl apply text) := by
  induction insertions generalizing text with
  | nil => rfl
  | cons insertion rest ih =>
    obtain ⟨first, others⟩ := List.pairwise_cons.mp descending
    rw [List.foldlM_cons, insert?_eq_some (fits insertion List.mem_cons_self), List.foldl_cons]
    refine ih others fun earlier member => ?_
    -- The offsets still to come are boundaries of the part in front, which stays as it is.
    obtain ⟨before, after, rfl, here⟩ := isBoundary_iff.mp (fits insertion List.mem_cons_self)
    rw [apply_eq here]
    refine isBoundary_append (isBoundary_of_le (fits earlier (List.mem_cons_of_mem insertion member)) ?_) _
    rw [here]
    exact Nat.le_of_lt (first earlier member)

/-! ## Applying insertions -/

/-- The greatest text for an offset is what stands there. -/
theorem stands_greatestAt? (insertions : List Insertion) (offset : Nat) :
    Stands insertions offset ((greatestAt? insertions offset).elim [] (·.toList)) := by
  cases found : greatestAt? insertions offset with
  | none => exact .inr ⟨greatestAt?_eq_none_iff.mp found, rfl⟩
  | some text =>
    obtain ⟨listed, greatest⟩ := greatestAt?_eq_some_iff.mp found
    exact .inl ⟨_, listed, rfl, rfl, greatest⟩

/-- What stands at an offset is told by the insertions for this offset. -/
theorem Stands.congr {insertions others : List Insertion} {offset : Nat} {text : List Char}
    (stands : Stands insertions offset text)
    (same : ∀ insertion : Insertion, insertion.offset = offset → (insertion ∈ others ↔ insertion ∈ insertions)) :
    Stands others offset text := by
  rcases stands with ⟨insertion, listed, here, shown, greatest⟩ | ⟨absent, none⟩
  · refine .inl ⟨insertion, (same insertion here).mpr listed, here, shown, ?_⟩
    intro rival entered there
    exact greatest rival ((same rival there).mp entered) there
  · refine .inr ⟨?_, none⟩
    intro insertion entered here
    exact absent insertion ((same insertion here).mp entered) here

private theorem toList_applyAll_eq_merge {text : String} {insertions others : List Insertion}
    (same : ∀ insertion : Insertion, isBoundary text.toList insertion.offset = true →
      (insertion ∈ others ↔ insertion ∈ insertions)) :
    (applyAll text others).toList = (merge (greatestAt? insertions) 0 text.toList).flatMap Piece.chars := by
  rw [flatMap_merge, Nat.zero_add]
  apply toList_applyAll
  intro offset fits
  exact (stands_greatestAt? insertions offset).congr fun insertion here => same insertion (here ▸ fits)

/-- The order of insertions does not matter. -/
theorem applyAll_perm (text : String) {insertions others : List Insertion} (reordered : others.Perm insertions) :
    applyAll text others = applyAll text insertions := by
  have merged := toList_applyAll_eq_merge fun insertion (_ : isBoundary text.toList insertion.offset = true) =>
    Iff.refl (insertion ∈ insertions)
  exact String.toList_inj.mp ((toList_applyAll_eq_merge fun _ _ => reordered.mem_iff).trans merged.symm)

/-- Applying insertions merges them into the text: of the texts given for one offset, the one with the
greatest bytes. Dropping what was put in leaves the unedited text; insertions that are given again, in
another order or off the boundaries of the text change nothing; and each insertion is made at a boundary of
the text that the ones before it have left. -/
theorem applyAll_eq_merge (text : String) (insertions : List Insertion) :
    let pieces := merge (greatestAt? insertions) 0 text.toList
    (applyAll text insertions).toList = pieces.flatMap Piece.chars ∧
    pieces.filterMap Piece.kept? = text.toList ∧
    (∀ offset given, greatestAt? insertions offset = some given ↔ ⟨offset, given⟩ ∈ insertions ∧
      ∀ rival ∈ insertions, rival.offset = offset → Text.utf8 rival.text ≤ Text.utf8 given) ∧
    (∀ others : List Insertion,
      (∀ insertion : Insertion, isBoundary text.toList insertion.offset = true →
        (insertion ∈ others ↔ insertion ∈ insertions)) →
      applyAll text others = applyAll text insertions) ∧
    (inOrder text insertions).foldlM insert? text.toList = some (applyAll text insertions).toList := by
  have merged := toList_applyAll_eq_merge fun insertion (_ : isBoundary text.toList insertion.offset = true) =>
    Iff.refl (insertion ∈ insertions)
  refine ⟨merged, filterMap_merge _ 0 text.toList, ?_, ?_, ?_⟩
  · intro offset given
    have bytes (rival : Insertion) : Text.utf8 rival.text ≤ Text.utf8 given ↔ rival.text ≤ given := by
      rw [← List.not_lt, Text.utf8_lt_iff, not_lt]
    simp only [greatestAt?_eq_some_iff, bytes]
  · intro others same
    exact String.toList_inj.mp ((toList_applyAll_eq_merge same).trans merged.symm)
  · rw [toList_applyAll_eq_foldl]
    exact foldlM_insert? (isChoice_inOrder text insertions).descending fun insertion made =>
      isBoundary_of_mem_inOrder made

end NullReturns.Insertion
