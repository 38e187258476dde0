import Mathlib.Data.String.Basic
import NullReturns.Edit.Insertion
import NullReturns.Proofs.Lines

/-! # Insertions in one pass

Insertions are made from the last offset to the first, each in a text that already holds the later ones.
The outcome is the one of a single pass over the unedited text that puts at every boundary what is to
stand there: the greatest of the texts given for it.
-/

namespace NullReturns.Insertion

open Text (byteLength byteLength_cons byteLength_append isBoundary isBoundary_iff cut?_eq_some_iff)

/-! ## Weaving -/

/-- A text that starts at `offset`, with `inserted` put before each of its characters. -/
def weave (inserted : Nat → List Char) (offset : Nat) : List Char → List Char
  | [] => []
  | c :: rest => inserted offset ++ c :: weave inserted (offset + c.utf8Size) rest

variable {inserted other : Nat → List Char}

theorem weave_append (offset : Nat) (first second : List Char) :
    weave inserted offset (first ++ second) =
      weave inserted offset first ++ weave inserted (offset + byteLength first) second := by
  induction first generalizing offset with
  | nil => rfl
  | cons c rest ih =>
    simp only [List.cons_append, weave, ih, byteLength_cons, List.append_assoc, Nat.add_assoc]

/-- Only what is put at boundaries matters. -/
theorem weave_congr {offset : Nat} {text : List Char}
    (agree : ∀ place, isBoundary text place = true → place < byteLength text →
      inserted (offset + place) = other (offset + place)) :
    weave inserted offset text = weave other offset text := by
  induction text generalizing offset with
  | nil => rfl
  | cons c rest ih =>
    have size := c.utf8Size_pos
    rw [byteLength_cons] at agree
    have here : inserted offset = other offset := agree 0 rfl (by omega)
    rw [weave, weave, here, ih]
    intro place fits within
    obtain ⟨before, after, rfl, rfl⟩ := isBoundary_iff.mp fits
    have there := agree (c.utf8Size + byteLength before)
      (isBoundary_iff.mpr ⟨c :: before, after, rfl, byteLength_cons c before⟩) (by omega)
    simpa only [Nat.add_assoc] using there

theorem weave_nothing {offset : Nat} {text : List Char}
    (nothing : ∀ place, place < byteLength text → inserted (offset + place) = []) :
    weave inserted offset text = text := by
  have bare : weave inserted offset text = weave (fun _ => []) offset text :=
    weave_congr fun place _ => nothing place
  rw [bare]
  clear nothing bare
  induction text generalizing offset with
  | nil => rfl
  | cons c rest ih => rw [weave, ih, List.nil_append]

/-- Where nothing is put behind the start of a text, it gets what is put at its start in front of it. -/
theorem weave_start {offset : Nat} {text : List Char} (nothing : ∀ place, offset < place → inserted place = []) :
    weave inserted offset text ++ inserted (offset + byteLength text) = inserted offset ++ text := by
  cases text with
  | nil => rw [weave, byteLength, Nat.add_zero, List.nil_append, List.append_nil]
  | cons c rest =>
    have size := c.utf8Size_pos
    have ended : inserted (offset + (c.utf8Size + byteLength rest)) = [] := nothing _ (by omega)
    rw [weave, weave_nothing fun place _ => nothing _ (by omega), byteLength_cons, ended, List.append_nil]

/-! ## Insertions from the last to the first -/

theorem apply_eq {before after : List Char} {insertion : Insertion}
    (here : byteLength before = insertion.offset) :
    apply (before ++ after) insertion = before ++ (insertion.text.toList ++ after) := by
  have cut : Text.cut? (before ++ after) insertion.offset = some (before, after) :=
    cut?_eq_some_iff.mpr ⟨rfl, here⟩
  simp only [apply, cut, List.append_assoc]

theorem isBoundary_append {text : List Char} {offset : Nat} (fits : isBoundary text offset = true)
    (more : List Char) : isBoundary (text ++ more) offset = true := by
  obtain ⟨before, after, rfl, here⟩ := isBoundary_iff.mp fits
  exact isBoundary_iff.mpr ⟨before, after ++ more, List.append_assoc before after more, here⟩

/-- A boundary before the end of a front part is a boundary of that part. -/
theorem isBoundary_of_le {front back : List Char} {offset : Nat}
    (fits : isBoundary (front ++ back) offset = true) (within : offset ≤ byteLength front) :
    isBoundary front offset = true := by
  obtain ⟨before, after, same, here⟩ := isBoundary_iff.mp fits
  rcases List.append_eq_append_iff.mp same with ⟨between, rfl, _⟩ | ⟨between, rfl, _⟩
  · rw [byteLength_append] at here
    have empty : between = [] := by
      by_contra nonempty
      have room := Text.byteLength_pos nonempty
      omega
    subst empty
    exact isBoundary_iff.mpr ⟨front, [], (List.append_nil front).symm, by simpa [byteLength] using here⟩
  · exact isBoundary_iff.mpr ⟨before, between, rfl, here⟩

private theorem fits_before {before after : List Char} {insertion : Insertion} {rest : List Insertion}
    (here : byteLength before = insertion.offset) (first : ∀ earlier ∈ rest, earlier.offset < insertion.offset)
    (fits : ∀ earlier ∈ insertion :: rest, isBoundary (before ++ after) earlier.offset = true) :
    ∀ earlier ∈ rest, isBoundary before earlier.offset = true := by
  intro earlier member
  apply isBoundary_of_le (fits earlier (List.mem_cons_of_mem insertion member))
  rw [here]
  exact Nat.le_of_lt (first earlier member)

/-- Insertions into a front part leave what follows it as it is. -/
theorem foldl_apply_append {insertions : List Insertion} {front : List Char}
    (descending : insertions.Pairwise fun later earlier => earlier.offset < later.offset)
    (fits : ∀ insertion ∈ insertions, isBoundary front insertion.offset = true) (back : List Char) :
    insertions.foldl apply (front ++ back) = insertions.foldl apply front ++ back := by
  induction insertions generalizing front with
  | nil => rfl
  | cons insertion rest ih =>
    obtain ⟨first, others⟩ := List.pairwise_cons.mp descending
    obtain ⟨before, after, rfl, here⟩ := isBoundary_iff.mp (fits insertion List.mem_cons_self)
    have fitsEdited : ∀ earlier ∈ rest,
        isBoundary (before ++ (insertion.text.toList ++ after)) earlier.offset = true :=
      fun earlier member => isBoundary_append (fits_before here first fits earlier member) _
    rw [List.foldl_cons, List.foldl_cons, apply_eq here, ← ih others fitsEdited, List.append_assoc, apply_eq here]
    simp only [List.append_assoc]

/-- What a list of insertions has for an offset. -/
def textAt (insertions : List Insertion) (offset : Nat) : List Char :=
  (insertions.find? (·.offset == offset)).elim [] (·.text.toList)

private theorem textAt_eq_nil {insertions : List Insertion} {offset : Nat}
    (absent : ∀ insertion ∈ insertions, insertion.offset ≠ offset) : textAt insertions offset = [] := by
  have none : insertions.find? (·.offset == offset) = none := by
    simpa only [List.find?_eq_none, beq_iff_eq] using absent
  rw [textAt, none, Option.elim_none]

private theorem textAt_cons_self (insertion : Insertion) (rest : List Insertion) :
    textAt (insertion :: rest) insertion.offset = insertion.text.toList := by
  rw [textAt, List.find?_cons, beq_self_eq_true, Option.elim_some]

private theorem textAt_cons_of_ne {insertion : Insertion} {rest : List Insertion} {offset : Nat}
    (different : insertion.offset ≠ offset) : textAt (insertion :: rest) offset = textAt rest offset := by
  rw [textAt, List.find?_cons, beq_eq_false_iff_ne.mpr different, textAt]

/-- Insertions at descending offsets are woven into the text. -/
theorem foldl_apply_eq_weave {insertions : List Insertion} {text : List Char}
    (descending : insertions.Pairwise fun later earlier => earlier.offset < later.offset)
    (fits : ∀ insertion ∈ insertions, isBoundary text insertion.offset = true) :
    insertions.foldl apply text =
      weave (textAt insertions) 0 text ++ textAt insertions (byteLength text) := by
  induction insertions generalizing text with
  | nil =>
    have nothing (place : Nat) : textAt [] place = [] := rfl
    rw [List.foldl_nil, weave_nothing fun place _ => nothing _, nothing, List.append_nil]
  | cons insertion rest ih =>
    obtain ⟨first, others⟩ := List.pairwise_cons.mp descending
    obtain ⟨before, after, rfl, here⟩ := isBoundary_iff.mp (fits insertion List.mem_cons_self)
    have fitsBefore := fits_before here first fits
    have later (place : Nat) (more : byteLength before < place) : textAt (insertion :: rest) place = [] := by
      apply textAt_eq_nil
      intro candidate member
      rcases List.mem_cons.mp member with rfl | member
      · omega
      · have := first candidate member
        omega
    have ended : textAt rest (byteLength before) = [] := by
      apply textAt_eq_nil
      intro candidate member
      have := first candidate member
      omega
    -- In front of the insertion the rest is woven in, behind it nothing is.
    have behind : weave (textAt (insertion :: rest)) (byteLength before) after ++
        textAt (insertion :: rest) (byteLength before + byteLength after) = insertion.text.toList ++ after := by
      rw [weave_start later, here, textAt_cons_self]
    rw [List.foldl_cons, apply_eq here, foldl_apply_append others fitsBefore, ih others fitsBefore, ended,
      List.append_nil, weave_append, Nat.zero_add, byteLength_append, List.append_assoc, behind]
    congr 1
    exact weave_congr fun place _ within => (textAt_cons_of_ne (by omega)).symm

/-! ## One insertion for each offset -/

theorem precedes_iff {left right : Insertion} :
    left.precedes right = true ↔
      right.offset < left.offset ∨ left.offset = right.offset ∧ right.text ≤ left.text := by
  simp only [precedes, Bool.or_eq_true, decide_eq_true_eq, Bool.and_eq_true, beq_iff_eq]

private theorem precedes_trans (first second third : Insertion) (left : first.precedes second = true)
    (right : second.precedes third = true) : first.precedes third = true := by
  rw [precedes_iff] at left right ⊢
  rcases left with less | ⟨same, below⟩ <;> rcases right with less' | ⟨same', below'⟩
  · exact .inl (by omega)
  · exact .inl (by omega)
  · exact .inl (by omega)
  · exact .inr ⟨same.trans same', below'.trans below⟩

private theorem precedes_total (left right : Insertion) :
    (left.precedes right || right.precedes left) = true := by
  rw [Bool.or_eq_true, precedes_iff, precedes_iff]
  rcases lt_trichotomy left.offset right.offset with less | same | more
  · exact .inr (.inl less)
  · rcases le_total left.text right.text with below | above
    · exact .inr (.inr ⟨same.symm, below⟩)
    · exact .inl (.inr ⟨same, above⟩)
  · exact .inl (.inl more)

private theorem loop_eraseRepsBy {α : Type} (same : α → α → Bool) (head : α) (rest kept : List α) :
    List.eraseRepsBy.loop same head rest kept = kept.reverse ++ List.eraseRepsBy same (head :: rest) := by
  induction rest generalizing head kept with
  | nil => simp [List.eraseRepsBy, List.eraseRepsBy.loop]
  | cons next rest ih =>
    rw [List.eraseRepsBy, List.eraseRepsBy.loop, List.eraseRepsBy.loop]
    cases same head next with
    | true => simp only [ih, List.reverse_nil, List.nil_append]
    | false => simp only [ih, List.reverse_cons, List.reverse_nil, List.nil_append, List.append_assoc]

private theorem eraseRepsBy_cons {α : Type} (same : α → α → Bool) (head next : α) (rest : List α) :
    List.eraseRepsBy same (head :: next :: rest) =
      if same head next then List.eraseRepsBy same (head :: rest)
      else head :: List.eraseRepsBy same (next :: rest) := by
  rw [List.eraseRepsBy, List.eraseRepsBy.loop]
  cases same head next <;> simp [loop_eraseRepsBy]

/-- One of the insertions for each of their offsets, the one with the greatest text, from the last offset
to the first. -/
structure IsChoice (kept all : List Insertion) : Prop where
  descending : kept.Pairwise fun later earlier => earlier.offset < later.offset
  mem : ∀ insertion ∈ kept, insertion ∈ all
  greatest : ∀ insertion ∈ all, ∃ chosen ∈ kept,
    chosen.offset = insertion.offset ∧ insertion.text ≤ chosen.text

/-- An insertion that has the offset of the first and no greater text need not be looked at. -/
theorem IsChoice.skip {head next : Insertion} {rest kept : List Insertion} (choice : IsChoice kept (head :: rest))
    (same : head.offset = next.offset) (below : next.text ≤ head.text) : IsChoice kept (head :: next :: rest) where
  descending := choice.descending
  mem := by
    intro insertion member
    rcases List.mem_cons.mp (choice.mem insertion member) with rfl | later
    · exact List.mem_cons_self
    · exact List.mem_cons_of_mem head (List.mem_cons_of_mem next later)
  greatest := by
    intro insertion member
    rcases List.mem_cons.mp member with rfl | member
    · exact choice.greatest insertion List.mem_cons_self
    rcases List.mem_cons.mp member with rfl | member
    · obtain ⟨chosen, kept, offset, above⟩ := choice.greatest head List.mem_cons_self
      exact ⟨chosen, kept, offset.trans same, below.trans above⟩
    · exact choice.greatest insertion (List.mem_cons_of_mem head member)

/-- An insertion behind all others is chosen. -/
theorem IsChoice.cons {head : Insertion} {rest kept : List Insertion} (choice : IsChoice kept rest)
    (last : ∀ insertion ∈ rest, insertion.offset < head.offset) : IsChoice (head :: kept) (head :: rest) where
  descending := by
    refine List.pairwise_cons.mpr ⟨?_, choice.descending⟩
    intro insertion kept
    exact last insertion (choice.mem insertion kept)
  mem := by
    intro insertion member
    rcases List.mem_cons.mp member with rfl | kept
    · exact List.mem_cons_self
    · exact List.mem_cons_of_mem head (choice.mem insertion kept)
  greatest := by
    intro insertion member
    rcases List.mem_cons.mp member with rfl | later
    · exact ⟨insertion, List.mem_cons_self, rfl, le_rfl⟩
    · obtain ⟨chosen, kept, offset, above⟩ := choice.greatest insertion later
      exact ⟨chosen, List.mem_cons_of_mem head kept, offset, above⟩

private theorem isChoice_cons (head : Insertion) (rest : List Insertion)
    (ordered : (head :: rest).Pairwise fun left right => left.precedes right = true) :
    IsChoice ((head :: rest).eraseRepsBy fun left right => left.offset == right.offset) (head :: rest) := by
  induction rest generalizing head with
  | nil =>
    have empty : IsChoice [] [] := ⟨.nil, fun _ member => member, fun _ member => absurd member List.not_mem_nil⟩
    exact empty.cons fun _ member => absurd member List.not_mem_nil
  | cons next rest ih =>
    obtain ⟨first, others⟩ := List.pairwise_cons.mp ordered
    have order := precedes_iff.mp (first next List.mem_cons_self)
    rw [eraseRepsBy_cons]
    by_cases same : head.offset = next.offset
    · rw [if_pos (beq_iff_eq.mpr same)]
      have below : next.text ≤ head.text := by
        rcases order with less | ⟨_, below⟩
        · omega
        · exact below
      exact (ih head (ordered.sublist (List.sublist_cons_self next rest |>.cons_cons head))).skip same below
    · rw [if_neg (by simpa only [beq_iff_eq] using same)]
      have less : next.offset < head.offset := order.resolve_right fun equal => same equal.1
      refine (ih next others).cons ?_
      intro insertion member
      rcases List.mem_cons.mp member with rfl | later
      · exact less
      · rcases precedes_iff.mp ((List.pairwise_cons.mp others).1 insertion later) with more | ⟨equal, _⟩ <;> omega

private theorem isChoice_eraseRepsBy {insertions : List Insertion}
    (ordered : insertions.Pairwise fun left right => left.precedes right = true) :
    IsChoice (insertions.eraseRepsBy fun left right => left.offset == right.offset) insertions := by
  cases insertions with
  | nil => exact ⟨.nil, fun _ member => member, fun _ member => absurd member List.not_mem_nil⟩
  | cons head rest => exact isChoice_cons head rest ordered

/-- What stands at an offset: the greatest text given for it, or nothing. -/
def Stands (insertions : List Insertion) (offset : Nat) (text : List Char) : Prop :=
  (∃ insertion ∈ insertions, insertion.offset = offset ∧ insertion.text.toList = text ∧
    ∀ rival ∈ insertions, rival.offset = offset → rival.text ≤ insertion.text) ∨
  (∀ insertion ∈ insertions, insertion.offset ≠ offset) ∧ text = []

private theorem find_of_descending {kept : List Insertion}
    (descending : kept.Pairwise fun later earlier => earlier.offset < later.offset) {chosen : Insertion}
    (member : chosen ∈ kept) : kept.find? (·.offset == chosen.offset) = some chosen := by
  induction kept with
  | nil => exact absurd member List.not_mem_nil
  | cons head rest ih =>
    obtain ⟨first, others⟩ := List.pairwise_cons.mp descending
    rcases List.mem_cons.mp member with rfl | later
    · exact List.find?_cons_of_pos (beq_self_eq_true _)
    · have different : (head.offset == chosen.offset) = false :=
        beq_eq_false_iff_ne.mpr (Nat.ne_of_gt (first chosen later))
      rw [List.find?_cons, different]
      exact ih others later

private theorem IsChoice.textAt {kept all : List Insertion} (choice : IsChoice kept all) {offset : Nat}
    {text : List Char}
    (stands : Stands all offset text) : textAt kept offset = text := by
  rcases stands with ⟨insertion, member, rfl, rfl, greatest⟩ | ⟨absent, rfl⟩
  · obtain ⟨chosen, kept, same, above⟩ := choice.greatest insertion member
    have below := greatest chosen (choice.mem chosen kept) same
    rw [Insertion.textAt, ← same, find_of_descending choice.descending kept, Option.elim_some,
      le_antisymm below above]
  · exact textAt_eq_nil fun insertion member => absent insertion (choice.mem insertion member)

/-- The insertions that are made, from the last offset to the first. -/
def inOrder (text : String) (insertions : List Insertion) : List Insertion :=
  ((insertions.filter fun insertion => isBoundary text.toList insertion.offset).mergeSort precedes).eraseRepsBy
    fun left right => left.offset == right.offset

theorem toList_applyAll_eq_foldl (text : String) (insertions : List Insertion) :
    (applyAll text insertions).toList = (inOrder text insertions).foldl apply text.toList :=
  String.toList_ofList

/-- A single insertion is put in where it fits. -/
theorem toList_applyAll_singleton (text : String) (insertion : Insertion) :
    (applyAll text [insertion]).toList = apply text.toList insertion := by
  rw [toList_applyAll_eq_foldl, inOrder]
  cases cut : Text.cut? text.toList insertion.offset with
  | none => simp [isBoundary, apply, cut, List.eraseRepsBy]
  | some parts => simp [isBoundary, cut, List.eraseRepsBy, List.eraseRepsBy.loop]

/-- What is made at the boundaries of the text is a choice among the insertions there. -/
theorem isChoice_inOrder (text : String) (insertions : List Insertion) :
    IsChoice (inOrder text insertions)
      (insertions.filter fun insertion => isBoundary text.toList insertion.offset) := by
  have choice := isChoice_eraseRepsBy (List.pairwise_mergeSort precedes_trans precedes_total
    (insertions.filter fun insertion => isBoundary text.toList insertion.offset))
  exact ⟨choice.descending, fun insertion kept => List.mem_mergeSort.mp (choice.mem insertion kept),
    fun insertion fitting => choice.greatest insertion (List.mem_mergeSort.mpr fitting)⟩

theorem isBoundary_of_mem_inOrder {text : String} {insertions : List Insertion} {insertion : Insertion}
    (made : insertion ∈ inOrder text insertions) : isBoundary text.toList insertion.offset = true :=
  (List.mem_filter.mp ((isChoice_inOrder text insertions).mem insertion made)).2

/-- Applying insertions is one pass over the text that puts at each boundary what stands there. -/
theorem toList_applyAll {text : String} {insertions : List Insertion}
    (stands : ∀ offset, isBoundary text.toList offset = true → Stands insertions offset (inserted offset)) :
    (applyAll text insertions).toList =
      weave inserted 0 text.toList ++ inserted (byteLength text.toList) := by
  have choice := isChoice_inOrder text insertions
  have chosen (offset : Nat) (fits : isBoundary text.toList offset = true) :
      textAt (inOrder text insertions) offset = inserted offset := by
    apply choice.textAt
    rcases stands offset fits with ⟨insertion, listed, rfl, same, greatest⟩ | ⟨absent, none⟩
    · refine .inl ⟨insertion, List.mem_filter.mpr ⟨listed, fits⟩, rfl, same, ?_⟩
      intro rival entered
      exact greatest rival (List.mem_filter.mp entered).1
    · exact .inr ⟨fun insertion entered => absent insertion (List.mem_filter.mp entered).1, none⟩
  rw [toList_applyAll_eq_foldl,
    foldl_apply_eq_weave choice.descending fun insertion made => isBoundary_of_mem_inOrder made]
  congr 1
  · exact weave_congr fun place fits _ => by simpa only [Nat.zero_add] using chosen place fits
  · exact chosen _ (isBoundary_iff.mpr ⟨text.toList, [], (List.append_nil _).symm, rfl⟩)

end NullReturns.Insertion
