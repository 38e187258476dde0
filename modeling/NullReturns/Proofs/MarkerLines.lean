import NullReturns.Proofs.LineTerminators
import NullReturns.Proofs.Weaving
import Mathlib.Data.Option.Basic

/-! # Marker lines

The marker of an offset is one line, to be put above the line that holds the offset. A text to which
markers have been applied has the lines of the unedited text, unchanged and in order, with one marker
line above each line that holds an offset.
-/

namespace NullReturns

namespace Text

theorem OnLine.isBoundary {text : List Char} {offset line : Nat} (on : OnLine text offset line) :
    isBoundary text offset = true := by
  obtain ⟨before, after, whole, here, _⟩ := on
  exact isBoundary_iff.mpr ⟨before, after, whole, here⟩

theorem exists_onLine {text : List Char} {offset : Nat} (fits : isBoundary text offset = true) :
    ∃ line, OnLine text offset line := by
  obtain ⟨before, after, whole, here⟩ := isBoundary_iff.mp fits
  exact ⟨_, before, after, whole, here, rfl⟩

theorem OnLine.unique {text : List Char} {offset line line' : Nat} (on : OnLine text offset line)
    (on' : OnLine text offset line') : line = line' :=
  Option.some.inj (on.lineOf?.symm.trans on'.lineOf?)

private theorem onLine_iff_cut? {text : List Char} {offset line : Nat} :
    OnLine text offset line ↔
      ((cut? text offset).any fun cut => cut.1.count '\n' == line) = true := by
  simp only [OnLine, Option.any_eq_true, Prod.exists, cut?_eq_some_iff, beq_iff_eq, and_assoc]

instance (text : List Char) (offset line : Nat) : Decidable (OnLine text offset line) :=
  decidable_of_iff _ onLine_iff_cut?.symm

/-- What ends a line is a line feed, with or without a carriage return. -/
theorem lineTerminator?_eq {text terminator : List Char} {line : Nat}
    (found : lineTerminator? text line = some terminator) : terminator = ['\n'] ∨ terminator = ['\r', '\n'] := by
  obtain ⟨content, _, branch⟩ := Option.bind_eq_some_iff.mp found
  rw [terminatorOf?] at branch
  split_ifs at branch
  · exact .inr (Option.some.inj branch).symm
  · exact .inl (Option.some.inj branch).symm

/-! ## Indentation -/

/-- The code points of the characters with the Unicode property White_Space. -/
def whiteSpace : List Nat :=
  [0x09, 0x0a, 0x0b, 0x0c, 0x0d, 0x20, 0x85, 0xa0, 0x1680, 0x2000, 0x2001, 0x2002, 0x2003, 0x2004, 0x2005, 0x2006,
    0x2007, 0x2008, 0x2009, 0x200a, 0x2028, 0x2029, 0x202f, 0x205f, 0x3000]

/-- The longest start of a text that is white space throughout. -/
structure IsIndentation (content blank : List Char) : Prop where
  spaces : ∀ c ∈ blank, c.toNat ∈ whiteSpace
  longest : ∃ rest, content = blank ++ rest ∧ ∀ c, rest.head? = some c → c.toNat ∉ whiteSpace

theorem isBlank_iff (c : Char) : isBlank c = true ↔ c.toNat ∈ whiteSpace := by
  simp only [isBlank, whiteSpace, Bool.or_eq_true, Bool.and_eq_true, decide_eq_true_eq, beq_iff_eq, List.mem_cons,
    List.not_mem_nil, or_false]
  omega

private theorem isIndentation (content : List Char) : IsIndentation content (indentation content) where
  spaces := by
    intro c member
    rw [← isBlank_iff]
    exact List.all_eq_true.mp List.all_takeWhile c member
  longest := by
    refine ⟨content.dropWhile isBlank, List.takeWhile_append_dropWhile.symm, ?_⟩
    intro c next blank
    have stopped := List.head?_dropWhile_not isBlank content
    rw [next] at stopped
    rw [← isBlank_iff, stopped] at blank
    contradiction

end Text

namespace Insertion

open Text (byteLength byteLength_cons byteLength_append isBoundary lines EndsLine OnLine)

/-! ## The marker of an offset -/

/-- What ends the marker line above a line: the end of that line, or else of the line before it. -/
def ending (text : List Char) (line : Nat) : List Char :=
  ((Text.lineTerminator? text line).or
    (if line = 0 then none else Text.lineTerminator? text (line - 1))).getD ['\n']

theorem ending_eq (text : List Char) (line : Nat) :
    ending text line = ['\n'] ∨ ending text line = ['\r', '\n'] := by
  rw [ending]
  cases own : Text.lineTerminator? text line with
  | some terminator => exact Text.lineTerminator?_eq own
  | none =>
    rw [Option.none_or]
    split_ifs
    · exact .inl rfl
    · cases previous : Text.lineTerminator? text (line - 1) with
      | some terminator => exact Text.lineTerminator?_eq previous
      | none => exact .inl rfl

/-- The indentation of a line, the tag, and an end of line. -/
def markerLine (line ending : List Char) : List Char :=
  Text.indentation (Text.contentOf line) ++ tag.toList ++ ending

private theorem endsLine_markerLine {text line ending : List Char} (member : line ∈ lines text)
    (feed : ending = ['\n'] ∨ ending = ['\r', '\n']) : EndsLine (markerLine line ending) := by
  have indented : '\n' ∉ Text.indentation (Text.contentOf line) :=
    fun within => (Text.isDivided_of_mem_lines member).clean ((List.takeWhile_prefix _).subset within)
  have tagged : '\n' ∉ tag.toList := by decide
  rcases feed with rfl | rfl
  · exact ⟨_, rfl, by simp only [List.mem_append, indented, tagged, or_self, not_false_eq_true]⟩
  · refine ⟨Text.indentation (Text.contentOf line) ++ tag.toList ++ ['\r'], ?_, ?_⟩
    · simp only [markerLine, List.append_assoc, List.cons_append, List.nil_append]
    · simp [indented, tagged]

/-- The byte offset at which a line starts. -/
def lineStart (text : List Char) (line : Nat) : Nat := byteLength ((lines text).take line).flatten

private theorem marker?_eq {text : String} {offset number : Nat} {line : List Char}
    (on : OnLine text.toList offset number) (found : (lines text.toList)[number]? = some line) :
    marker? text offset =
      some ⟨lineStart text.toList number, String.ofList (markerLine line (ending text.toList number))⟩ := by
  simp [marker?, guard, on.isBoundary, on.lineOf?, Text.lineStart?_eq on.lt_length, Text.lineText?, Text.line?_eq,
    found, lineStart, markerLine, ending]

private theorem marker?_eq_none {text : String} {offset : Nat} (off : isBoundary text.toList offset = false) :
    marker? text offset = none := by
  simp only [marker?, guard, off, Bool.false_eq_true, if_false]
  rfl

/-! ## Texts with marker lines -/

/-- Where nothing is put inside a text, only what is put at its start is woven in. -/
theorem weave_first {inserted : Nat → List Char} {offset : Nat} {text : List Char} (nonempty : text ≠ [])
    (nothing : ∀ place, offset < place → place < offset + byteLength text → inserted place = []) :
    weave inserted offset text = inserted offset ++ text := by
  cases text with
  | nil => contradiction
  | cons c rest =>
    have size := c.utf8Size_pos
    rw [byteLength_cons] at nothing
    rw [weave, weave_nothing fun place within => nothing _ (by omega) (by omega)]

/-- Where something is put at the starts of pieces only, it is put in front of the pieces. All pieces but
the last have room, so that no two start at one offset. -/
theorem weave_pieces {inserted : Nat → List Char} {ended : List (List Char)} (last : List Char)
    (above : Nat → List Char) (offset number : Nat) (nonempty : ∀ piece ∈ ended, piece ≠ [])
    (starts : ∀ index ≤ ended.length,
      inserted (offset + byteLength (ended.take index).flatten) = above (number + index))
    (inside : ∀ place, offset ≤ place →
      (∀ index ≤ ended.length, place ≠ offset + byteLength (ended.take index).flatten) → inserted place = []) :
    weave inserted offset (ended.flatten ++ last) ++ inserted (offset + byteLength (ended.flatten ++ last)) =
      (((ended ++ [last]).zipIdx number).flatMap fun (piece, index) => above index ++ piece) := by
  induction ended generalizing offset number with
  | nil =>
    have first : inserted offset = above number := starts 0 (Nat.le_refl 0)
    have nothing (place : Nat) (behind : offset < place) : inserted place = [] := by
      apply inside place (Nat.le_of_lt behind)
      intro index none
      rw [Nat.le_zero.mp none]
      exact Nat.ne_of_gt behind
    rw [List.flatten_nil, List.nil_append, weave_start nothing, first]
    simp only [List.nil_append, List.zipIdx_singleton, List.flatMap_singleton]
  | cons piece ended ih =>
    have room := Text.byteLength_pos (nonempty piece List.mem_cons_self)
    have first : inserted offset = above number := starts 0 (Nat.zero_le _)
    have next (index : Nat) : offset + byteLength ((piece :: ended).take (index + 1)).flatten =
        offset + byteLength piece + byteLength (ended.take index).flatten := by
      rw [List.take_succ_cons, List.flatten_cons, byteLength_append, Nat.add_assoc]
    have front : weave inserted offset piece = above number ++ piece := by
      rw [weave_first (nonempty piece List.mem_cons_self), first]
      intro place behind before
      apply inside place (Nat.le_of_lt behind)
      intro index _
      cases index with
      | zero => exact Nat.ne_of_gt behind
      | succ index =>
        rw [next]
        omega
    have rest := ih (offset + byteLength piece) (number + 1)
      (fun other member => nonempty other (List.mem_cons_of_mem piece member)) ?_ ?_
    · rw [List.flatten_cons, List.append_assoc, weave_append, front, byteLength_append, ← Nat.add_assoc,
        List.append_assoc, rest]
      simp only [List.cons_append, List.zipIdx_cons, List.flatMap_cons, List.append_assoc]
    · intro index within
      rw [← next, starts (index + 1) (Nat.succ_le_succ within)]
      congr 1
      omega
    · intro place behind apart
      apply inside place (by omega)
      intro index within
      cases index with
      | zero =>
        simp only [List.take_zero, List.flatten_nil, byteLength]
        omega
      | succ index =>
        rw [next]
        exact apart index (Nat.le_of_succ_le_succ within)

/-- Complete lines put in front of lines are lines of the whole. -/
theorem lines_flatMap {ended : List (List Char)} {last : List Char} {marked : Nat → Prop}
    [DecidablePred marked] {mark : Nat → List Char} (number : Nat) (ends : ∀ line ∈ ended, EndsLine line)
    (clean : '\n' ∉ last) (marks : ∀ index, marked index → EndsLine (mark index)) :
    lines (((ended ++ [last]).zipIdx number).flatMap fun (line, index) =>
        (if marked index then mark index else []) ++ line) =
      ((ended ++ [last]).zipIdx number).flatMap fun (line, index) =>
        if marked index then [mark index, line] else [line] := by
  induction ended generalizing number with
  | nil =>
    have alone := Text.lines_of_not_mem clean
    by_cases here : marked number
    · simp [here, Text.lines_append (marks number here), alone]
    · simp [here, alone]
  | cons line ended ih =>
    have rest := ih (number + 1) fun other member => ends other (List.mem_cons_of_mem line member)
    have own := ends line List.mem_cons_self
    rw [List.cons_append, List.zipIdx_cons, List.flatMap_cons, List.flatMap_cons]
    by_cases here : marked number
    · simp only [here, if_true, List.append_assoc]
      rw [Text.lines_append (marks number here), Text.lines_append own, rest]
      rfl
    · simp only [here, if_false, List.nil_append]
      rw [Text.lines_append own, rest]
      rfl

private theorem start_lt {ended : List (List Char)} (nonempty : ∀ piece ∈ ended, piece ≠ []) {first second : Nat}
    (less : first < second) (within : second ≤ ended.length) :
    byteLength (ended.take first).flatten < byteLength (ended.take second).flatten := by
  induction ended generalizing first second with
  | nil => exact absurd (Nat.lt_of_lt_of_le less within) (Nat.not_lt_zero first)
  | cons piece ended ih =>
    obtain ⟨second, rfl⟩ := Nat.exists_eq_succ_of_ne_zero (Nat.ne_zero_of_lt less)
    have room := Text.byteLength_pos (nonempty piece List.mem_cons_self)
    cases first with
    | zero =>
      simp only [List.take_zero, List.flatten_nil, byteLength, List.take_succ_cons, List.flatten_cons,
        byteLength_append]
      omega
    | succ first =>
      have step := ih (fun other member => nonempty other (List.mem_cons_of_mem piece member))
        (Nat.lt_of_succ_lt_succ less) (Nat.le_of_succ_le_succ within)
      simp only [List.take_succ_cons, List.flatten_cons, byteLength_append]
      omega

private theorem lineStart_take {text last : List Char} {ended : List (List Char)}
    (split : lines text = ended ++ [last]) {number : Nat} (within : number ≤ ended.length) :
    lineStart text number = byteLength (ended.take number).flatten := by
  rw [lineStart, split, List.take_append_of_le_length within]

/-- No two lines start at one offset. -/
theorem lineStart_injective {text : List Char} {first second : Nat} (inside : first < (lines text).length)
    (inside' : second < (lines text).length) (same : lineStart text first = lineStart text second) :
    first = second := by
  obtain ⟨ended, last, split, _, ends, _⟩ := Text.exists_lines text
  have nonempty (line : List Char) (member : line ∈ ended) : line ≠ [] := (ends line member).ne_nil
  rw [split, List.length_append, List.length_singleton] at inside inside'
  rw [lineStart_take split (by omega), lineStart_take split (by omega)] at same
  rcases Nat.lt_trichotomy first second with less | equal | more
  · have := start_lt nonempty less (by omega)
    omega
  · exact equal
  · have := start_lt nonempty more (by omega)
    omega

/-- The marker line above the line with this number. -/
def markerAbove (text : List Char) (number : Nat) : List Char :=
  markerLine ((lines text)[number]?.getD []) (ending text number)

theorem marker?_eq_some_iff {text : String} {offset : Nat} {insertion : Insertion} :
    marker? text offset = some insertion ↔ ∃ number, OnLine text.toList offset number ∧
      insertion = ⟨lineStart text.toList number, String.ofList (markerAbove text.toList number)⟩ := by
  cases fits : isBoundary text.toList offset with
  | false =>
    rw [marker?_eq_none fits]
    constructor
    · intro found
      contradiction
    · rintro ⟨number, on, _⟩
      rw [on.isBoundary] at fits
      contradiction
  | true =>
    obtain ⟨number, on⟩ := Text.exists_onLine fits
    rw [marker?_eq on (List.getElem?_eq_getElem on.lt_length), Option.some.injEq]
    constructor
    · rintro rfl
      exact ⟨number, on, by rw [markerAbove, List.getElem?_eq_getElem on.lt_length, Option.getD_some]⟩
    · rintro ⟨other, on', rfl⟩
      obtain rfl := on.unique on'
      rw [markerAbove, List.getElem?_eq_getElem on.lt_length, Option.getD_some]

private theorem endsLine_markerAbove {text : List Char} {number : Nat} (inside : number < (lines text).length) :
    EndsLine (markerAbove text number) := by
  rw [markerAbove, List.getElem?_eq_getElem inside, Option.getD_some]
  exact endsLine_markerLine (List.getElem_mem inside) (ending_eq text number)

open Classical in
/-- What the markers of marked lines put at an offset. -/
private noncomputable def markerAt (text : List Char) (marked : Nat → Prop) (place : Nat) : List Char :=
  if found : ∃ number, marked number ∧ lineStart text number = place then markerAbove text found.choose else []

private theorem markerAt_lineStart {text : List Char} {marked : Nat → Prop} [DecidablePred marked]
    (known : ∀ number, marked number → number < (lines text).length) {number : Nat}
    (inside : number < (lines text).length) :
    markerAt text marked (lineStart text number) = if marked number then markerAbove text number else [] := by
  rw [markerAt]
  split_ifs with found here here
  · have chosen := found.choose_spec
    rw [lineStart_injective (known _ chosen.1) inside chosen.2]
  · have chosen := found.choose_spec
    rw [lineStart_injective (known _ chosen.1) inside chosen.2] at chosen
    exact absurd chosen.1 here
  · exact absurd ⟨number, here, rfl⟩ found
  · rfl

private theorem markerAt_eq_nil {text : List Char} {marked : Nat → Prop} {place : Nat}
    (apart : ∀ number, marked number → place ≠ lineStart text number) : markerAt text marked place = [] := by
  rw [markerAt, dif_neg]
  rintro ⟨number, here, same⟩
  exact apart number here same.symm

/-- All markers that fall on one offset are the same, so that any of them stands there. -/
private theorem stands_markerAt {text : String} {insertions : List Insertion} {marked : Nat → Prop}
    [DecidablePred marked] (known : ∀ number, marked number → number < (lines text.toList).length)
    (made : ∀ insertion, insertion ∈ insertions ↔ ∃ number, marked number ∧
      insertion = ⟨lineStart text.toList number, String.ofList (markerAbove text.toList number)⟩) (place : Nat) :
    Stands insertions place (markerAt text.toList marked place) := by
  by_cases found : ∃ number, marked number ∧ lineStart text.toList number = place
  · obtain ⟨number, here, rfl⟩ := found
    rw [markerAt_lineStart known (known number here), if_pos here]
    refine .inl ⟨_, (made _).mpr ⟨number, here, rfl⟩, rfl, String.toList_ofList, ?_⟩
    intro rival listed same
    obtain ⟨other, there, rfl⟩ := (made rival).mp listed
    obtain rfl := lineStart_injective (known other there) (known number here) same
    exact le_rfl
  · have apart (number : Nat) (here : marked number) : place ≠ lineStart text.toList number :=
      fun same => found ⟨number, here, same.symm⟩
    refine .inr ⟨?_, markerAt_eq_nil apart⟩
    intro insertion listed same
    obtain ⟨number, here, rfl⟩ := (made insertion).mp listed
    exact apart number here same.symm

/-- The markers of marked lines are woven in above these lines. -/
private theorem weave_markerAt {text : List Char} {marked : Nat → Prop} [DecidablePred marked]
    (known : ∀ number, marked number → number < (lines text).length) :
    weave (markerAt text marked) 0 text ++ markerAt text marked (byteLength text) =
      (lines text).zipIdx.flatMap fun (line, number) =>
        (if marked number then markerAbove text number else []) ++ line := by
  obtain ⟨ended, last, split, whole, ends, _⟩ := Text.exists_lines text
  have count : (lines text).length = ended.length + 1 := by rw [split, List.length_append, List.length_singleton]
  let above (number : Nat) : List Char := if marked number then markerAbove text number else []
  have starts (index : Nat) (within : index ≤ ended.length) :
      markerAt text marked (0 + byteLength (ended.take index).flatten) = above (0 + index) := by
    rw [Nat.zero_add, ← lineStart_take split within, markerAt_lineStart known (by omega), Nat.zero_add]
  have nothing (place : Nat) (_ : 0 ≤ place)
      (apart : ∀ index ≤ ended.length, place ≠ 0 + byteLength (ended.take index).flatten) :
      markerAt text marked place = [] := by
    apply markerAt_eq_nil
    intro number here
    have within := known number here
    rw [lineStart_take split (by omega), ← Nat.zero_add (byteLength _)]
    exact apart number (by omega)
  have pieces := weave_pieces last above 0 0 (fun line member => (ends line member).ne_nil) starts nothing
  rwa [Nat.zero_add, ← whole, ← split] at pieces

/-- The lines of a text with one marker line above each line that holds one of the offsets. -/
def markedLines (text : List Char) (offsets : List Nat) : List (List Char) :=
  (lines text).zipIdx.flatMap fun (line, number) =>
    if ∃ offset ∈ offsets, OnLine text offset number then [markerLine line (ending text number), line] else [line]

private theorem markedLines_eq (text : List Char) (offsets : List Nat) :
    markedLines text offsets = (lines text).zipIdx.flatMap fun (line, number) =>
      if ∃ offset ∈ offsets, OnLine text offset number then [markerAbove text number, line] else [line] := by
  apply List.flatMap_congr
  rintro ⟨line, number⟩ member
  have found := List.mk_mem_zipIdx_iff_getElem?.mp member
  simp only [markerAbove, found, Option.getD_some]

/-- Applying the markers of offsets adds marker lines and leaves all other lines as they are. -/
theorem lines_applyAll {text : String} {insertions : List Insertion} {offsets : List Nat}
    (made : ∀ insertion, insertion ∈ insertions ↔ ∃ offset ∈ offsets, marker? text offset = some insertion) :
    lines (applyAll text insertions).toList = markedLines text.toList offsets := by
  let marked (number : Nat) : Prop := ∃ offset ∈ offsets, OnLine text.toList offset number
  have known (number : Nat) (here : marked number) : number < (lines text.toList).length := by
    obtain ⟨_, _, on⟩ := here
    exact on.lt_length
  have markers (insertion : Insertion) : insertion ∈ insertions ↔ ∃ number, marked number ∧
      insertion = ⟨lineStart text.toList number, String.ofList (markerAbove text.toList number)⟩ := by
    rw [made]
    constructor
    · rintro ⟨offset, listed, found⟩
      obtain ⟨number, on, same⟩ := marker?_eq_some_iff.mp found
      exact ⟨number, ⟨offset, listed, on⟩, same⟩
    · rintro ⟨number, ⟨offset, listed, on⟩, same⟩
      exact ⟨offset, listed, marker?_eq_some_iff.mpr ⟨number, on, same⟩⟩
  obtain ⟨ended, last, split, _, ends, clean⟩ := Text.exists_lines text.toList
  rw [toList_applyAll fun place _ => stands_markerAt known markers place, weave_markerAt known, split,
    lines_flatMap 0 ends clean fun number here => endsLine_markerAbove (known number here), ← split, markedLines_eq]

/-! ## What a marker line is made of -/

/-- What ends the marker line above a line: the terminator of that line, or else the one of the line before it.
A line without terminator that is the only one takes a line feed. -/
inductive IsEnding (pieces : List (List Char)) : Nat → Option (List Char) → List Char → Prop
  | own {number : Nat} (terminator : List Char) : IsEnding pieces number (some terminator) terminator
  | above {number : Nat} {line content terminator : List Char} (found : pieces[number]? = some line)
      (divided : Text.IsDivided line content (some terminator)) : IsEnding pieces (number + 1) none terminator
  | only : IsEnding pieces 0 none ['\n']

/-- The indentation of the text of a line, the attribute, and an end of line. -/
def IsMarkerLine (pieces : List (List Char)) (number : Nat) (marker : List Char) : Prop :=
  ∃ line content terminator blank ending, pieces[number]? = some line ∧ Text.IsDivided line content terminator ∧
    Text.IsIndentation content blank ∧ IsEnding pieces number terminator ending ∧
      marker = blank ++ "[CanBeNull]".toList ++ ending

private theorem isEnding_ending {text line : List Char} {number : Nat} (found : (lines text)[number]? = some line) :
    IsEnding (lines text) number (Text.terminatorOf? line) (ending text number) := by
  rw [ending, Text.lineTerminator?_of_line found]
  cases Text.terminatorOf? line with
  | some terminator => exact .own terminator
  | none =>
    cases number with
    | zero => exact .only
    | succ number =>
      -- The line before it is not the last one, so it has a terminator.
      have inside := (List.getElem?_eq_some_iff.mp found).1
      rw [Text.length_lines] at inside
      obtain ⟨_, terminator, _, previous, _⟩ := Text.exists_lineTerminator? (Nat.lt_of_succ_lt_succ inside)
      obtain ⟨above, there, ended⟩ := Option.bind_eq_some_iff.mp previous
      rw [Text.line?_eq] at there
      have divided := Text.isDivided_of_mem_lines (List.mem_of_getElem? there)
      rw [ended] at divided
      rw [if_neg (Nat.succ_ne_zero number), Nat.add_sub_cancel, previous]
      exact .above there divided

private theorem isMarkerLine_markerAbove {text : List Char} {number : Nat} (inside : number < (lines text).length) :
    IsMarkerLine (lines text) number (markerAbove text number) := by
  have found := List.getElem?_eq_getElem inside
  refine ⟨_, _, _, _, _, found, Text.isDivided_of_mem_lines (List.getElem_mem inside), Text.isIndentation _,
    isEnding_ending found, ?_⟩
  rw [markerAbove, found]
  rfl

/-! ## All spans of a text -/

/-- The text with the markers of all spans. -/
def markAll (text : String) (spans : List Span) : String :=
  applyAll text (spans.filterMap fun span => marker? text span.start)

private theorem isSome_marker? (text : String) (offset : Nat) :
    (marker? text offset).isSome = isBoundary text.toList offset := by
  cases fits : isBoundary text.toList offset with
  | false => rw [marker?_eq_none fits, Option.isSome_none]
  | true =>
    obtain ⟨number, on⟩ := Text.exists_onLine fits
    rw [marker?_eq_some_iff.mpr ⟨number, on, rfl⟩, Option.isSome_some]

/-- Only the lines that hold an offset matter, not which offsets they hold. -/
theorem markedLines_congr {text : List Char} {offsets others : List Nat}
    (same : ∀ number, (∃ offset ∈ others, OnLine text offset number) ↔ ∃ offset ∈ offsets, OnLine text offset number) :
    markedLines text others = markedLines text offsets := by
  simp only [markedLines, same]

/-- Marking spans adds the marker lines of the lines on which they start. -/
theorem lines_markAll_eq (text : String) (spans : List Span) :
    lines (markAll text spans).toList = markedLines text.toList (spans.map (·.start)) := by
  apply lines_applyAll
  intro insertion
  simp only [List.mem_filterMap, List.mem_map, exists_exists_and_eq_and]

/-- Marking the spans of a text puts one marker line above each line on which a span starts, however many of
them start there and in whatever order they are given, and leaves the lines of the text as they are. A span
has a marker exactly when it starts at a boundary of the text. -/
theorem lines_markAll (text : String) (spans : List Span) :
    (∃ above : Nat → List Char,
      (∀ number < (lines text.toList).length, IsMarkerLine (lines text.toList) number (above number)) ∧
      lines (markAll text spans).toList = (lines text.toList).zipIdx.flatMap fun (line, number) =>
        if ∃ span ∈ spans, OnLine text.toList span.start number then [above number, line] else [line]) ∧
    (∀ offset, (marker? text offset).isSome = isBoundary text.toList offset) ∧
    (∀ offset number, OnLine text.toList offset number ↔
      isBoundary text.toList offset = true ∧ Text.lineOf? text.toList offset = some number) ∧
    ∀ others : List Span,
      (∀ number, (∃ span ∈ others, OnLine text.toList span.start number) ↔
        ∃ span ∈ spans, OnLine text.toList span.start number) →
      markAll text others = markAll text spans := by
  refine ⟨⟨markerAbove text.toList, fun number => isMarkerLine_markerAbove, ?_⟩, isSome_marker? text, ?_, ?_⟩
  · rw [lines_markAll_eq, markedLines_eq]
    simp only [List.mem_map, exists_exists_and_eq_and]
  · intro offset number
    constructor
    · intro on
      exact ⟨on.isBoundary, on.lineOf?⟩
    · rintro ⟨fits, found⟩
      obtain ⟨other, on⟩ := Text.exists_onLine fits
      rwa [Option.some.inj (found.symm.trans on.lineOf?)]
  · intro others same
    have equal : lines (markAll text others).toList = lines (markAll text spans).toList := by
      rw [lines_markAll_eq, lines_markAll_eq]
      apply markedLines_congr
      simpa only [List.mem_map, exists_exists_and_eq_and] using same
    have texts := congrArg List.flatten equal
    rw [Text.flatten_lines, Text.flatten_lines] at texts
    exact String.toList_inj.mp texts

end Insertion

end NullReturns
