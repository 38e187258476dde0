import NullReturns.Proofs.MarkerLines
import NullReturns.Proofs.Merging
import Mathlib.Data.List.Induction

/-! # Marking one span after the other

Spans on different lines can also be marked one at a time. Each marker is then computed from a text that
holds the earlier ones, at a start that has moved by what was put in at or before it. A marker is a line of
its own: the lines of the unedited text stay as they are and keep their neighbours above, from which a last
line without terminator takes its end of line. So the markers are the same in every order, and in the end
the text is the one that has them all at once.
-/

namespace NullReturns.Insertion

open Text (byteLength byteLength_append isBoundary lines OnLine)

/-! ## One marker at a time -/

/-- Where an offset is after an insertion: what is at the insertion or behind it moves. -/
def shift (offset : Nat) (insertion : Insertion) : Nat :=
  if insertion.offset ≤ offset then offset + byteLength insertion.text.toList else offset

/-- A text that is being marked, and the markers that were put in, the latest one last. -/
structure Progress where
  text : String
  made : List Insertion := []

/-- Where an offset of the unedited text is by now. -/
def Progress.place (progress : Progress) (offset : Nat) : Nat := progress.made.foldl shift offset

/-- Marks a span that is given by its place in the unedited text. -/
def Progress.mark (progress : Progress) (span : Span) : Option Progress := do
  let insertion ← marker? progress.text (progress.place span.start)
  return ⟨applyAll progress.text [insertion], progress.made ++ [insertion]⟩

/-- The number of bytes that insertions put in at an offset or before it. -/
def bytesUpTo (insertions : List Insertion) (offset : Nat) : Nat :=
  byteLength ((insertions.filter (·.offset ≤ offset)).flatMap (·.text.toList))

private theorem bytesUpTo_concat (insertions : List Insertion) (insertion : Insertion) (offset : Nat) :
    bytesUpTo (insertions ++ [insertion]) offset =
      bytesUpTo insertions offset + if insertion.offset ≤ offset then byteLength insertion.text.toList else 0 := by
  rw [bytesUpTo, List.filter_append, List.flatMap_append, byteLength_append, ← bytesUpTo]
  by_cases before : insertion.offset ≤ offset
  · simp [before]
  · simp [before, byteLength]

/-! ## Lines as parts of a text -/

section

variable {text line : List Char} {front back : List (List Char)} {offset number other : Nat}

private theorem lineStart_length (split : lines text = front ++ back) :
    lineStart text front.length = byteLength front.flatten := by
  rw [lineStart, split, List.take_left]

private theorem lineStart_mono (text : List Char) (less : number ≤ other) :
    lineStart text number ≤ lineStart text other := by
  obtain ⟨more, rfl⟩ := Nat.exists_eq_add_of_le less
  rw [lineStart, lineStart, List.take_add, List.flatten_append, byteLength_append]
  exact Nat.le_add_right _ _

/-- Exactly the lines up to that of an offset start at the offset or before it. -/
theorem lineStart_le_iff (on : OnLine text offset number) (inside : other < (lines text).length) :
    lineStart text other ≤ offset ↔ other ≤ number := by
  obtain ⟨front, part, rest, back, split, rfl, clean, rfl⟩ := Text.onLine_iff_lines_eq.mp on
  constructor
  · intro before
    by_contra behind
    have least : lineStart text (front.length + 1) ≤ lineStart text other := lineStart_mono text (by omega)
    cases back with
    | nil =>
      rw [split, List.length_append, List.length_singleton] at inside
      omega
    | cons next back =>
      rw [List.append_cons] at split
      -- The line of the offset ends in a line feed, which is behind the offset.
      obtain ⟨content, ended, _⟩ :=
        Text.endsLine_of_lines_eq split (part ++ rest) (List.mem_append_right _ List.mem_cons_self)
      have room : 0 < byteLength rest := by
        apply Text.byteLength_pos
        rintro rfl
        rw [List.append_nil] at ended
        exact clean (ended ▸ List.mem_append_right content List.mem_cons_self)
      have start := lineStart_length split
      rw [List.length_append, List.length_singleton, List.flatten_append, List.flatten_singleton, byteLength_append,
        byteLength_append] at start
      omega
  · intro within
    have start := lineStart_length split
    have least := lineStart_mono text within
    omega

private theorem getElem?_length (split : lines text = front ++ line :: back) :
    (lines text)[front.length]? = some line := by
  rw [split, List.getElem?_append_right (Nat.le_refl _), Nat.sub_self, List.getElem?_cons_zero]

/-- A marker is made from the line below it and from the end of the line above. -/
theorem markerAbove_length (split : lines text = front ++ line :: back) :
    markerAbove text front.length =
      markerLine line (((Text.terminatorOf? line).or (front.getLast?.bind Text.terminatorOf?)).getD ['\n']) := by
  have previous : (if front.length = 0 then none else Text.lineTerminator? text (front.length - 1)) =
      front.getLast?.bind Text.terminatorOf? := by
    cases front using List.reverseRecOn with
    | nil => rfl
    | append_singleton front last =>
      rw [if_neg (by simp), Text.lineTerminator?, Text.line?_eq, split]
      simp
  rw [markerAbove, ending, previous, Text.lineTerminator?, Text.line?_eq, getElem?_length split, Option.getD_some,
    Option.bind_some]

/-- Where two texts have the same line below the same line, they have the same marker above it. -/
theorem marker?_of_same_line {text current : String} {upper lower : List (List Char)} {part rest : List Char}
    (split : lines text.toList = front ++ (part ++ rest) :: back)
    (split' : lines current.toList = upper ++ (part ++ rest) :: lower) (same : upper.getLast? = front.getLast?)
    (clean : '\n' ∉ part) : marker? current (byteLength upper.flatten + byteLength part) =
      some ⟨byteLength upper.flatten, String.ofList (markerAbove text.toList front.length)⟩ := by
  refine marker?_eq_some_iff.mpr ⟨upper.length, ?_, ?_⟩
  · exact Text.onLine_iff_lines_eq.mpr ⟨upper, part, rest, lower, split', rfl, clean, rfl⟩
  · rw [lineStart_length split', markerAbove_length split', markerAbove_length split, same]

end

/-! ## The lines of a text with markers -/

/-- One of the offsets is on the line. -/
def IsMarked (text : List Char) (offsets : List Nat) (number : Nat) : Prop :=
  ∃ offset ∈ offsets, OnLine text offset number

instance (text : List Char) (offsets : List Nat) (number : Nat) : Decidable (IsMarked text offsets number) :=
  inferInstanceAs (Decidable (∃ offset ∈ offsets, OnLine text offset number))

/-- A line, and the marker line above it if it is marked. -/
def withMarker (text : List Char) (offsets : List Nat) (entry : List Char × Nat) : List (List Char) :=
  if IsMarked text offsets entry.2 then [markerLine entry.1 (ending text entry.2), entry.1] else [entry.1]

/-- Lines from a number on, with the marker lines above the marked ones. -/
def marksFrom (text : List Char) (offsets : List Nat) (number : Nat) (part : List (List Char)) :
    List (List Char) :=
  (part.zipIdx number).flatMap (withMarker text offsets)

/-- The number of bytes of the marker lines above the first lines. -/
def room (text : List Char) (offsets : List Nat) (count : Nat) : Nat :=
  byteLength ((List.range count).flatMap fun number =>
    if IsMarked text offsets number then markerAbove text number else [])

section

variable {text line : List Char} {front back : List (List Char)} {offsets : List Nat} {offset number other : Nat}

private theorem isMarked_concat (on : OnLine text offset number) :
    IsMarked text (offsets ++ [offset]) other ↔ IsMarked text offsets other ∨ other = number := by
  simp only [IsMarked, List.mem_append, List.mem_singleton]
  constructor
  · rintro ⟨_, listed | rfl, there⟩
    · exact .inl ⟨_, listed, there⟩
    · exact .inr (there.unique on)
  · rintro (⟨_, listed, there⟩ | rfl)
    · exact ⟨_, .inl listed, there⟩
    · exact ⟨offset, .inr rfl, on⟩

private theorem marksFrom_append (first second : List (List Char)) :
    marksFrom text offsets number (first ++ second) =
      marksFrom text offsets number first ++ marksFrom text offsets (number + first.length) second := by
  rw [marksFrom, List.zipIdx_append, List.flatMap_append, ← marksFrom, ← marksFrom]

private theorem marksFrom_cons (more : List (List Char)) : marksFrom text offsets number (line :: more) =
    withMarker text offsets (line, number) ++ marksFrom text offsets (number + 1) more := by
  rw [marksFrom, List.zipIdx_cons, List.flatMap_cons, ← marksFrom]

private theorem markedLines_split (offsets : List Nat) (split : lines text = front ++ line :: back) :
    markedLines text offsets = marksFrom text offsets 0 front ++
      (withMarker text offsets (line, front.length) ++ marksFrom text offsets (front.length + 1) back) := by
  have whole : markedLines text offsets = marksFrom text offsets 0 (lines text) := rfl
  rw [whole, split, marksFrom_append, marksFrom_cons, Nat.zero_add]

private theorem markedLines_of_unmarked (split : lines text = front ++ line :: back)
    (unmarked : ¬ IsMarked text offsets front.length) : markedLines text offsets =
      marksFrom text offsets 0 front ++ line :: marksFrom text offsets (front.length + 1) back := by
  rw [markedLines_split offsets split, withMarker, if_neg unmarked, List.singleton_append]

/-- A further marker changes nothing above its line and below it. -/
theorem markedLines_concat (split : lines text = front ++ line :: back) (on : OnLine text offset front.length) :
    markedLines text (offsets ++ [offset]) = marksFrom text offsets 0 front ++
      markerAbove text front.length :: line :: marksFrom text offsets (front.length + 1) back := by
  have others (entry : List Char × Nat) (apart : entry.2 ≠ front.length) :
      withMarker text (offsets ++ [offset]) entry = withMarker text offsets entry := by
    simp only [withMarker, isMarked_concat on, apart, or_false]
  have above : marksFrom text (offsets ++ [offset]) 0 front = marksFrom text offsets 0 front := by
    refine List.flatMap_congr fun entry member => others entry ?_
    have := List.snd_lt_of_mem_zipIdx member
    omega
  have below : marksFrom text (offsets ++ [offset]) (front.length + 1) back =
      marksFrom text offsets (front.length + 1) back := by
    refine List.flatMap_congr fun entry member => others entry ?_
    have := List.le_snd_of_mem_zipIdx member
    omega
  have own : withMarker text (offsets ++ [offset]) (line, front.length) = [markerAbove text front.length, line] := by
    rw [withMarker, if_pos ((isMarked_concat on).mpr (.inr rfl)), markerAbove, getElem?_length split, Option.getD_some]
  rw [markedLines_split (offsets ++ [offset]) split, above, below, own]
  rfl

/-- The line above a line is the same with and without markers. -/
theorem getLast?_marksFrom (text : List Char) (offsets : List Nat) (front : List (List Char)) :
    (marksFrom text offsets 0 front).getLast? = front.getLast? := by
  cases front using List.reverseRecOn with
  | nil => rfl
  | append_singleton front last =>
    rw [marksFrom_append, marksFrom_cons, withMarker]
    split_ifs <;> simp [marksFrom]

private theorem room_succ (text : List Char) (offsets : List Nat) (count : Nat) : room text offsets (count + 1) =
    room text offsets count + if IsMarked text offsets count then byteLength (markerAbove text count) else 0 := by
  rw [room, List.range_succ, List.flatMap_append, byteLength_append, List.flatMap_singleton, ← room]
  split_ifs <;> rfl

private theorem room_mono (text : List Char) (offsets : List Nat) {count more : Nat} (less : count ≤ more) :
    room text offsets count ≤ room text offsets more := by
  induction more, less using Nat.le_induction with
  | base => exact Nat.le_refl _
  | succ more _ ih =>
    rw [room_succ]
    omega

private theorem room_concat (on : OnLine text offset number) (unmarked : ¬ IsMarked text offsets number) (count : Nat) :
    room text (offsets ++ [offset]) count =
      room text offsets count + if number < count then byteLength (markerAbove text number) else 0 := by
  induction count with
  | zero => rfl
  | succ count ih =>
    rw [room_succ, room_succ, ih]
    rcases Nat.lt_trichotomy number count with before | rfl | behind
    · have apart : count ≠ number := Nat.ne_of_gt before
      simp only [isMarked_concat on, apart, or_false, before, Nat.lt_succ_of_lt before, if_true]
      omega
    · simp only [isMarked_concat on, unmarked, Nat.lt_irrefl, Nat.lt_add_one, or_true, if_true, if_false]
    · have apart : count ≠ number := Nat.ne_of_lt behind
      simp only [isMarked_concat on, apart, or_false, Nat.not_lt_of_lt behind, Nat.not_lt.mpr behind, if_false,
        Nat.add_zero]

/-- Among lines and offsets that have been moved by markers, those before an offset are the same as ever. -/
theorem start_le_iff (offsets : List Nat) (on : OnLine text offset number) (inside : other < (lines text).length) :
    lineStart text other + room text offsets other ≤ offset + room text offsets (number + 1) ↔ other ≤ number := by
  have unmoved := lineStart_le_iff on inside
  constructor
  · intro before
    by_contra behind
    have more : room text offsets (number + 1) ≤ room text offsets other := room_mono text offsets (by omega)
    omega
  · intro within
    have less : room text offsets other ≤ room text offsets (number + 1) := room_mono text offsets (by omega)
    omega

/-- Markers above the first lines make room for themselves. -/
theorem byteLength_marksFrom (offsets : List Nat) (split : lines text = front ++ back) :
    byteLength (marksFrom text offsets 0 front).flatten =
      lineStart text front.length + room text offsets front.length := by
  induction front using List.reverseRecOn generalizing back with
  | nil => rfl
  | append_singleton front last ih =>
    rw [lineStart_length split]
    rw [List.append_assoc, List.singleton_append] at split
    have own : byteLength (withMarker text offsets (last, front.length)).flatten = byteLength last +
        if IsMarked text offsets front.length then byteLength (markerAbove text front.length) else 0 := by
      rw [withMarker, markerAbove, getElem?_length split, Option.getD_some]
      split_ifs
      · simp [byteLength_append, Nat.add_comm]
      · simp
    have above := ih split
    rw [lineStart_length split] at above
    rw [marksFrom_append, marksFrom_cons, Nat.zero_add, List.flatten_append, List.flatten_append, List.flatten_append,
      List.flatten_singleton, byteLength_append, byteLength_append, byteLength_append, above, own, List.length_append,
      List.length_singleton, room_succ]
    simp only [marksFrom, List.zipIdx_nil, List.flatMap_nil, List.flatten_nil, byteLength]
    omega

end

/-! ## All spans, one after the other -/

private theorem toList_markAll (text : String) (spans : List Span) :
    (markAll text spans).toList = (markedLines text.toList (spans.map (·.start))).flatten := by
  rw [← lines_markAll_eq, Text.flatten_lines]

/-- The spans in `done` are marked. -/
structure IsProgress (text : String) (done : List Span) (progress : Progress) : Prop where
  text_eq : progress.text = markAll text done
  place_eq : ∀ {offset number}, OnLine text.toList offset number →
    progress.place offset = offset + room text.toList (done.map (·.start)) (number + 1)
  bytes_eq : ∀ {offset number}, OnLine text.toList offset number →
    bytesUpTo (done.filterMap fun span => marker? text span.start) offset =
      room text.toList (done.map (·.start)) (number + 1)

private theorem isProgress_start (text : String) : IsProgress text [] { text } := by
  have bare : markAll text [] = text := by
    apply String.toList_inj.mp
    rw [markAll, List.filterMap_nil, toList_applyAll_eq_foldl]
    simp [inOrder, List.eraseRepsBy]
  have unmarked (number : Nat) : ¬ IsMarked text.toList [] number := by
    rintro ⟨_, listed, _⟩
    exact List.not_mem_nil listed
  have nothing (count : Nat) : room text.toList [] count = 0 := by
    induction count with
    | zero => rfl
    | succ count ih => rw [room_succ, ih, if_neg (unmarked count)]
  refine ⟨bare.symm, ?_, ?_⟩
  · intro offset number _
    rw [List.map_nil, nothing]
    rfl
  · intro offset number _
    rw [List.map_nil, nothing]
    rfl

/-- The marker of a line, to be put where the line starts in a text that has other markers. -/
def movedMarker (text : List Char) (offsets : List Nat) (number : Nat) : Insertion :=
  ⟨lineStart text number + room text offsets number, String.ofList (markerAbove text number)⟩

namespace IsProgress

variable {text : String} {done rest : List Span} {progress : Progress} {span : Span} {number : Nat}
  (state : IsProgress text done progress) (on : OnLine text.toList span.start number)
  (unmarked : ¬ IsMarked text.toList (done.map (·.start)) number)

include state on unmarked

/-- The current text has the line below the same line as the unedited text, so that its marker is the same in
both. -/
theorem marker?_place : marker? progress.text (progress.place span.start) =
    some (movedMarker text.toList (done.map (·.start)) number) := by
  obtain ⟨front, part, rest, back, split, rfl, clean, start⟩ := Text.onLine_iff_lines_eq.mp on
  have current := (lines_markAll_eq text done).trans (markedLines_of_unmarked split unmarked)
  rw [← state.text_eq] at current
  have height := byteLength_marksFrom (done.map (·.start)) split
  have place := state.place_eq on
  rw [room_succ, if_neg unmarked] at place
  have made := marker?_of_same_line split current (getLast?_marksFrom _ _ front) clean
  rw [movedMarker, ← height, ← made]
  rw [lineStart_length split] at height
  congr 1
  omega

private theorem applyAll_movedMarker :
    applyAll progress.text [movedMarker text.toList (done.map (·.start)) number] = markAll text (done ++ [span]) := by
  obtain ⟨front, part, rest, back, split, rfl, _, _⟩ := Text.onLine_iff_lines_eq.mp on
  have current := toList_markAll text done
  rw [← state.text_eq, markedLines_of_unmarked split unmarked, List.flatten_append] at current
  apply String.toList_inj.mp
  rw [toList_applyAll_singleton, current, apply_eq (byteLength_marksFrom _ split), toList_markAll text _,
    List.map_append, List.map_singleton, markedLines_concat split on, List.flatten_append, movedMarker,
    String.toList_ofList]
  rfl

/-- A span on a line that has no marker yet can be marked. -/
theorem mark : ∃ next, progress.mark span = some next ∧ IsProgress text (done ++ [span]) next := by
  refine ⟨⟨applyAll progress.text [movedMarker text.toList (done.map (·.start)) number],
    progress.made ++ [movedMarker text.toList (done.map (·.start)) number]⟩, ?_, ?_, ?_, ?_⟩
  · rw [Progress.mark, state.marker?_place on unmarked]
    rfl
  · exact state.applyAll_movedMarker on unmarked
  · intro offset line there
    have earlier := state.place_eq there
    have before := start_le_iff (done.map (·.start)) there on.lt_length
    rw [Progress.place] at earlier
    simp only [Progress.place, List.foldl_append, List.foldl_cons, List.foldl_nil, earlier, shift, movedMarker,
      before, List.map_append, List.map_singleton, room_concat on unmarked, String.toList_ofList, Nat.lt_succ_iff]
    split_ifs <;> omega
  · intro offset line there
    have original := marker?_eq_some_iff.mpr ⟨number, on, rfl⟩
    have appended : (done ++ [span]).filterMap (fun span => marker? text span.start) =
        (done.filterMap fun span => marker? text span.start) ++
          [⟨lineStart text.toList number, String.ofList (markerAbove text.toList number)⟩] := by
      rw [List.filterMap_append, List.filterMap_cons, original, List.filterMap_nil]
    rw [appended, bytesUpTo_concat, state.bytes_eq there, List.map_append, List.map_singleton,
      room_concat on unmarked, String.toList_ofList]
    simp only [lineStart_le_iff there on.lt_length, Nat.lt_succ_iff]

end IsProgress

/-- Spans on lines of their own can be marked one after the other. -/
theorem IsProgress.markEach {text : String} {done rest : List Span} {progress : Progress}
    (state : IsProgress text done progress)
    (fits : ∀ span ∈ rest, isBoundary text.toList span.start = true)
    (apart : (done ++ rest).Pairwise fun left right =>
      Text.lineOf? text.toList left.start ≠ Text.lineOf? text.toList right.start) :
    ∃ final, rest.foldlM Progress.mark progress = some final ∧ IsProgress text (done ++ rest) final := by
  induction rest generalizing done progress with
  | nil => exact ⟨progress, rfl, by rwa [List.append_nil]⟩
  | cons span rest ih =>
    obtain ⟨number, on⟩ := Text.exists_onLine (fits span List.mem_cons_self)
    have unmarked : ¬ IsMarked text.toList (done.map (·.start)) number := by
      rintro ⟨offset, listed, there⟩
      obtain ⟨earlier, member, rfl⟩ := List.mem_map.mp listed
      exact (List.pairwise_append.mp apart).2.2 earlier member span List.mem_cons_self
        (there.lineOf?.trans on.lineOf?.symm)
    obtain ⟨next, marked, state⟩ := state.mark on unmarked
    rw [List.append_cons] at apart ⊢
    obtain ⟨final, run, state⟩ := ih state (fun other member => fits other (List.mem_cons_of_mem span member)) apart
    exact ⟨final, by rw [List.foldlM_cons, marked]; exact run, state⟩

/-- Marking spans on different lines one after the other, in whatever order, comes to marking them all at
once. In the end every offset of the text has moved by the markers that the unedited text has for it and for
smaller offsets. -/
theorem markEach_eq_markAll (text : String) (spans order : List Span) (reordered : order.Perm spans)
    (fits : ∀ span ∈ spans, isBoundary text.toList span.start = true)
    (apart : spans.Pairwise fun left right =>
      Text.lineOf? text.toList left.start ≠ Text.lineOf? text.toList right.start) :
    ∃ final, order.foldlM Progress.mark { text } = some final ∧
      final.text = applyAll text (spans.filterMap fun span => marker? text span.start) ∧
      ∀ offset, isBoundary text.toList offset = true → final.place offset =
        offset + bytesUpTo (order.filterMap fun span => marker? text span.start) offset := by
  have apart' := (reordered.pairwise_iff fun different => Ne.symm different).mpr apart
  obtain ⟨final, run, state⟩ :=
    (isProgress_start text).markEach (fun span member => fits span (reordered.mem_iff.mp member)) apart'
  refine ⟨final, run, ?_, ?_⟩
  · rw [state.text_eq, markAll]
    exact applyAll_perm text (reordered.filterMap _)
  · intro offset fits
    obtain ⟨number, on⟩ := Text.exists_onLine fits
    rw [state.place_eq on, ← state.bytes_eq on]
    rfl

/-- Three names in a text whose last line has no terminator and takes that of the line above it, marked from
the last line to the first and then to the one between. -/
theorem markEach_lastLineFirst :
    let text := "// Größe\r\n  T A();\r\n\tT B();"
    let spans : List Span := [⟨3, 10⟩, ⟨16, 17⟩, ⟨25, 26⟩]
    let order : List Span := [⟨25, 26⟩, ⟨3, 10⟩, ⟨16, 17⟩]
    order.Perm spans ∧ (∀ span ∈ spans, isBoundary text.toList span.start = true) ∧
    (spans.Pairwise fun left right =>
      Text.lineOf? text.toList left.start ≠ Text.lineOf? text.toList right.start) ∧
    ∃ final, order.foldlM Progress.mark { text } = some final ∧ final.text =
      "[CanBeNull]\r\n// Größe\r\n  [CanBeNull]\r\n  T A();\r\n\t[CanBeNull]\r\n\tT B();" := by
  intro text spans order
  have reordered : order.Perm spans := by decide
  have fits : ∀ span ∈ spans, isBoundary text.toList span.start = true := by decide
  have apart : spans.Pairwise fun left right =>
      Text.lineOf? text.toList left.start ≠ Text.lineOf? text.toList right.start := by decide
  obtain ⟨final, run, same, _⟩ := markEach_eq_markAll text spans order reordered fits apart
  have lines : (markedLines text.toList (spans.map (·.start))).flatten =
      "[CanBeNull]\r\n// Größe\r\n  [CanBeNull]\r\n  T A();\r\n\t[CanBeNull]\r\n\tT B();".toList := by decide
  have batch := String.toList_inj.mp ((toList_markAll text spans).trans lines)
  exact ⟨reordered, fits, apart, final, run, same.trans batch⟩

end NullReturns.Insertion
