import NullReturns.Proofs.Lines

/-! # Ranges of lines

The ranges of the lines of a text follow one another from its start to its end, and each stops right behind
its line feed. An offset is on the line in whose range it is. The end of the text, which is in no range, is
on the last line.
-/

namespace NullReturns.Text

variable {text : List Char} {line start : Nat} {range : Span}

private theorem start_le_byteLength (found : lineStart? text line = some start) : start ≤ byteLength text := by
  rw [lineStart?_le_iff found, ← length_bytes, List.take_length]
  exact (isSome_lineStart? text line).mp (Option.isSome_of_eq_some found)

theorem lineRange?_eq_some_iff : lineRange? text line = some range ↔
    lineStart? text line = some range.start ∧ (lineStart? text (line + 1)).getD (byteLength text) = range.stop := by
  rcases range with ⟨first, stop⟩
  rw [lineRange?]
  cases lineStart? text line with
  | none => simp
  | some start => simp

/-- A line stops where the next one starts. The last one stops at the end of the text. -/
theorem lineRange?_cases (found : lineRange? text line = some range) :
    lineStart? text line = some range.start ∧
      (line < (bytes text).count lineFeed ∧ lineStart? text (line + 1) = some range.stop ∨
        line = (bytes text).count lineFeed ∧ range.stop = byteLength text) := by
  obtain ⟨here, stop⟩ := lineRange?_eq_some_iff.mp found
  have known := (isSome_lineStart? text line).mp (Option.isSome_of_eq_some here)
  refine ⟨here, ?_⟩
  cases next : lineStart? text (line + 1) with
  | some start =>
    have known' := (isSome_lineStart? text (line + 1)).mp (Option.isSome_of_eq_some next)
    rw [next, Option.getD_some] at stop
    exact .inl ⟨known', congrArg some stop⟩
  | none =>
    have unknown := mt (isSome_lineStart? text (line + 1)).mpr (Option.not_isSome_iff_eq_none.mpr next)
    rw [next, Option.getD_none] at stop
    exact .inr ⟨by omega, stop.symm⟩

private theorem isSome_lineRange? (text : List Char) (line : Nat) :
    (lineRange? text line).isSome ↔ line ≤ (bytes text).count lineFeed := by
  rw [← isSome_lineStart?, lineRange?]
  cases lineStart? text line <;> simp

private theorem start_le_stop (found : lineRange? text line = some range) : range.start ≤ range.stop := by
  obtain ⟨here, ⟨_, next⟩ | ⟨_, stop⟩⟩ := lineRange?_cases found
  · exact Nat.le_of_lt (ascends_lineStarts text line (line + 1) _ _ (Nat.lt_succ_self line) here next)
  · rw [stop]
    exact start_le_byteLength here

private theorem stop_le_byteLength (found : lineRange? text line = some range) : range.stop ≤ byteLength text := by
  obtain ⟨_, ⟨_, next⟩ | ⟨_, stop⟩⟩ := lineRange?_cases found
  · exact start_le_byteLength next
  · exact Nat.le_of_eq stop

/-- An offset in the range of a line has as many line feeds before it as the number of the line says. -/
theorem count_of_mem_lineRange? (found : lineRange? text line = some range) {offset : Nat}
    (behind : range.start ≤ offset) (before : offset < range.stop) :
    ((bytes text).take offset).count lineFeed = line := by
  obtain ⟨here, ⟨_, next⟩ | ⟨last, _⟩⟩ := lineRange?_cases found
  · have reached := (lineStart?_le_iff here offset).mp behind
    have further := mt (lineStart?_le_iff next offset).mpr (Nat.not_le.mpr before)
    omega
  · have reached := (lineStart?_le_iff here offset).mp behind
    have total := (List.take_sublist offset (bytes text)).count_le lineFeed
    omega

/-- The line of an offset is the one in whose range it is, or the last line at the end of the text. -/
theorem lineOf?_eq_some_iff {offset : Nat} : lineOf? text offset = some line ↔
    ∃ range, lineRange? text line = some range ∧ (range.start ≤ offset ∧ offset < range.stop ∨
      offset = byteLength text ∧ line = (bytes text).count lineFeed) := by
  constructor
  · intro holds
    have within : offset ≤ byteLength text := by
      cases Nat.lt_or_ge (byteLength text) offset with
      | inl outside =>
        rw [lineOf?, if_neg (Nat.not_le.mpr outside)] at holds
        contradiction
      | inr within => exact within
    rw [lineOf?_eq within, Option.some_inj] at holds
    have total := (List.take_sublist offset (bytes text)).count_le lineFeed
    obtain ⟨range, found⟩ := Option.isSome_iff_exists.mp ((isSome_lineRange? text line).mpr (by omega))
    refine ⟨range, found, ?_⟩
    obtain ⟨here, ⟨_, next⟩ | ⟨last, stop⟩⟩ := lineRange?_cases found
    · have behind := (lineStart?_le_iff here offset).mpr (by omega)
      have before := mt (lineStart?_le_iff next offset).mp (by omega)
      exact .inl ⟨behind, by omega⟩
    · have behind := (lineStart?_le_iff here offset).mpr (by omega)
      omega
  · rintro ⟨range, found, ⟨behind, before⟩ | ⟨rfl, rfl⟩⟩
    · have bound := stop_le_byteLength found
      rw [lineOf?_eq (by omega), count_of_mem_lineRange? found behind before]
    · rw [lineOf?_eq (Nat.le_refl _), ← length_bytes, List.take_length]

/-- The only line feed in the range of a line is at its end, and the last line has none. -/
theorem getElem?_eq_lineFeed_iff (found : lineRange? text line = some range) {place : Nat}
    (behind : range.start ≤ place) (before : place < range.stop) :
    (bytes text)[place]? = some lineFeed ↔ line < (bytes text).count lineFeed ∧ place + 1 = range.stop := by
  constructor
  · intro feed
    have next : lineStart? text (line + 1) = some (place + 1) :=
      lineStart?_succ_iff.mpr ⟨place, feed, count_of_mem_lineRange? found behind before, rfl⟩
    have known := (isSome_lineStart? text (line + 1)).mp (Option.isSome_of_eq_some next)
    obtain ⟨_, stop⟩ := lineRange?_eq_some_iff.mp found
    rw [next, Option.getD_some] at stop
    exact ⟨known, stop⟩
  · rintro ⟨further, stop⟩
    obtain ⟨_, ⟨_, next⟩ | ⟨last, _⟩⟩ := lineRange?_cases found
    · obtain ⟨other, feed, _, same⟩ := lineStart?_succ_iff.mp next
      have here : other = place := by omega
      rwa [here] at feed
    · omega

/-- Both ends of a line are boundaries of the text. -/
theorem isBoundary_of_lineStart? (found : lineStart? text line = some start) : isBoundary text start = true := by
  have inside : line < (lines text).length := by
    rw [length_lines, ← count_bytes]
    exact Nat.lt_succ_of_le ((isSome_lineStart? text line).mp (Option.isSome_of_eq_some found))
  obtain ⟨content, back, split, _, _⟩ := exists_split inside
  rw [lineStart?_eq inside, Option.some_inj] at found
  exact isBoundary_iff.mpr ⟨_, _, eq_of_lines_eq split, found⟩

private theorem isBoundary_byteLength (text : List Char) : isBoundary text (byteLength text) = true :=
  isBoundary_iff.mpr ⟨text, [], (List.append_nil text).symm, rfl⟩

/-- The range of a line, among the bytes of its text and among the ranges of the other lines. -/
structure IsLineRange (text : List Char) (line : Nat) (range : Span) : Prop where
  ordered : range.start ≤ range.stop
  /-- The first line starts with the text, every other one where the line before it stops, and the last one
  stops with the text. -/
  first : line = 0 → range.start = 0
  next : ∀ following, lineRange? text (line + 1) = some following → following.start = range.stop
  last : line = (bytes text).count lineFeed → range.stop = (bytes text).length
  start_isBoundary : isBoundary text range.start = true
  stop_isBoundary : isBoundary text range.stop = true
  /-- A line before the last one is not empty and ends with its only line feed. The last line has none. -/
  nonempty : line < (bytes text).count lineFeed → range.start < range.stop
  feeds : ∀ place, range.start ≤ place → place < range.stop →
    ((bytes text)[place]? = some lineFeed ↔ line < (bytes text).count lineFeed ∧ place + 1 = range.stop)

private theorem isLineRange (found : lineRange? text line = some range) : IsLineRange text line range where
  ordered := start_le_stop found
  first := by
    rintro rfl
    exact (Option.some.inj (lineRange?_cases found).1).symm
  next := by
    intro following found'
    obtain ⟨start, _⟩ := lineRange?_cases found'
    obtain ⟨_, stop⟩ := lineRange?_eq_some_iff.mp found
    rw [← stop, start, Option.getD_some]
  last := by
    intro last
    obtain ⟨_, ⟨further, _⟩ | ⟨_, stop⟩⟩ := lineRange?_cases found
    · omega
    · rw [stop, length_bytes]
  start_isBoundary := isBoundary_of_lineStart? (lineRange?_cases found).1
  stop_isBoundary := by
    obtain ⟨_, ⟨_, next⟩ | ⟨_, stop⟩⟩ := lineRange?_cases found
    · exact isBoundary_of_lineStart? next
    · rw [stop]
      exact isBoundary_byteLength text
  nonempty := by
    intro further
    obtain ⟨here, ⟨_, next⟩ | ⟨last, _⟩⟩ := lineRange?_cases found
    · exact ascends_lineStarts text line (line + 1) _ _ (Nat.lt_succ_self line) here next
    · omega
  feeds := by
    intro place behind before
    exact getElem?_eq_lineFeed_iff found behind before

/-- The line of an offset within a text is the number of line feeds before it, and looking it up never leads
before the first line. There is one line more than there are line feeds. Their ranges divide the text behind
its line feeds, and an offset is on the line in whose range it is, or on the last line at the end of the text. -/
theorem lineOf_and_lineRange (text : List Char) :
    (∀ offset, lineOf? text offset =
      if offset ≤ (bytes text).length then some (((bytes text).take offset).count lineFeed) else none) ∧
    (∀ offset, search (lineStarts text) offset ≠ .absent 0) ∧
    (∀ line, (lineRange? text line).isSome ↔ line ≤ (bytes text).count lineFeed) ∧
    (∀ line range, lineRange? text line = some range → IsLineRange text line range) ∧
    ∀ offset line, lineOf? text offset = some line ↔
      ∃ range, lineRange? text line = some range ∧ (range.start ≤ offset ∧ offset < range.stop ∨
        offset = (bytes text).length ∧ line = (bytes text).count lineFeed) := by
  refine ⟨?_, search_ne_absent_zero text, isSome_lineRange? text, ?_, ?_⟩
  · intro offset
    rw [length_bytes]
    split
    · rename_i within
      exact lineOf?_eq within
    · rename_i outside
      rw [lineOf?, if_neg outside]
  · intro line range found
    exact isLineRange found
  · intro offset line
    rw [length_bytes]
    exact lineOf?_eq_some_iff

end NullReturns.Text
