import NullReturns.Proofs.AnalysisResults
import NullReturns.Proofs.Columns
import NullReturns.Sarif.Result

/-! # Regions of spans

A region gives the place of a span up to three times: in bytes, in characters, and in lines and columns. The
last two are there together, exactly when both ends of the span are boundaries of the text. All three name
the same part of the text.
-/

namespace NullReturns.Sarif

open Text (bytes byteLength lineFeed isBoundary IsCursor)

/-- The place of a part of a text in lines and columns, and in characters. -/
structure Extent where
  startLine : Nat
  startColumn : Nat
  endLine : Nat
  endColumn : Nat
  charOffset : Nat
  charLength : Nat

namespace Extent

def linesAndColumns (extent : Extent) : List Nat :=
  [extent.startLine, extent.startColumn, extent.endLine, extent.endColumn]

/-- The region with all eight fields. -/
def region (extent : Extent) (span : Span) : Region where
  byteLength := some (signed span.length)
  byteOffset := some (signed span.start)
  charLength := some (signed extent.charLength)
  charOffset := some (signed extent.charOffset)
  endColumn := some (signed extent.endColumn)
  endLine := some (signed extent.endLine)
  startColumn := some (signed extent.startColumn)
  startLine := some (signed extent.startLine)

/-- Characters, lines and columns name the part of the text that the span names by its bytes. -/
structure Names (extent : Extent) (text : List Char) (span : Span) : Prop where
  characters : bytes ((text.drop extent.charOffset).take extent.charLength) =
    ((bytes text).drop span.start).take span.length
  ordered : extent.startLine < extent.endLine ∨
    extent.startLine = extent.endLine ∧ extent.startColumn ≤ extent.endColumn
  lines : extent.endLine = extent.startLine + (((bytes text).drop span.start).take span.length).count lineFeed
  columns : extent.endLine = extent.startLine → extent.endColumn = extent.startColumn + extent.charLength

/-- A region with all eight fields gives the extent of a span. The fields are the numbers themselves and not
only their last 64 bits, unless a line or a column of a text of 2 ^ 63 - 1 bytes comes to 2 ^ 63. -/
structure IsGiven (extent : Extent) (text : String) (span : Span) (region : Region) : Prop where
  region_eq : region = extent.region span
  bytes_eq : signed span.start = span.start ∧ signed span.length = span.length
  chars_eq : signed extent.charOffset = extent.charOffset ∧ signed extent.charLength = extent.charLength
  lines_eq : ∀ number ∈ extent.linesAndColumns,
    signed number = number ∨ number = 2 ^ 63 ∧ text.utf8ByteSize + 1 = 2 ^ 63
  names : span.start ≤ span.stop → extent.Names text.toList span

/-- The extent between two places of a text. -/
def between (front : List (List Char)) (part : List Char) (front' : List (List Char)) (part' : List Char) :
    Extent where
  startLine := front.length + 1
  startColumn := part.length + 1
  endLine := front'.length + 1
  endColumn := part'.length + 1
  charOffset := (front.flatten ++ part).length
  charLength := (front'.flatten ++ part').length - (front.flatten ++ part).length

end Extent

/-- The bytes between two places of a text are those of the characters between them. -/
private theorem take_drop_bytes (before content after : List Char) :
    ((bytes (before ++ (content ++ after))).drop (byteLength before)).take (byteLength content) = bytes content := by
  rw [Text.bytes_append, ← Text.length_bytes before, List.drop_left, Text.take_bytes]

section

variable {text part after part' after' : List Char} {span : Span} {front front' : List (List Char)}
  (cursor : IsCursor text span.start front part after) (cursor' : IsCursor text span.stop front' part' after')

include cursor cursor'

private theorem within?_eq :
    Region.within? text span = some ((Extent.between front part front' part').region span) := by
  simp only [Region.within?, cursor.lineColumn?_eq, cursor'.lineColumn?_eq, cursor.charOffset?_eq,
    cursor'.charOffset?_eq, bind, Option.bind_some, pure]
  rfl

private theorem between_names (upright : span.start ≤ span.stop) :
    (Extent.between front part front' part').Names text span := by
  obtain ⟨content, grown, rest, further, lines, same⟩ := cursor.exists_between cursor' upright
  have whole : text = front.flatten ++ part ++ (content ++ after') := by rw [cursor.whole, rest]
  have slice : ((bytes text).drop span.start).take span.length = bytes content := by
    rw [Span.length, further, Nat.add_sub_cancel_left, whole, ← cursor.before, take_drop_bytes]
  have charLength : (front'.flatten ++ part').length - (front.flatten ++ part).length = content.length := by
    rw [grown, List.length_append, Nat.add_sub_cancel_left]
  have column (clean : '\n' ∉ content) : part'.length = part.length + content.length := by
    rw [same clean, List.length_append]
  constructor
  · rw [slice]
    simp only [Extent.between, charLength]
    rw [whole, List.drop_left, List.take_left]
  · simp only [Extent.between]
    by_cases feed : '\n' ∈ content
    · have met := List.count_pos_iff.mpr feed
      omega
    · have unmet := List.count_eq_zero.mpr feed
      have grown := column feed
      omega
  · rw [slice, Text.count_bytes]
    simp only [Extent.between]
    omega
  · simp only [Extent.between, charLength]
    intro level
    have grown := column (List.count_eq_zero.mp (by omega))
    omega

end

/-- A number that exceeds the length of a text by one at most is too great only for a text of the greatest
length. -/
theorem signed_of_le {n length : Nat} (short : length < 2 ^ 63) (bound : n ≤ length + 1) :
    signed n = n ∨ n = 2 ^ 63 ∧ length + 1 = 2 ^ 63 := by
  rcases Nat.lt_or_ge n (2 ^ 63) with small | large
  · exact .inl (signed_of_lt small)
  · exact .inr (by omega)

namespace Region

private theorem isBoundary_of_within? {text : List Char} {span : Span} {region : Region}
    (found : within? text span = some region) :
    isBoundary text span.start = true ∧ isBoundary text span.stop = true := by
  simp only [within?, bind, Option.bind_eq_some_iff] at found
  obtain ⟨_, start, _, stop, _⟩ := found
  exact ⟨Text.isBoundary_of_lineColumn? start, Text.isBoundary_of_lineColumn? stop⟩

private theorem exists_isGiven {text : String} (short : text.utf8ByteSize < 2 ^ 63) {span : Span}
    (fits : isBoundary text.toList span.start = true ∧ isBoundary text.toList span.stop = true) :
    ∃ extent : Extent, extent.IsGiven text span (ofSpan (some text) span) := by
  obtain ⟨front, part, after, cursor⟩ := Text.exists_isCursor fits.1
  obtain ⟨front', part', after', cursor'⟩ := Text.exists_isCursor fits.2
  have start := cursor.offset_le
  have stop := cursor'.offset_le
  have bounds := cursor.length_le
  have bounds' := cursor'.length_le
  rw [Text.byteLength_toList] at start stop bounds bounds'
  refine ⟨Extent.between front part front' part', ?_, ?_, ?_, ?_, between_names cursor cursor'⟩
  · rw [ofSpan, Option.bind_some, within?_eq cursor cursor', Option.getD_some]
  · exact ⟨signed_of_lt (by omega), signed_of_lt (by rw [Span.length]; omega)⟩
  · simp only [Extent.between]
    exact ⟨signed_of_lt (by omega), signed_of_lt (by omega)⟩
  · intro number member
    apply signed_of_le short
    simp only [Extent.linesAndColumns, Extent.between, List.mem_cons, List.not_mem_nil, or_false] at member
    omega

/-- All eight fields are there. -/
def IsFull (region : Region) : Prop :=
  region.byteLength.isSome ∧ region.byteOffset.isSome ∧ region.charLength.isSome ∧ region.charOffset.isSome ∧
    region.endColumn.isSome ∧ region.endLine.isSome ∧ region.startColumn.isSome ∧ region.startLine.isSome

/-- The region of a span in a text has all eight fields where both ends of the span are boundaries of the text,
and otherwise only the two that give its bytes. All eight fields together name one part of the text. -/
theorem ofSpan_names_part (text : String) (short : text.utf8ByteSize < 2 ^ 63) (span : Span) :
    ((ofSpan (some text) span).IsFull ↔
      isBoundary text.toList span.start = true ∧ isBoundary text.toList span.stop = true) ∧
    (¬ (isBoundary text.toList span.start = true ∧ isBoundary text.toList span.stop = true) →
      ofSpan (some text) span =
        { byteLength := some (signed span.length), byteOffset := some (signed span.start) }) ∧
    (isBoundary text.toList span.start = true ∧ isBoundary text.toList span.stop = true →
      ∃ extent : Extent, extent.IsGiven text span (ofSpan (some text) span)) := by
  have missing (unfit : ¬ (isBoundary text.toList span.start = true ∧ isBoundary text.toList span.stop = true)) :
      ofSpan (some text) span = ofBytes span := by
    cases found : within? text.toList span with
    | some region => exact absurd (isBoundary_of_within? found) unfit
    | none => rw [ofSpan, Option.bind_some, found, Option.getD_none]
  refine ⟨⟨?_, ?_⟩, missing, exists_isGiven short⟩
  · intro full
    apply Classical.byContradiction
    intro unfit
    rw [missing unfit] at full
    exact Bool.false_ne_true full.2.2.1
  · intro fits
    obtain ⟨extent, given⟩ := exists_isGiven short fits
    rw [given.region_eq]
    exact ⟨rfl, rfl, rfl, rfl, rfl, rfl, rfl, rfl⟩

/-- A part that goes on to the next line, with characters of two bytes in front of it and in it. -/
theorem ofSpan_acrossLines :
    let text := "// Größe ünd müll\nobject GetObject() => null;"
    let span : Span := ⟨11, 28⟩
    text.utf8ByteSize < 2 ^ 63 ∧
    (isBoundary text.toList span.start = true ∧ isBoundary text.toList span.stop = true) ∧
    ofSpan (some text) span =
      { byteLength := some 17, byteOffset := some 11, charLength := some 15, charOffset := some 9
        endColumn := some 7, endLine := some 2, startColumn := some 10, startLine := some 1 } ∧
    ∃ extent : Extent, extent.IsGiven text span (ofSpan (some text) span) := by
  intro text span
  have short : text.utf8ByteSize < 2 ^ 63 := by decide
  have fits : isBoundary text.toList span.start = true ∧ isBoundary text.toList span.stop = true := by decide
  refine ⟨short, fits, by decide +kernel, ?_⟩
  exact (ofSpan_names_part text short span).2.2 fits

end Region

end NullReturns.Sarif
