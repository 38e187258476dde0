import NullReturns.Proofs.Lines

/-! # Lines and columns of offsets

What stands before a boundary of a text is some whole lines and a part of the line after them. Their lengths
are the line and the column of the boundary. A later boundary has a greater line, or the same line and a
greater column, and the offset can be found again from the start of the line.
-/

namespace NullReturns.Text

/-- Before an offset of a text stand whole lines and a part of the line that holds the offset. -/
structure IsCursor (text : List Char) (offset : Nat) (front : List (List Char)) (part after : List Char) : Prop where
  whole : text = front.flatten ++ part ++ after
  ends : ∀ line ∈ front, EndsLine line
  clean : '\n' ∉ part
  before : byteLength (front.flatten ++ part) = offset

theorem exists_isCursor {text : List Char} {offset : Nat} (fits : isBoundary text offset = true) :
    ∃ front part after, IsCursor text offset front part after := by
  obtain ⟨before, after, rfl, rfl⟩ := isBoundary_iff.mp fits
  obtain ⟨front, part, _, rfl, ends, clean⟩ := exists_lines before
  exact ⟨front, part, after, rfl, ends, clean, rfl⟩

namespace IsCursor

variable {text part after : List Char} {offset : Nat} {front : List (List Char)}
  (cursor : IsCursor text offset front part after)

include cursor

private theorem count_before : (front.flatten ++ part).count '\n' = front.length :=
  count_flatten_append cursor.ends cursor.clean

theorem lineStart?_eq : lineStart? text front.length = some (byteLength front.flatten) := by
  rw [cursor.whole, List.append_assoc]
  exact lineStart?_flatten cursor.ends _

/-- The line is the number of whole lines before the offset, the column is the length of the part. -/
theorem lineColumn?_eq : lineColumn? text offset = some (front.length + 1, part.length + 1) := by
  have line := OnLine.lineOf? ⟨_, _, cursor.whole, cursor.before, cursor.count_before⟩
  have slice : slice? text ⟨byteLength front.flatten, offset⟩ = some part :=
    slice?_eq_some_iff.mpr ⟨front.flatten, after, cursor.whole, rfl, by rw [← cursor.before, byteLength_append]⟩
  simp only [lineColumn?, line, cursor.lineStart?_eq, slice, bind, Option.bind_some, pure]

theorem charOffset?_eq : charOffset? text offset = some (front.flatten ++ part).length := by
  rw [charOffset?, cut?_eq_some_iff.mpr ⟨cursor.whole, cursor.before⟩, Option.map_some]

theorem offset_le : offset ≤ byteLength text := by
  rw [cursor.whole, byteLength_append, cursor.before]
  exact Nat.le_add_right _ _

/-- A text has no more lines and no longer ones than it has bytes. -/
theorem length_le : front.length ≤ byteLength text ∧ part.length ≤ byteLength text ∧
    (front.flatten ++ part).length ≤ byteLength text := by
  have bound := length_le_byteLength text
  have total : text.length = (front.flatten ++ part).length + after.length := by
    rw [cursor.whole, List.length_append]
  have feeds : (front.flatten ++ part).count '\n' ≤ (front.flatten ++ part).length := List.count_le_length
  rw [cursor.count_before] at feeds
  rw [List.length_append] at total feeds ⊢
  omega

/-- From one offset to a later one the lines grow by the line feeds between them. Where there are none, the
part of the line grows by what is between them. -/
theorem exists_between {part' after' : List Char} {offset' : Nat} {front' : List (List Char)}
    (cursor' : IsCursor text offset' front' part' after') (order : offset ≤ offset') :
    ∃ content, front'.flatten ++ part' = front.flatten ++ part ++ content ∧ after = content ++ after' ∧
      offset' = offset + byteLength content ∧ front'.length = front.length + content.count '\n' ∧
        ('\n' ∉ content → part' = part ++ content) := by
  have same := cursor.whole.symm.trans cursor'.whole
  obtain ⟨content, grown, rest⟩ :
      ∃ content, front'.flatten ++ part' = front.flatten ++ part ++ content ∧ after = content ++ after' := by
    -- Of two ways to cut one text, the first half of one goes on from the first half of the other.
    rcases List.append_eq_append_iff.mp same with between | ⟨content, shrunk, rest⟩
    · exact between
    · have lengths := congrArg byteLength shrunk
      rw [byteLength_append _ content, cursor.before, cursor'.before] at lengths
      cases content with
      | nil => exact ⟨[], by rw [shrunk, List.append_nil, List.append_nil], rest.symm⟩
      | cons c content =>
        have room := byteLength_pos (List.cons_ne_nil c content)
        omega
  refine ⟨content, grown, rest, ?_, ?_, ?_⟩
  · rw [← cursor'.before, grown, byteLength_append, cursor.before]
  · rw [← cursor'.count_before, grown, List.count_append, cursor.count_before]
  · intro clean
    have clean' : '\n' ∉ part ++ content := by
      rw [List.mem_append]
      exact not_or.mpr ⟨cursor.clean, clean⟩
    -- Both ways to divide what stands before the later offset give its lines, the last of which is the part.
    have split := lines_flatten cursor'.ends cursor'.clean
    rw [grown, List.append_assoc, lines_flatten cursor.ends clean'] at split
    exact (List.singleton_inj.mp (List.append_inj' split rfl).2).symm

end IsCursor

theorem isBoundary_of_lineColumn? {text : List Char} {offset : Nat} {place : Nat × Nat}
    (found : lineColumn? text offset = some place) : isBoundary text offset = true := by
  simp only [lineColumn?, bind, Option.bind_eq_some_iff] at found
  obtain ⟨line, _, start, _, content, slice, _⟩ := found
  obtain ⟨before, after, rfl, _, stop⟩ := slice?_eq_some_iff.mp slice
  exact isBoundary_iff.mpr ⟨before ++ content, after, rfl, by rw [byteLength_append, stop]⟩

/-- A later boundary is on a later line, or further behind on the same line. -/
theorem IsCursor.lt {text part after part' after' : List Char} {offset offset' : Nat}
    {front front' : List (List Char)} (cursor : IsCursor text offset front part after)
    (cursor' : IsCursor text offset' front' part' after') (order : offset < offset') :
    front.length < front'.length ∨ front.length = front'.length ∧ part.length < part'.length := by
  obtain ⟨content, _, _, further, lines, same⟩ := cursor.exists_between cursor' (Nat.le_of_lt order)
  by_cases feed : '\n' ∈ content
  · have some := List.count_pos_iff.mpr feed
    omega
  · have none := List.count_eq_zero.mpr feed
    refine .inr ⟨by omega, ?_⟩
    rw [same feed, List.length_append]
    cases content with
    | nil => exact absurd order (Nat.not_lt.mpr (Nat.le_of_eq further))
    | cons c content => exact Nat.lt_add_of_pos_right (Nat.succ_pos _)

/-- Exactly the places where a text can be cut have a line and a column, both from one on. They ascend with the
offset, and the offset is found again by going so many characters on from the start of the line. -/
theorem lineColumn_of_boundaries (text : List Char) :
    (∀ offset, (lineColumn? text offset).isSome ↔
      ∃ before after, text = before ++ after ∧ byteLength before = offset) ∧
    (∀ offset offset' line column line' column', lineColumn? text offset = some (line, column) →
      lineColumn? text offset' = some (line', column') → offset < offset' →
      line < line' ∨ line = line' ∧ column < column') ∧
    ∀ offset line column, lineColumn? text offset = some (line, column) →
      1 ≤ line ∧ 1 ≤ column ∧ ∃ start before after, lineStart? text (line - 1) = some start ∧
        cut? text start = some (before, after) ∧ column - 1 ≤ after.length ∧
        offset = start + byteLength (after.take (column - 1)) := by
  refine ⟨?_, ?_, ?_⟩
  · intro offset
    rw [← isBoundary_iff]
    constructor
    · intro found
      obtain ⟨place, found⟩ := Option.isSome_iff_exists.mp found
      exact isBoundary_of_lineColumn? found
    · intro fits
      obtain ⟨front, part, after, cursor⟩ := exists_isCursor fits
      rw [cursor.lineColumn?_eq, Option.isSome_some]
  · intro offset offset' line column line' column' found found' order
    obtain ⟨front, part, after, cursor⟩ := exists_isCursor (isBoundary_of_lineColumn? found)
    obtain ⟨front', part', after', cursor'⟩ := exists_isCursor (isBoundary_of_lineColumn? found')
    rw [cursor.lineColumn?_eq, Option.some_inj, Prod.mk.injEq] at found
    rw [cursor'.lineColumn?_eq, Option.some_inj, Prod.mk.injEq] at found'
    have ascends := cursor.lt cursor' order
    omega
  · intro offset line column found
    obtain ⟨front, part, after, cursor⟩ := exists_isCursor (isBoundary_of_lineColumn? found)
    rw [cursor.lineColumn?_eq, Option.some_inj, Prod.mk.injEq] at found
    obtain ⟨rfl, rfl⟩ := found
    refine ⟨Nat.succ_pos _, Nat.succ_pos _, _, front.flatten, part ++ after, cursor.lineStart?_eq, ?_, ?_, ?_⟩
    · exact cut?_eq_some_iff.mpr ⟨by rw [cursor.whole, List.append_assoc], rfl⟩
    · rw [List.length_append]
      exact Nat.le_add_right _ _
    · rw [Nat.add_sub_cancel, List.take_left, ← byteLength_append, cursor.before]

end NullReturns.Text
