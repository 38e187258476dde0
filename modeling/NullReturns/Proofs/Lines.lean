import NullReturns.Proofs.LineStarts

/-! # Offsets, cuts and lines

A byte offset is a boundary where the text can be cut in two. The lines of a text are what remains of it
when it is cut after every line feed: they make up the text, and no other pieces of that shape do. The
line of an offset is the number of line feeds before it. The table of line starts says where each of these
pieces is found.
-/

namespace NullReturns.Text

/-! ## Cuts -/

theorem byteLength_cons (c : Char) (rest : List Char) :
    byteLength (c :: rest) = c.utf8Size + byteLength rest := rfl

theorem byteLength_append (first second : List Char) :
    byteLength (first ++ second) = byteLength first + byteLength second := by
  induction first with
  | nil => simp only [List.nil_append, byteLength, Nat.zero_add]
  | cons c rest ih => simp only [List.cons_append, byteLength, ih, Nat.add_assoc]

theorem byteLength_pos {text : List Char} (nonempty : text ≠ []) : 0 < byteLength text := by
  cases text with
  | nil => contradiction
  | cons c rest =>
    have size := c.utf8Size_pos
    simp only [byteLength]
    omega

theorem length_le_byteLength (text : List Char) : text.length ≤ byteLength text := by
  induction text with
  | nil => exact Nat.le_refl 0
  | cons c rest ih =>
    have size := c.utf8Size_pos
    rw [List.length_cons, byteLength]
    omega

theorem byteLength_toList (text : String) : byteLength text.toList = text.utf8ByteSize := by
  have encoded (chars : List Char) : byteLength chars = (String.ofList chars).utf8ByteSize := by
    induction chars with
    | nil => rfl
    | cons c rest ih => simp [byteLength, ih, String.ofList_cons]
  rw [encoded, String.ofList_toList]

theorem cut?_eq_some_iff {text before after : List Char} {offset : Nat} :
    cut? text offset = some (before, after) ↔ text = before ++ after ∧ byteLength before = offset := by
  fun_induction cut? text offset generalizing before after with
  | case1 text =>
    constructor
    · intro cut
      obtain ⟨rfl, rfl⟩ := Prod.mk.inj (Option.some.inj cut)
      exact ⟨rfl, rfl⟩
    · rintro ⟨rfl, empty⟩
      cases before with
      | nil => rfl
      | cons c rest => exact absurd empty (Nat.ne_of_gt (byteLength_pos (List.cons_ne_nil c rest)))
  | case2 offset =>
    constructor
    · intro cut
      contradiction
    · rintro ⟨empty, length⟩
      obtain ⟨rfl, rfl⟩ := List.append_eq_nil_iff.mp empty.symm
      contradiction
  | case3 c rest offset fits ih =>
    simp only [Option.map_eq_some_iff, Prod.exists, Prod.mk.injEq]
    constructor
    · rintro ⟨front, back, cut, rfl, rfl⟩
      obtain ⟨rfl, length⟩ := ih.mp cut
      exact ⟨rfl, by simp only [byteLength]; omega⟩
    · rintro ⟨same, length⟩
      cases before with
      | nil => simp only [byteLength, reduceCtorEq] at length
      | cons d front =>
        obtain ⟨rfl, rfl⟩ := List.cons.inj same
        simp only [byteLength] at length
        exact ⟨front, after, ih.mpr ⟨rfl, by omega⟩, rfl, rfl⟩
  | case4 c rest offset wide =>
    constructor
    · intro cut
      contradiction
    · rintro ⟨same, length⟩
      cases before with
      | nil => simp only [byteLength, reduceCtorEq] at length
      | cons d front =>
        obtain ⟨rfl, rfl⟩ := List.cons.inj same
        simp only [byteLength] at length
        omega

theorem isBoundary_iff {text : List Char} {offset : Nat} :
    isBoundary text offset = true ↔ ∃ before after, text = before ++ after ∧ byteLength before = offset := by
  simp only [isBoundary, Option.isSome_iff_exists, Prod.exists, cut?_eq_some_iff]

/-- A slice is what stands between its two ends. -/
theorem slice?_eq_some_iff {text content : List Char} {span : Span} :
    slice? text span = some content ↔ ∃ before after, text = before ++ content ++ after ∧
      byteLength before = span.start ∧ byteLength before + byteLength content = span.stop := by
  rw [slice?]
  split
  · rename_i inverted
    rw [Span.isInverted, decide_eq_true_iff] at inverted
    constructor
    · intro found
      contradiction
    · rintro ⟨before, after, _, start, stop⟩
      omega
  · rename_i upright
    rw [Span.isInverted, decide_eq_true_iff] at upright
    simp only [bind, Option.bind_eq_some_iff, Prod.exists, cut?_eq_some_iff, Span.length, pure, Option.some_inj]
    constructor
    · rintro ⟨before, rest, ⟨rfl, start⟩, _, after, ⟨rfl, length⟩, rfl⟩
      exact ⟨before, after, (List.append_assoc _ _ _).symm, start, by omega⟩
    · rintro ⟨before, after, rfl, start, stop⟩
      exact ⟨before, content ++ after, ⟨List.append_assoc _ _ _, start⟩, content, after, ⟨rfl, by omega⟩, rfl⟩

/-! ## The pieces between line feeds -/

/-- The lines of a text, each with its line feed. The last one has none and may be empty. -/
def lines : List Char → List (List Char)
  | [] => [[]]
  | c :: rest =>
    if c = '\n' then [c] :: lines rest
    else
      match lines rest with
      | [] => [[c]]
      | line :: more => (c :: line) :: more

/-- One line feed, at the end. -/
def EndsLine (line : List Char) : Prop := ∃ content, line = content ++ ['\n'] ∧ '\n' ∉ content

theorem EndsLine.cons {line : List Char} (ends : EndsLine line) {c : Char} (other : c ≠ '\n') :
    EndsLine (c :: line) := by
  obtain ⟨content, rfl, clean⟩ := ends
  exact ⟨c :: content, rfl, List.not_mem_cons_of_ne_of_not_mem other.symm clean⟩

theorem EndsLine.ne_nil {line : List Char} (ends : EndsLine line) : line ≠ [] := by
  obtain ⟨content, rfl, _⟩ := ends
  exact List.append_ne_nil_of_right_ne_nil content (List.cons_ne_nil '\n' [])

theorem lines_append {line : List Char} (ends : EndsLine line) (rest : List Char) :
    lines (line ++ rest) = line :: lines rest := by
  obtain ⟨content, rfl, clean⟩ := ends
  induction content with
  | nil => simp only [List.nil_append, List.cons_append, lines, if_true]
  | cons c content ih =>
    have other := (List.ne_of_not_mem_cons clean).symm
    simp only [List.cons_append, lines, other, if_false, ih (List.not_mem_of_not_mem_cons clean)]

theorem lines_of_not_mem {text : List Char} (clean : '\n' ∉ text) : lines text = [text] := by
  induction text with
  | nil => rfl
  | cons c rest ih =>
    have other := (List.ne_of_not_mem_cons clean).symm
    simp only [lines, other, if_false, ih (List.not_mem_of_not_mem_cons clean)]

private theorem lines_flatten_append {ended : List (List Char)} (ends : ∀ line ∈ ended, EndsLine line)
    (rest : List Char) :
    lines (ended.flatten ++ rest) = ended ++ lines rest := by
  induction ended with
  | nil => rfl
  | cons line ended ih =>
    rw [List.flatten_cons, List.append_assoc, lines_append (ends line List.mem_cons_self),
      ih (fun other member => ends other (List.mem_cons_of_mem line member))]
    rfl

/-- Pieces of the shape of lines are the lines of what they make up. -/
theorem lines_flatten {ended : List (List Char)} (ends : ∀ line ∈ ended, EndsLine line) {last : List Char}
    (clean : '\n' ∉ last) : lines (ended.flatten ++ last) = ended ++ [last] := by
  rw [lines_flatten_append ends, lines_of_not_mem clean]

private theorem exists_pieces (text : List Char) :
    ∃ (ended : List (List Char)) (last : List Char),
      text = ended.flatten ++ last ∧ (∀ line ∈ ended, EndsLine line) ∧ '\n' ∉ last := by
  induction text with
  | nil => exact ⟨[], [], rfl, fun line member => absurd member List.not_mem_nil, List.not_mem_nil⟩
  | cons c rest ih =>
    obtain ⟨ended, last, rfl, ends, clean⟩ := ih
    by_cases feed : c = '\n'
    · refine ⟨[c] :: ended, last, rfl, ?_, clean⟩
      rintro line (_ | ⟨_, later⟩)
      · exact ⟨[], by rw [feed]; rfl, List.not_mem_nil⟩
      · exact ends line later
    · cases ended with
      | nil =>
        refine ⟨[], c :: last, rfl, ends, ?_⟩
        exact List.not_mem_cons_of_ne_of_not_mem (Ne.symm feed) clean
      | cons line ended =>
        refine ⟨(c :: line) :: ended, last, rfl, ?_, clean⟩
        rintro other (_ | ⟨_, later⟩)
        · exact (ends line List.mem_cons_self).cons feed
        · exact ends other (List.mem_cons_of_mem line later)

/-- A text is made up of its lines; all but the last end in a line feed. -/
theorem exists_lines (text : List Char) :
    ∃ ended last, lines text = ended ++ [last] ∧ text = ended.flatten ++ last ∧
      (∀ line ∈ ended, EndsLine line) ∧ '\n' ∉ last := by
  obtain ⟨ended, last, whole, ends, clean⟩ := exists_pieces text
  exact ⟨ended, last, by rw [whole, lines_flatten ends clean], whole, ends, clean⟩

theorem flatten_lines (text : List Char) : (lines text).flatten = text := by
  obtain ⟨ended, last, split, whole, _⟩ := exists_lines text
  rw [split, List.flatten_append, List.flatten_singleton, ← whole]

private theorem lines_ne_nil (text : List Char) : lines text ≠ [] := by
  obtain ⟨ended, last, split, _⟩ := exists_lines text
  rw [split]
  exact List.append_ne_nil_of_right_ne_nil _ (List.cons_ne_nil last [])

/-! ## The line of an offset -/

/-- The offset is a boundary of the text with this many line feeds before it. -/
def OnLine (text : List Char) (offset line : Nat) : Prop :=
  ∃ before after, text = before ++ after ∧ byteLength before = offset ∧ before.count '\n' = line

theorem length_lines (text : List Char) : (lines text).length = text.count '\n' + 1 := by
  induction text with
  | nil => rfl
  | cons c rest ih =>
    by_cases feed : c = '\n'
    · simp only [lines, feed, if_true, List.length_cons, ih, List.count_cons_self]
    · cases split : lines rest with
      | nil => exact absurd split (lines_ne_nil rest)
      | cons line more =>
        rw [split] at ih
        simp only [lines, feed, if_false, split, List.length_cons, List.count_cons_of_ne feed] at ih ⊢
        exact ih

theorem OnLine.lt_length {text : List Char} {offset line : Nat} (on : OnLine text offset line) :
    line < (lines text).length := by
  obtain ⟨before, after, rfl, _, rfl⟩ := on
  rw [length_lines, List.count_append]
  omega

theorem take_bytes (before after : List Char) : (bytes (before ++ after)).take (byteLength before) = bytes before := by
  rw [bytes_append, ← length_bytes, List.take_left]

theorem OnLine.lineOf? {text : List Char} {offset line : Nat} (on : OnLine text offset line) :
    lineOf? text offset = some line := by
  obtain ⟨before, after, rfl, rfl, rfl⟩ := on
  have within : byteLength before ≤ byteLength (before ++ after) := by
    rw [byteLength_append]
    exact Nat.le_add_right _ _
  rw [lineOf?_eq within, take_bytes, count_bytes]

/-! ## Inside a line -/

/-- What has no line feed is put in front of the first line. -/
theorem exists_lines_append {part : List Char} (clean : '\n' ∉ part) (text : List Char) :
    ∃ line more, lines text = line :: more ∧ lines (part ++ text) = (part ++ line) :: more := by
  obtain ⟨line, more, split⟩ := List.exists_cons_of_ne_nil (lines_ne_nil text)
  refine ⟨line, more, split, ?_⟩
  induction part with
  | nil => exact split
  | cons c part ih =>
    have other := (List.ne_of_not_mem_cons clean).symm
    simp only [List.cons_append, lines, other, if_false, ih (List.not_mem_of_not_mem_cons clean)]

/-- Every line in front of another one ends in a line feed. -/
theorem endsLine_of_lines_eq {text line : List Char} {front back : List (List Char)}
    (split : lines text = front ++ line :: back) : ∀ other ∈ front, EndsLine other := by
  obtain ⟨ended, last, whole, _, ends, _⟩ := exists_lines text
  have same := congrArg List.dropLast (split.symm.trans whole)
  rw [List.dropLast_append_of_ne_nil (List.cons_ne_nil line back), List.dropLast_concat] at same
  intro other member
  exact ends other (same ▸ List.mem_append_left _ member)

private theorem count_flatten {ended : List (List Char)} (ends : ∀ line ∈ ended, EndsLine line) :
    ended.flatten.count '\n' = ended.length := by
  have length := length_lines (ended.flatten ++ [])
  rw [lines_flatten ends List.not_mem_nil, List.append_nil, List.length_append, List.length_singleton] at length
  omega

theorem count_flatten_append {ended : List (List Char)} (ends : ∀ line ∈ ended, EndsLine line) {part : List Char}
    (clean : '\n' ∉ part) : (ended.flatten ++ part).count '\n' = ended.length := by
  rw [List.count_append, count_flatten ends, List.count_eq_zero.mpr clean, Nat.add_zero]

/-- An offset on a line divides the line in two. -/
theorem onLine_iff_lines_eq {text : List Char} {offset number : Nat} :
    OnLine text offset number ↔ ∃ front part rest back, lines text = front ++ (part ++ rest) :: back ∧
      front.length = number ∧ '\n' ∉ part ∧ byteLength front.flatten + byteLength part = offset := by
  constructor
  · rintro ⟨before, after, rfl, rfl, rfl⟩
    obtain ⟨ended, part, _, rfl, ends, clean⟩ := exists_lines before
    obtain ⟨rest, back, _, split⟩ := exists_lines_append clean after
    refine ⟨ended, part, rest, back, ?_, ?_, clean, (byteLength_append _ _).symm⟩
    · rw [List.append_assoc, lines_flatten_append ends, split]
    · exact (count_flatten_append ends clean).symm
  · rintro ⟨front, part, rest, back, split, rfl, clean, rfl⟩
    refine ⟨front.flatten ++ part, rest ++ back.flatten, ?_, byteLength_append _ _, ?_⟩
    · rw [← flatten_lines text, split, List.flatten_append, List.flatten_cons]
      simp only [List.append_assoc]
    · exact count_flatten_append (endsLine_of_lines_eq split) clean

/-! ## The places of lines -/

/-- Behind some whole lines starts the next one. -/
theorem lineStart?_flatten {ended : List (List Char)} (ends : ∀ line ∈ ended, EndsLine line) (rest : List Char) :
    lineStart? (ended.flatten ++ rest) ended.length = some (byteLength ended.flatten) := by
  rcases List.eq_nil_or_concat ended with rfl | ⟨front, line, rfl⟩
  · rfl
  · rw [List.concat_eq_append] at ends ⊢
    obtain ⟨content, rfl, clean⟩ := ends line (List.mem_append_right front List.mem_cons_self)
    have whole : (front ++ [content ++ ['\n']]).flatten ++ rest = (front.flatten ++ content) ++ '\n' :: rest := by
      simp only [List.flatten_append, List.flatten_singleton, List.append_assoc, List.cons_append, List.nil_append]
    have count : (front.flatten ++ content).count '\n' = front.length :=
      count_flatten_append (fun line member => ends line (List.mem_append_left _ member)) clean
    have feed : (bytes ((front.flatten ++ content) ++ '\n' :: rest))[byteLength (front.flatten ++ content)]? =
        some lineFeed := by
      rw [bytes_append, ← length_bytes, List.getElem?_append_right (Nat.le_refl _), Nat.sub_self, bytes_cons,
        bytes_lineFeed]
      rfl
    rw [whole, List.length_append, List.length_singleton]
    refine lineStart?_succ_iff.mpr ⟨_, feed, ?_, ?_⟩
    · rw [take_bytes, count_bytes, count]
    · rw [List.flatten_append, List.flatten_singleton, ← List.append_assoc, byteLength_append _ ['\n']]
      rfl

private theorem lineStart?_eq_none {text : List Char} {number : Nat} (outside : (lines text).length ≤ number) :
    lineStart? text number = none := by
  rw [length_lines] at outside
  rw [← Option.not_isSome_iff_eq_none, isSome_lineStart?, count_bytes]
  omega

section

variable {text line : List Char} {front back : List (List Char)}

theorem eq_of_lines_eq (split : lines text = front ++ line :: back) :
    text = front.flatten ++ (line ++ back.flatten) := by
  rw [← flatten_lines text, split, List.flatten_append, List.flatten_cons]

private theorem lineStart?_eq_of_split (split : lines text = front ++ line :: back) :
    lineStart? text front.length = some (byteLength front.flatten) := by
  rw [eq_of_lines_eq split]
  exact lineStart?_flatten (endsLine_of_lines_eq split) _

/-- The range of a line starts behind the lines before it and has room for it. -/
theorem lineRange?_eq (split : lines text = front ++ line :: back) :
    lineRange? text front.length =
      some ⟨byteLength front.flatten, byteLength front.flatten + byteLength line⟩ := by
  have next : (lineStart? text (front.length + 1)).getD (byteLength text) =
      byteLength front.flatten + byteLength line := by
    cases back with
    | nil =>
      have last : lineStart? text (front.length + 1) = none := by
        apply lineStart?_eq_none
        rw [split, List.length_append]
        exact Nat.le_refl _
      rw [last, Option.getD_none, eq_of_lines_eq split, List.flatten_nil, List.append_nil, byteLength_append]
    | cons after back =>
      have later := lineStart?_eq_of_split (split.trans (List.append_cons front line (after :: back)))
      rw [List.length_append, List.length_singleton, List.flatten_append, List.flatten_singleton,
        byteLength_append] at later
      rw [later, Option.getD_some]
  rw [lineRange?, lineStart?_eq_of_split split, next]
  rfl

end

theorem exists_split {text : List Char} {number : Nat} (inside : number < (lines text).length) :
    ∃ line back, lines text = (lines text).take number ++ line :: back ∧ (lines text)[number]? = some line ∧
      ((lines text).take number).length = number := by
  refine ⟨(lines text)[number], (lines text).drop (number + 1), ?_, List.getElem?_eq_getElem inside, ?_⟩
  · rw [List.getElem_cons_drop, List.take_append_drop]
  · rw [List.length_take, Nat.min_eq_left (Nat.le_of_lt inside)]

theorem lineStart?_eq {text : List Char} {line : Nat} (inside : line < (lines text).length) :
    lineStart? text line = some (byteLength ((lines text).take line).flatten) := by
  obtain ⟨content, back, split, _, length⟩ := exists_split inside
  have found := lineStart?_eq_of_split split
  rwa [length] at found

/-- What stands at the range of a line is the line. -/
theorem line?_eq (text : List Char) (number : Nat) : line? text number = (lines text)[number]? := by
  rcases Nat.lt_or_ge number (lines text).length with inside | outside
  · obtain ⟨line, back, split, found, length⟩ := exists_split inside
    have range := lineRange?_eq split
    rw [length] at range
    rw [line?, range, found]
    refine slice?_eq_some_iff.mpr ⟨_, back.flatten, ?_, rfl, rfl⟩
    rw [List.append_assoc]
    exact eq_of_lines_eq split
  · rw [line?, lineRange?, lineStart?_eq_none outside, List.getElem?_eq_none outside]
    rfl

end NullReturns.Text
