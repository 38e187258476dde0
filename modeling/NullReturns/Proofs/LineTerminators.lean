import NullReturns.Proofs.Lines

/-! # Line texts and line terminators

The text of a line and its terminator are taken from the line by two rules. The text loses a carriage return
at its end on every line, while the terminator has one only in front of a line feed. On a line that ends in a
line feed the rules agree, and text and terminator make up the line. The last line has no terminator, so a
carriage return at the end of it, which is one at the end of the whole text, is in neither.
-/

namespace NullReturns.Text

/-! ## One line -/

/-- A text without line feed, and behind it a line feed that takes along a carriage return in front of it. -/
structure IsEnded (content terminator : List Char) : Prop where
  clean : '\n' ∉ content
  feed : terminator = ['\r', '\n'] ∨ terminator = ['\n'] ∧ content.getLast? ≠ some '\r'

/-- A line told apart into its text and its terminator. A line without line feed has no terminator, and one
carriage return at its end is not part of its text. -/
inductive IsDivided : List Char → List Char → Option (List Char) → Prop
  | ended {content terminator : List Char} (isEnded : IsEnded content terminator) :
      IsDivided (content ++ terminator) content (some terminator)
  | plain {content : List Char} (clean : '\n' ∉ content) (other : content.getLast? ≠ some '\r') :
      IsDivided content content none
  | cut {content : List Char} (clean : '\n' ∉ content) : IsDivided (content ++ ['\r']) content none

theorem IsDivided.clean {line content : List Char} {terminator : Option (List Char)}
    (divided : IsDivided line content terminator) : '\n' ∉ content := by
  cases divided with
  | ended isEnded => exact isEnded.clean
  | plain clean _ => exact clean
  | cut clean => exact clean

/-- The text and the terminator of a line, one after the other. -/
def rejoinedLine (line : List Char) : List Char := contentOf line ++ (terminatorOf? line).getD []

private theorem dropFinal_concat (c : Char) (text : List Char) : dropFinal c (text ++ [c]) = text := by
  rw [dropFinal, if_pos List.getLast?_concat, List.dropLast_concat]

private theorem dropFinal_of_ne {c : Char} {text : List Char} (other : text.getLast? ≠ some c) :
    dropFinal c text = text :=
  if_neg other

/-- Only the dropped character is missing. -/
theorem dropFinal_append (c : Char) (text : List Char) :
    dropFinal c text ++ (if text.getLast? = some c then [c] else []) = text := by
  split
  · rename_i final
    obtain ⟨front, rfl⟩ := List.getLast?_eq_some_iff.mp final
    rw [dropFinal_concat]
  · rename_i other
    rw [dropFinal_of_ne other, List.append_nil]

private theorem terminatorOf?_concat (content : List Char) : terminatorOf? (content ++ ['\n']) =
    some (if content.getLast? = some '\r' then ['\r', '\n'] else ['\n']) := by
  have feed : ['\n'].isSuffixOf (content ++ ['\n']) = true :=
    List.isSuffixOf_iff_suffix.mpr (List.suffix_append content ['\n'])
  have both : ['\r', '\n'].isSuffixOf (content ++ ['\n']) = true ↔ content.getLast? = some '\r' := by
    rw [List.isSuffixOf_iff_suffix, List.getLast?_eq_some_iff]
    constructor
    · rintro ⟨front, same⟩
      rw [List.append_cons] at same
      exact ⟨front, (List.append_inj_left' same rfl).symm⟩
    · rintro ⟨front, rfl⟩
      exact ⟨front, List.append_cons front '\r' ['\n']⟩
  simp only [terminatorOf?, both, feed, if_true]
  split
  · rfl
  · rfl

private theorem terminatorOf?_of_not_mem {line : List Char} (clean : '\n' ∉ line) : terminatorOf? line = none := by
  have apart (front : List Char) : ¬ (front ++ ['\n']) <:+ line := by
    intro suffix
    apply clean
    exact suffix.subset (List.mem_append_right front List.mem_cons_self)
  have both : ¬ ['\r', '\n'].isSuffixOf line = true := mt List.isSuffixOf_iff_suffix.mp (apart ['\r'])
  have feed : ¬ ['\n'].isSuffixOf line = true := mt List.isSuffixOf_iff_suffix.mp (apart [])
  rw [terminatorOf?, if_neg both, if_neg feed]

/-- A line that ends in a line feed is its text and its terminator. -/
theorem EndsLine.divided {line : List Char} (ends : EndsLine line) : ∃ terminator,
    terminatorOf? line = some terminator ∧ contentOf line ++ terminator = line ∧
      IsEnded (contentOf line) terminator := by
  obtain ⟨body, rfl, clean⟩ := ends
  rw [terminatorOf?_concat, contentOf, dropFinal_concat]
  by_cases final : body.getLast? = some '\r'
  · obtain ⟨content, rfl⟩ := List.getLast?_eq_some_iff.mp final
    rw [dropFinal_concat, if_pos final]
    refine ⟨_, rfl, List.append_cons content '\r' ['\n'], ?_, .inl rfl⟩
    exact fun within => clean (List.mem_append_left _ within)
  · rw [dropFinal_of_ne final, if_neg final]
    exact ⟨_, rfl, rfl, clean, .inr ⟨rfl, final⟩⟩

private theorem contentOf_of_not_mem {line : List Char} (clean : '\n' ∉ line) :
    contentOf line = dropFinal '\r' line := by
  rw [contentOf, dropFinal_of_ne fun final => clean (List.mem_of_getLast? final)]

private theorem isDivided_of_not_mem {line : List Char} (clean : '\n' ∉ line) :
    IsDivided line (contentOf line) (terminatorOf? line) := by
  rw [terminatorOf?_of_not_mem clean, contentOf_of_not_mem clean]
  by_cases final : line.getLast? = some '\r'
  · obtain ⟨content, rfl⟩ := List.getLast?_eq_some_iff.mp final
    rw [dropFinal_concat]
    exact .cut fun within => clean (List.mem_append_left _ within)
  · rw [dropFinal_of_ne final]
    exact .plain clean final

/-- The text and the terminator of a line are those it has by its characters. -/
theorem isDivided_of_mem_lines {text line : List Char} (member : line ∈ lines text) :
    IsDivided line (contentOf line) (terminatorOf? line) := by
  obtain ⟨ended, last, split, _, ends, clean⟩ := exists_lines text
  rw [split, List.mem_append, List.mem_singleton] at member
  rcases member with member | rfl
  · obtain ⟨terminator, found, whole, isEnded⟩ := (ends line member).divided
    have divided := IsDivided.ended isEnded
    rwa [whole, ← found] at divided
  · exact isDivided_of_not_mem clean

private theorem EndsLine.rejoinedLine_eq {line : List Char} (ends : EndsLine line) : rejoinedLine line = line := by
  obtain ⟨terminator, found, whole, _⟩ := ends.divided
  rw [rejoinedLine, found, Option.getD_some, whole]

private theorem rejoinedLine_of_not_mem {line : List Char} (clean : '\n' ∉ line) :
    rejoinedLine line = dropFinal '\r' line := by
  rw [rejoinedLine, terminatorOf?_of_not_mem clean, contentOf_of_not_mem clean, Option.getD_none, List.append_nil]

/-! ## All lines -/

/-- The text of each line followed by its terminator, or by nothing where it has none. -/
def rejoined (text : List Char) : List Char :=
  (List.range (text.count '\n' + 1)).flatMap fun line =>
    (lineText? text line).getD [] ++ (lineTerminator? text line).getD []

section

variable {text line : List Char} {number : Nat}

private theorem lineText?_of_line (found : (lines text)[number]? = some line) :
    lineText? text number = some (contentOf line) := by
  rw [lineText?, line?_eq, found, Option.map_some]

theorem lineTerminator?_of_line (found : (lines text)[number]? = some line) :
    lineTerminator? text number = terminatorOf? line := by
  rw [lineTerminator?, line?_eq, found, Option.bind_some]

/-- A line before the last one has a text and a terminator, and no line feed but the one in the terminator. -/
theorem exists_lineTerminator? (before : number < text.count '\n') : ∃ content terminator,
    lineText? text number = some content ∧ lineTerminator? text number = some terminator ∧
      IsEnded content terminator := by
  obtain ⟨ended, last, split, whole, ends, clean⟩ := exists_lines text
  rw [whole, count_flatten_append ends clean] at before
  have found : (lines text)[number]? = some ended[number] := by
    rw [split, List.getElem?_append_left before, List.getElem?_eq_getElem before]
  obtain ⟨terminator, ending, _, isEnded⟩ := (ends _ (List.getElem_mem before)).divided
  refine ⟨_, terminator, lineText?_of_line found, ?_, isEnded⟩
  rw [lineTerminator?_of_line found, ending]

private theorem lineTerminator?_eq_none (behind : text.count '\n' ≤ number) : lineTerminator? text number = none := by
  obtain ⟨ended, last, split, whole, ends, clean⟩ := exists_lines text
  rw [whole, count_flatten_append ends clean] at behind
  rw [lineTerminator?, line?_eq, split, List.getElem?_append_right behind]
  cases number - ended.length with
  | zero => exact terminatorOf?_of_not_mem clean
  | succ further => rfl

private theorem lt_of_lineTerminator? {terminator : List Char} (found : lineTerminator? text number = some terminator) :
    number < text.count '\n' := by
  apply Nat.lt_of_not_le
  intro behind
  rw [lineTerminator?_eq_none behind] at found
  contradiction

private theorem isSome_lineTerminator? : (lineTerminator? text number).isSome ↔ number < text.count '\n' := by
  constructor
  · intro known
    obtain ⟨terminator, found⟩ := Option.isSome_iff_exists.mp known
    exact lt_of_lineTerminator? found
  · intro before
    obtain ⟨_, terminator, _, found, _⟩ := exists_lineTerminator? before
    exact Option.isSome_of_eq_some found

private theorem isSome_lineText? : (lineText? text number).isSome ↔ number ≤ text.count '\n' := by
  rw [lineText?, line?_eq, Option.isSome_map, isSome_getElem?, length_lines]
  exact Nat.lt_succ_iff

end

private theorem rejoined_eq_flatMap (text : List Char) : rejoined text = (lines text).flatMap rejoinedLine := by
  rw [rejoined, ← length_lines, List.flatMap_def, List.flatMap_def]
  congr 1
  apply List.ext_getElem
  · rw [List.length_map, List.length_range, List.length_map]
  · intro number _ inside
    rw [List.length_map] at inside
    have found : (lines text)[number]? = some (lines text)[number] := List.getElem?_eq_getElem inside
    rw [List.getElem_map, List.getElem_range, List.getElem_map, lineText?_of_line found, lineTerminator?_of_line found]
    rfl

private theorem flatMap_rejoinedLine {ended : List (List Char)} (ends : ∀ line ∈ ended, EndsLine line) :
    ended.flatMap rejoinedLine = ended.flatten := by
  induction ended with
  | nil => rfl
  | cons line ended ih =>
    rw [List.flatMap_cons, List.flatten_cons, (ends line List.mem_cons_self).rejoinedLine_eq]
    rw [ih fun other later => ends other (List.mem_cons_of_mem line later)]

/-- Behind complete lines, only the last line decides whether a text ends in a carriage return. -/
theorem getLast?_eq_carriageReturn_iff {ended : List (List Char)} (ends : ∀ line ∈ ended, EndsLine line)
    (last : List Char) : (ended.flatten ++ last).getLast? = some '\r' ↔ last.getLast? = some '\r' := by
  rcases List.eq_nil_or_concat last with rfl | ⟨front, c, rfl⟩
  · -- Behind nothing but complete lines the text ends in a line feed, unless it is empty.
    rcases List.eq_nil_or_concat ended with rfl | ⟨front, line, rfl⟩
    · rfl
    · rw [List.concat_eq_append] at ends ⊢
      obtain ⟨content, rfl, _⟩ := ends line (List.mem_append_right front List.mem_cons_self)
      rw [List.append_nil, List.flatten_append, List.flatten_singleton, ← List.append_assoc, List.getLast?_concat]
      simp
  · rw [List.concat_eq_append, ← List.append_assoc, List.getLast?_concat, List.getLast?_concat]

/-- Every line has a text, and every line but the last a terminator, with a carriage return wherever there is one
in front of the line feed. Text and terminator of all lines make up the text, without its last character where
that is a carriage return. -/
theorem lineText_and_lineTerminator (text : List Char) :
    (∀ line, (lineText? text line).isSome ↔ line ≤ text.count '\n') ∧
    (∀ line, (lineTerminator? text line).isSome ↔ line < text.count '\n') ∧
    (∀ line content terminator, lineText? text line = some content → lineTerminator? text line = some terminator →
      IsEnded content terminator) ∧
    rejoined text ++ (if text.getLast? = some '\r' then ['\r'] else []) = text := by
  refine ⟨fun line => isSome_lineText?, fun line => isSome_lineTerminator?, ?_, ?_⟩
  · intro line content terminator found found'
    obtain ⟨_, _, first, second, isEnded⟩ := exists_lineTerminator? (lt_of_lineTerminator? found')
    obtain rfl := Option.some.inj (first.symm.trans found)
    obtain rfl := Option.some.inj (second.symm.trans found')
    exact isEnded
  · obtain ⟨ended, last, split, whole, ends, clean⟩ := exists_lines text
    have rejoins : rejoined text = ended.flatten ++ dropFinal '\r' last := by
      rw [rejoined_eq_flatMap, split, List.flatMap_append, List.flatMap_singleton, flatMap_rejoinedLine ends,
        rejoinedLine_of_not_mem clean]
    have final : text.getLast? = some '\r' ↔ last.getLast? = some '\r' := by
      rw [whole]
      exact getLast?_eq_carriageReturn_iff ends last
    rw [rejoins, List.append_assoc]
    simp only [final]
    rw [dropFinal_append, ← whole]

end NullReturns.Text
