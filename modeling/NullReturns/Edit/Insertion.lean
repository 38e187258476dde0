import NullReturns.Text.Lines

/-! # Inserting marker lines

A fix adds one line above the declaration it concerns, indented as the line below it. All insertions into a
document are computed against its unedited text and applied together.
-/

namespace NullReturns.Text

/-! ## Indentation -/

/-- Unicode White_Space. -/
def isBlank (c : Char) : Bool :=
  let n := c.toNat
  (0x09 ≤ n && n ≤ 0x0d) || n == 0x20 || n == 0x85 || n == 0xa0 || n == 0x1680 ||
    (0x2000 ≤ n && n ≤ 0x200a) || n == 0x2028 || n == 0x2029 || n == 0x202f || n == 0x205f || n == 0x3000

/-- The longest blank start of a line. -/
def indentation (line : List Char) : List Char := line.takeWhile isBlank

end NullReturns.Text

namespace NullReturns

/-! ## Insertions -/

/-- Text to be put at a byte offset of an unedited document. -/
structure Insertion where
  offset : Nat
  text : String
deriving DecidableEq, Repr, Inhabited

namespace Insertion

/-- The attribute as it is written in source code. -/
def tag : String := "[CanBeNull]"

/-- The marker line above the line that holds a byte offset: the indentation of that line, the tag, and
that line's terminator. A last line without terminator takes the one of the line before it. -/
def marker? (text : String) (offset : Nat) : Option Insertion := do
  let chars := text.toList
  guard (Text.isBoundary chars offset)
  let line ← Text.lineOf? chars offset
  let start ← Text.lineStart? chars line
  let content ← Text.lineText? chars line
  let previous := if line = 0 then none else Text.lineTerminator? chars (line - 1)
  let terminator := ((Text.lineTerminator? chars line).or previous).getD ['\n']
  return ⟨start, String.ofList (Text.indentation content ++ tag.toList ++ terminator)⟩

/-- Later offsets first, and at one offset the greater text first. -/
def precedes (left right : Insertion) : Bool :=
  right.offset < left.offset || (left.offset == right.offset && decide (right.text ≤ left.text))

/-- Puts the insertion's text into `text`, which stays as it is when the offset fits no boundary. -/
def apply (text : List Char) (insertion : Insertion) : List Char :=
  match Text.cut? text insertion.offset with
  | some (before, after) => before ++ insertion.text.toList ++ after
  | none => text

/-- Applies insertions from the last offset to the first, so that those still to come keep their
offsets. One insertion is made at each offset, the one with the greatest text. -/
def applyAll (text : String) (insertions : List Insertion) : String :=
  let chars := text.toList
  let fitting := insertions.filter fun insertion => Text.isBoundary chars insertion.offset
  let ordered := (fitting.mergeSort precedes).eraseRepsBy fun left right => left.offset == right.offset
  String.ofList (ordered.foldl apply chars)

end Insertion

end NullReturns
