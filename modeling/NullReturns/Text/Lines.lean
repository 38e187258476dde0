/-! # Texts by bytes and by lines

Hosts point into a document by byte offsets of its UTF-8 text. An offset is meaningful only where a character
starts or the text ends. Lines are numbered from zero here; line and column pairs meant for readers count
from one, columns in characters.
-/

namespace NullReturns

/-! ## Byte ranges -/

/-- A half-open range of byte offsets. Hosts may send a range that ends before it starts. -/
structure Span where
  start : Nat
  stop : Nat
deriving DecidableEq, Repr, Inhabited

/-- The number of bytes covered, none when the range is inverted. -/
def Span.length (span : Span) : Nat := span.stop - span.start

/-- The range ends before it starts. -/
def Span.isInverted (span : Span) : Bool := span.stop < span.start

end NullReturns

namespace NullReturns.Text

/-! ## Separators -/

/-- The pieces between separators, one more than there are separators. -/
def split (separator : Char) : List Char → List (List Char)
  | [] => [[]]
  | c :: rest =>
    if c = separator then [] :: split separator rest
    else
      match split separator rest with
      | [] => [[c]]
      | piece :: more => (c :: piece) :: more

/-! ## Byte offsets

`cut?` is the one place where offsets meet characters: everything else is said about the two halves it
returns.
-/

/-- The number of bytes of the UTF-8 form. -/
def byteLength : List Char → Nat
  | [] => 0
  | c :: rest => c.utf8Size + byteLength rest

/-- The bytes of the UTF-8 form. -/
def bytes (text : List Char) : List UInt8 := text.flatMap String.utf8EncodeChar

/-- The characters before and after a byte offset; none past the end or inside a character. -/
def cut? : List Char → Nat → Option (List Char × List Char)
  | text, 0 => some ([], text)
  | [], _ + 1 => none
  | c :: rest, n + 1 =>
    if c.utf8Size ≤ n + 1 then
      (cut? rest (n + 1 - c.utf8Size)).map fun (before, after) => (c :: before, after)
    else none

/-- The offset is within the text and splits no character. -/
def isBoundary (text : List Char) (offset : Nat) : Bool := (cut? text offset).isSome

/-- The characters of a byte range; none when it is inverted or one of its ends fits no boundary. -/
def slice? (text : List Char) (span : Span) : Option (List Char) :=
  if span.isInverted then none
  else do
    let (_, after) ← cut? text span.start
    let (content, _) ← cut? after span.length
    return content

/-- The number of characters before a byte offset. -/
def charOffset? (text : List Char) (offset : Nat) : Option Nat :=
  (cut? text offset).map fun (before, _) => before.length

/-! ## Lines and columns

Only a line feed ends a line, and it belongs to the line it ends. The lines of a text are known by a table of
the byte offsets at which they start. An offset is looked up there by halving.
-/

/-- Where a number stands in an ascending table, or where it would have to be put in. -/
inductive Place where
  | found (index : Nat)
  | absent (next : Nat)
deriving DecidableEq, Repr

/-- Looks for a number among the entries from `low` up to `high`, halving what is left. -/
@[semireducible]
def searchBetween (table : Array Nat) (number low high : Nat) (inside : high ≤ table.size) : Place :=
  if left : low < high then
    let middle := low + (high - low) / 2
    if table[middle] = number then .found middle
    else if table[middle] < number then searchBetween table number (middle + 1) high inside
    else searchBetween table number low middle (by omega)
  else .absent low
termination_by high - low

/-- Looks for a number in an ascending table. -/
def search (table : Array Nat) (number : Nat) : Place :=
  searchBetween table number 0 table.size (Nat.le_refl _)

/-- The byte that ends a line. In UTF-8 it is part of no other character. -/
def lineFeed : UInt8 := 10

/-- The offsets right behind the line feeds among some bytes, the first of which has the given offset. -/
def startsBehind (offset : Nat) : List UInt8 → List Nat
  | [] => []
  | byte :: rest =>
    if byte = lineFeed then (offset + 1) :: startsBehind (offset + 1) rest else startsBehind (offset + 1) rest

/-- The byte offset of the first character of every line. -/
def lineStarts (text : List Char) : Array Nat := (0 :: startsBehind 0 (bytes text)).toArray

/-- The line that holds a byte offset. The end of the text belongs to the last line. -/
def lineOf? (text : List Char) (offset : Nat) : Option Nat :=
  if offset ≤ byteLength text then
    match search (lineStarts text) offset with
    | .found line => some line
    | .absent next => some (next - 1)
  else none

def lineStart? (text : List Char) (line : Nat) : Option Nat := (lineStarts text)[line]?

/-- The bytes of a line, its line feed included. -/
def lineRange? (text : List Char) (line : Nat) : Option Span := do
  let start ← lineStart? text line
  return ⟨start, (lineStart? text (line + 1)).getD (byteLength text)⟩

/-- A line with its line feed. -/
def line? (text : List Char) (line : Nat) : Option (List Char) := do slice? text (← lineRange? text line)

/-- Drops one `c` at the end. -/
def dropFinal (c : Char) (text : List Char) : List Char :=
  if text.getLast? = some c then text.dropLast else text

/-- A line without its terminator. A carriage return at the end goes too, also from a line without
line feed. -/
def contentOf (line : List Char) : List Char := dropFinal '\r' (dropFinal '\n' line)

/-- What ends a line: a line feed with or without carriage return before it. -/
def terminatorOf? (line : List Char) : Option (List Char) :=
  if ['\r', '\n'].isSuffixOf line then some ['\r', '\n']
  else if ['\n'].isSuffixOf line then some ['\n']
  else none

def lineText? (text : List Char) (line : Nat) : Option (List Char) := (line? text line).map contentOf

def lineTerminator? (text : List Char) (line : Nat) : Option (List Char) := (line? text line).bind terminatorOf?

/-- Line and column of a byte offset, both from one. -/
def lineColumn? (text : List Char) (offset : Nat) : Option (Nat × Nat) := do
  let line ← lineOf? text offset
  let start ← lineStart? text line
  let before ← slice? text ⟨start, offset⟩
  return (line + 1, before.length + 1)

end NullReturns.Text
