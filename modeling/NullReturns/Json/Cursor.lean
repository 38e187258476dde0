/-! # Reading positions

A cursor is the part of a text that is still to be read, with the position reached so far. Lines count from
one; a column is the number of bytes between the last line feed and the position.
-/

namespace NullReturns.Json

/-! ## Malformed text

Why a text is not JSON, and where that was noticed.
-/

structure Position where
  line : Nat
  column : Nat
deriving DecidableEq, Repr, Inhabited

/-- The position behind a one-byte character that is no line feed. -/
def Position.next (position : Position) : Position := { position with column := position.column + 1 }

inductive Fault where
  | endInArray
  | endInObject
  | endInString
  | endInValue
  | expectedColon
  | expectedCommaOrBracket
  | expectedCommaOrBrace
  | expectedWord
  | expectedValue
  | invalidEscape
  | invalidNumber
  | numberOutOfRange
  | controlCharacter
  | keyNotString
  | loneSurrogate
  | trailingComma
  | trailingCharacters
  | unfinishedSurrogatePair
  | tooDeep
deriving DecidableEq, Repr

def Fault.message : Fault → String
  | .endInArray => "EOF while parsing a list"
  | .endInObject => "EOF while parsing an object"
  | .endInString => "EOF while parsing a string"
  | .endInValue => "EOF while parsing a value"
  | .expectedColon => "expected `:`"
  | .expectedCommaOrBracket => "expected `,` or `]`"
  | .expectedCommaOrBrace => "expected `,` or `\x7d`"
  | .expectedWord => "expected ident"
  | .expectedValue => "expected value"
  | .invalidEscape => "invalid escape"
  | .invalidNumber => "invalid number"
  | .numberOutOfRange => "number out of range"
  | .controlCharacter => "control character (\\u0000-\\u001F) found while parsing a string"
  | .keyNotString => "key must be a string"
  | .loneSurrogate => "lone leading surrogate in hex escape"
  | .trailingComma => "trailing comma"
  | .trailingCharacters => "trailing characters"
  | .unfinishedSurrogatePair => "unexpected end of hex escape"
  | .tooDeep => "recursion limit exceeded"

/-- A fault and the position at which it is reported. -/
structure Stop where
  fault : Fault
  position : Position
deriving DecidableEq, Repr

/-! ## Cursors -/

/-- The position behind a character. -/
def Position.after (position : Position) (c : Char) : Position :=
  if c = '\n' then ⟨position.line + 1, 0⟩ else { position with column := position.column + c.utf8Size }

/-- The position behind the next byte of `text`, which may be inside a character. -/
def Position.ahead (position : Position) : List Char → Position
  | [] => position
  | c :: _ => if c = '\n' then ⟨position.line + 1, 0⟩ else position.next

/-- The position reached when `count` bytes of a text are consumed. -/
def Position.afterBytes (position : Position) : Nat → List Char → Position
  | 0, _ => position
  | _ + 1, [] => position
  | count + 1, c :: rest =>
    if c.utf8Size ≤ count + 1 then (position.after c).afterBytes (count + 1 - c.utf8Size) rest
    else { position with column := position.column + (count + 1) }

/-- The position at the end of a text. -/
def Position.afterAll (position : Position) (text : List Char) : Position :=
  text.foldl Position.after position

structure Cursor where
  rest : List Char
  position : Position

namespace Cursor

/-- The start of a text. -/
def ofString (text : String) : Cursor := ⟨text.toList, ⟨1, 0⟩⟩

/-- The position behind the next byte. -/
def ahead (cursor : Cursor) : Position := cursor.position.ahead cursor.rest

/-- Consumes one character, if there is one. -/
def advance (cursor : Cursor) : Cursor :=
  match cursor.rest with
  | [] => cursor
  | c :: rest => ⟨rest, cursor.position.after c⟩

def isSpace (c : Char) : Bool := c = ' ' || c = '\n' || c = '\t' || c = '\r'

def skipSpaceFrom (position : Position) : List Char → Cursor
  | [] => ⟨[], position⟩
  | c :: rest => if isSpace c then skipSpaceFrom (position.after c) rest else ⟨c :: rest, position⟩

/-- Consumes white space. -/
def skipSpace (cursor : Cursor) : Cursor := skipSpaceFrom cursor.position cursor.rest

/-- The cursor reports `fault` at its own position. -/
def stopHere (cursor : Cursor) (fault : Fault) : Stop := ⟨fault, cursor.position⟩

/-- The cursor reports `fault` at the next byte, which is counted as seen. -/
def stopAhead (cursor : Cursor) (fault : Fault) : Stop := ⟨fault, cursor.ahead⟩

end Cursor

end NullReturns.Json
