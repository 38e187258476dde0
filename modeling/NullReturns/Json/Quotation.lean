import NullReturns.Json.Cursor
import NullReturns.Text.Lines

/-! # String literals

A literal is first split into plain characters, escaped characters and 16-bit code units. Skipping a
literal needs no more. Reading it also joins surrogate pairs, and refuses surrogates that have no
partner.
-/

namespace NullReturns.Json

inductive Piece where
  | plain (c : Char)
  | escaped (c : Char)
  | codeUnit (value : Nat)

/-- How a literal ends: behind its closing quote, or where it cannot go on. The two stops are those of a
reader and of a skipper; `inEscape` marks an escape letter that does not exist. -/
inductive Ending where
  | closed (next : Cursor)
  | broken (read skip : Stop) (inEscape : Bool)

namespace Quotation

def simpleEscape? : Char → Option Char
  | '"' => some '"'
  | '\\' => some '\\'
  | '/' => some '/'
  | 'b' => some '\x08'
  | 'f' => some '\x0c'
  | 'n' => some '\n'
  | 'r' => some '\r'
  | 't' => some '\t'
  | _ => none

def hexDigit? (c : Char) : Option Nat :=
  if c.isDigit then some (c.toNat - '0'.toNat)
  else if 'a' ≤ c && c ≤ 'f' then some (c.toNat - 'a'.toNat + 10)
  else if 'A' ≤ c && c ≤ 'F' then some (c.toNat - 'A'.toNat + 10)
  else none

def hexValue? (digits : List Char) : Option Nat :=
  digits.foldlM (fun value c => (hexDigit? c).map (value * 16 + ·)) 0

def broken (fault : Fault) (position : Position) : Ending :=
  .broken ⟨fault, position⟩ ⟨fault, position⟩ false

/-- A code unit that is not four hexadecimal digits: its four bytes are consumed, if there are four. -/
def badCodeUnit (position : Position) (text : List Char) : Ending :=
  if Text.byteLength (text.take 4) < 4 then broken .endInString (position.afterAll text)
  else broken .invalidEscape (position.afterBytes 4 text)

/-- Splits the text behind an opening quote. Each piece comes with the position behind it; `done` holds
the pieces found so far, last one first. -/
def split (done : List (Piece × Position)) (position : Position) :
    List Char → List (Piece × Position) × Ending
  | [] => (done.reverse, broken .endInString position)
  | '"' :: rest => (done.reverse, .closed ⟨rest, position.next⟩)
  | ['\\'] => (done.reverse, broken .endInString position.next)
  | '\\' :: 'u' :: text =>
    let start := position.next.next
    match text with
    | a :: b :: c :: d :: rest =>
      match hexValue? [a, b, c, d] with
      | some value =>
        let next := start.next.next.next.next
        split ((.codeUnit value, next) :: done) next rest
      | none => (done.reverse, badCodeUnit start [a, b, c, d])
    | text => (done.reverse, badCodeUnit start text)
  | '\\' :: letter :: rest =>
    match simpleEscape? letter with
    | some c =>
      let next := position.next.next
      split ((.escaped c, next) :: done) next rest
    | none =>
      let stop := ⟨.invalidEscape, position.next.ahead (letter :: rest)⟩
      (done.reverse, .broken stop stop true)
  | c :: rest =>
    if c < ' ' then
      let read : Stop := ⟨.controlCharacter, position.ahead (c :: rest)⟩
      (done.reverse, .broken read ⟨.controlCharacter, position⟩ false)
    else
      let next := position.after c
      split ((.plain c, next) :: done) next rest

def isHighSurrogate (value : Nat) : Bool := 0xd800 ≤ value && value ≤ 0xdbff

def isLowSurrogate (value : Nat) : Bool := 0xdc00 ≤ value && value ≤ 0xdfff

/-- The character of a surrogate pair. -/
def pairedChar (high low : Nat) : Char :=
  Char.ofNat (0x10000 + (high - 0xd800) * 0x400 + (low - 0xdc00))

/-- What a high surrogate runs into when the pieces end behind it. -/
def afterHighSurrogate : Ending → Stop
  | .closed next => ⟨.unfinishedSurrogatePair, next.position⟩
  | .broken stop _ inEscape =>
    if inEscape || stop.fault = .controlCharacter then ⟨.unfinishedSurrogatePair, stop.position⟩
    else stop

/-- Joins the pieces of a literal. -/
def join (done : List Char) (ending : Ending) : List (Piece × Position) → Except Stop (List Char)
  | [] =>
    match ending with
    | .closed _ => .ok done.reverse
    | .broken stop _ _ => .error stop
  | (.plain c, _) :: rest => join (c :: done) ending rest
  | (.escaped c, _) :: rest => join (c :: done) ending rest
  | (.codeUnit value, position) :: rest =>
    if isLowSurrogate value then .error ⟨.loneSurrogate, position⟩
    else if isHighSurrogate value then
      match rest with
      | [] => .error (afterHighSurrogate ending)
      | (.plain _, _) :: _ => .error ⟨.unfinishedSurrogatePair, position.next⟩
      | (.escaped _, next) :: _ => .error ⟨.unfinishedSurrogatePair, next⟩
      | (.codeUnit low, next) :: rest =>
        if isLowSurrogate low then join (pairedChar value low :: done) ending rest
        else .error ⟨.loneSurrogate, next⟩
    else join (Char.ofNat value :: done) ending rest

/-- A literal as read and as skipped. `next` is where the text goes on when it can be skipped. -/
structure Result where
  value : Except Stop String
  next : Except Stop Cursor

/-- Reads a literal behind its opening quote. -/
def read (cursor : Cursor) : Result :=
  let (pieces, ending) := split [] cursor.position cursor.rest
  { value := (join [] ending pieces).map String.ofList
    next :=
      match ending with
      | .closed next => .ok next
      | .broken _ skip _ => .error skip }

end Quotation

end NullReturns.Json
