import NullReturns.Json.Numeral
import NullReturns.Json.Quotation

/-! # Positioned documents

A document is what a text holds as far as it can be read, with all positions that a decoder may have to
report. Where the text stops being JSON the document ends in a value that says so, and decoders meet
that value only if they get that far: an earlier mismatch is reported instead.

Values under unknown keys are skipped. Skipping accepts more than reading does, so literals keep the
outcome of both.
-/

namespace NullReturns.Json

/-- What stands behind a comma and its white space. -/
inductive Follower where
  | closing
  | quote
  | other
  | ended
deriving DecidableEq, Repr

/-- What stands behind a value and its white space. -/
inductive Turn where
  | close
  | comma (rest : Position) (next : Follower)
  | other
  | ended
deriving DecidableEq, Repr

/-- The place behind a value and its white space. -/
structure Gap where
  here : Position
  turn : Turn
deriving DecidableEq, Repr

/-- A key of an object. `after` is the position behind it, `landing` the one behind the white space that
follows it and behind a closing brace if that comes next. -/
structure Key where
  name : Except Stop String
  skip : Option Stop
  after : Position
  landing : Position
  colon : Option Stop

mutual

inductive Doc where
  /-- The text ends where a value should start. -/
  | absent (stop : Stop)
  /-- No value starts with this character, or the word it starts is misspelt. -/
  | bad (start : Position) (first : Char) (stop : Stop)
  | null (start after : Position)
  | bool (start : Position) (value : Bool) (after : Position)
  | number (start : Position) (value : Except Stop Number) (skip : Option Stop) (after : Position)
  | string (start : Position) (value : Except Stop String) (skip : Option Stop) (after : Position)
  | array (start : Position) (lead : Gap) (items : Items)
  | object (start : Position) (lead : Gap) (members : Members)
  /-- An object whose first key is not a string but `first`. -/
  | misfit (start : Position) (first : Doc)

inductive Items where
  | nil
  | cons (value : Doc) (gap : Gap) (rest : Items)

inductive Members where
  | nil
  | cons (key : Key) (value : Doc) (gap : Gap) (rest : Members)

end

namespace Doc

/-- Consumes the rest of a word whose first letter has been seen. -/
def word (cursor : Cursor) : List Char → Except Stop Cursor
  | [] => .ok cursor
  | c :: more =>
    match cursor.rest with
    | [] => .error (cursor.stopHere .endInValue)
    | d :: _ => if d = c then word cursor.advance more else .error (cursor.stopAhead .expectedWord)

/-- A word such as `null`; `cursor` is at its first letter. -/
def ofWord (cursor : Cursor) (letters : List Char) (make : Position → Doc) : Doc × Option Cursor :=
  match cursor.rest, word cursor.advance letters with
  | [], _ => (.absent (cursor.stopHere .endInValue), none)
  | _, .ok next => (make next.position, some next)
  | first :: _, .error stop => (.bad cursor.position first stop, none)

def ofNumeral (cursor : Cursor) : Doc × Option Cursor :=
  match Numeral.scan cursor with
  | .ok (numeral, next) =>
    (.number cursor.position (numeral.toNumber next.position) none next.position, some next)
  | .error (read, skip) => (.number cursor.position (.error read) (some skip) cursor.position, none)

def ofQuotation (cursor : Cursor) : Doc × Option Cursor :=
  let literal := Quotation.read cursor.advance
  match literal.next with
  | .ok next => (.string cursor.position literal.value none next.position, some next)
  | .error skip => (.string cursor.position literal.value (some skip) cursor.position, none)

/-- The place at a cursor before which white space has been skipped. -/
def gapAt (cursor : Cursor) (closing : Char) : Gap × Option Cursor :=
  match cursor.rest with
  | [] => (⟨cursor.position, .ended⟩, none)
  | ',' :: _ =>
    let next := cursor.advance.skipSpace
    match next.rest with
    | [] => (⟨cursor.position, .comma next.position .ended⟩, none)
    | c :: _ =>
      if c = closing then (⟨cursor.position, .comma next.position .closing⟩, none)
      else
        let follower := if c = '"' then Follower.quote else .other
        (⟨cursor.position, .comma next.position follower⟩, some next)
  | c :: _ =>
    if c = closing then (⟨cursor.position, .close⟩, some cursor.advance)
    else (⟨cursor.position, .other⟩, none)

/-- A key, its colon, and where its value starts. `cursor` is at the opening quote. -/
def keyAt (cursor : Cursor) : Key × Option Cursor :=
  let literal := Quotation.read cursor.advance
  match literal.next with
  | .error skip => (⟨literal.value, some skip, cursor.position, cursor.position, none⟩, none)
  | .ok next =>
    let behind := next.skipSpace
    let landing := if behind.rest.head? = some '\x7d' then behind.position.next else behind.position
    let key (colon : Option Stop) : Key := ⟨literal.value, none, next.position, landing, colon⟩
    match behind.rest with
    | [] => (key (some (behind.stopHere .endInObject)), none)
    | ':' :: _ => (key none, some behind.advance)
    | _ => (key (some (behind.stopAhead .expectedColon)), none)

mutual

/-- Reads one value. The second part is where the text goes on, unless it ended or went wrong. -/
def value : Nat → Cursor → Doc × Option Cursor
  | 0, cursor => (.absent (cursor.stopHere .endInValue), none)
  | fuel + 1, before =>
    let cursor := before.skipSpace
    match cursor.rest with
    | [] => (.absent (cursor.stopHere .endInValue), none)
    | 'n' :: _ => ofWord cursor "ull".toList (.null cursor.position)
    | 't' :: _ => ofWord cursor "rue".toList (.bool cursor.position true)
    | 'f' :: _ => ofWord cursor "alse".toList (.bool cursor.position false)
    | '"' :: _ => ofQuotation cursor
    | '[' :: _ =>
      let inner := cursor.advance.skipSpace
      match inner.rest with
      | [] => (.array cursor.position ⟨inner.position, .ended⟩ .nil, none)
      | ']' :: _ => (.array cursor.position ⟨inner.position, .close⟩ .nil, some inner.advance)
      | _ =>
        let (items, next) := items fuel inner
        (.array cursor.position ⟨inner.position, .other⟩ items, next)
    | '\x7b' :: _ =>
      let inner := cursor.advance.skipSpace
      match inner.rest with
      | [] => (.object cursor.position ⟨inner.position, .ended⟩ .nil, none)
      | '\x7d' :: _ => (.object cursor.position ⟨inner.position, .close⟩ .nil, some inner.advance)
      | '"' :: _ =>
        let (members, next) := members fuel inner
        (.object cursor.position ⟨inner.position, .other⟩ members, next)
      | _ =>
        let (first, _) := value fuel inner
        (.misfit cursor.position first, none)
    | c :: _ =>
      if c = '-' || c.isDigit then ofNumeral cursor
      else (.bad cursor.position c (cursor.stopAhead .expectedValue), none)

/-- Reads the values of an array up to its closing bracket. -/
def items : Nat → Cursor → Items × Option Cursor
  | 0, _ => (.nil, none)
  | fuel + 1, cursor =>
    match value fuel cursor with
    | (first, none) => (.cons first ⟨cursor.position, .ended⟩ .nil, none)
    | (first, some after) =>
      let (gap, next) := gapAt after.skipSpace ']'
      match gap.turn, next with
      | .comma _ _, some next =>
        let (more, last) := items fuel next
        (.cons first gap more, last)
      | _, _ => (.cons first gap .nil, next)

/-- Reads the members of an object up to its closing brace. -/
def members : Nat → Cursor → Members × Option Cursor
  | 0, _ => (.nil, none)
  | fuel + 1, cursor =>
    match keyAt cursor with
    | (key, none) =>
      (.cons key (.absent (cursor.stopHere .endInValue)) ⟨cursor.position, .ended⟩ .nil, none)
    | (key, some start) =>
      match value fuel start with
      | (first, none) => (.cons key first ⟨start.position, .ended⟩ .nil, none)
      | (first, some after) =>
        let (gap, next) := gapAt after.skipSpace '\x7d'
        match gap.turn, next with
        | .comma _ .quote, some next =>
          let (more, last) := members fuel next
          (.cons key first gap more, last)
        | .close, _ => (.cons key first gap .nil, next)
        | _, _ => (.cons key first gap .nil, none)

end

/-- The first value of a text. Nothing behind it is looked at. -/
def parse (text : String) : Doc :=
  (value (2 * text.length + 2) (Cursor.ofString text)).1

/-- The position before the value. -/
def start : Doc → Position
  | .absent stop => stop.position
  | .bad start _ _ | .null start _ | .bool start _ _ | .number start _ _ _ | .string start _ _ _
  | .array start _ _ | .object start _ _ | .misfit start _ => start

end Doc

mutual

/-- Where skipping the value fails, if it does. -/
def Doc.skip? : Doc → Option Stop
  | .absent stop => some stop
  | .bad _ _ stop => some stop
  | .null _ _ | .bool _ _ _ => none
  | .number _ _ skip _ | .string _ _ skip _ => skip
  | .array _ lead items =>
    match lead.turn with
    | .close => none
    | .ended => some ⟨.endInArray, lead.here⟩
    | _ => items.skip?
  | .object _ lead members =>
    match lead.turn with
    | .close => none
    | .ended => some ⟨.endInObject, lead.here⟩
    | _ => members.skip?
  | .misfit _ first => some ⟨.keyNotString, first.start.next⟩

def Items.skip? : Items → Option Stop
  | .nil => none
  | .cons value gap rest =>
    match value.skip?, gap.turn with
    | some stop, _ => some stop
    | none, .close => none
    | none, .comma after .closing => some ⟨.expectedValue, after.next⟩
    | none, .comma after .ended => some ⟨.endInValue, after⟩
    | none, .comma _ _ => rest.skip?
    | none, .other => some ⟨.expectedCommaOrBracket, gap.here.next⟩
    | none, .ended => some ⟨.endInArray, gap.here⟩

def Members.skip? : Members → Option Stop
  | .nil => none
  | .cons key value gap rest =>
    match key.skip, key.colon, value.skip?, gap.turn with
    | some stop, _, _, _ | none, some stop, _, _ | none, none, some stop, _ => some stop
    | none, none, none, .close => none
    | none, none, none, .comma _ .quote => rest.skip?
    | none, none, none, .comma after .ended => some ⟨.endInObject, after⟩
    | none, none, none, .comma after _ => some ⟨.keyNotString, after.next⟩
    | none, none, none, .other => some ⟨.expectedCommaOrBrace, gap.here.next⟩
    | none, none, none, .ended => some ⟨.endInObject, gap.here⟩

end

end NullReturns.Json
