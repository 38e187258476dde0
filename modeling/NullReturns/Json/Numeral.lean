import NullReturns.Json.Cursor

/-! # Numerals

A numeral is read into a whole number when it has neither fraction nor exponent and fits 64 bits, and
into a floating-point number otherwise. Digits are collected into a 64-bit significand; digits that no
longer fit only count towards the exponent. The significand is then scaled by one power of ten.
-/

namespace NullReturns.Json

inductive Number where
  | natural (value : Nat)
  | negative (value : Int)
  | float (value : Float)

/-- The written parts of a numeral. `exponentAt` is the position of the first exponent digit. -/
structure Numeral where
  isNegative : Bool
  whole : List Char
  fraction : Option (List Char)
  exponent : Option (Bool × List Char)
  exponentAt : Position

namespace Numeral

def takeDigits (cursor : Cursor) : List Char × Cursor :=
  let digits := cursor.rest.takeWhile Char.isDigit
  (digits, ⟨cursor.rest.drop digits.length,
    { cursor.position with column := cursor.position.column + digits.length }⟩)

/-- Where a digit is missing. A text that ends there is a fault of its own, unless the numeral is only
skipped. -/
def missingDigit (cursor : Cursor) : Stop × Stop :=
  let skipped := cursor.stopAhead .invalidNumber
  (if cursor.rest.isEmpty then cursor.stopHere .endInValue else skipped, skipped)

/-- The digits of a whole part, which has no needless zero in front. On failure, here and below, what a
reader reports and what a skipper reports. -/
def scanWhole (cursor : Cursor) : Except (Stop × Stop) (List Char × Cursor) :=
  match takeDigits cursor with
  | ([], _) => .error (missingDigit cursor)
  | (digits, next) =>
    if digits.head? == some '0' && digits.length > 1 then
      let stop := cursor.advance.stopAhead .invalidNumber
      .error (stop, stop)
    else .ok (digits, next)

/-- The digits of a fraction, if there is one. -/
def scanFraction (cursor : Cursor) : Except (Stop × Stop) (Option (List Char) × Cursor) :=
  if cursor.rest.head? == some '.' then
    let point := cursor.advance
    match takeDigits point with
    | ([], _) => .error (missingDigit point)
    | (digits, next) => .ok (some digits, next)
  else .ok (none, cursor)

/-- Whether an exponent is negative, and its digits, if there is one; then the position of its digits. -/
def scanExponent (cursor : Cursor) :
    Except (Stop × Stop) (Option (Bool × List Char) × Position × Cursor) :=
  if cursor.rest.head? == some 'e' || cursor.rest.head? == some 'E' then
    let mark := cursor.advance
    let sign := mark.rest.head?
    let first := if sign == some '+' || sign == some '-' then mark.advance else mark
    match takeDigits first with
    | ([], _) => .error (missingDigit first)
    | (digits, next) => .ok (some (sign == some '-', digits), first.position, next)
  else .ok (none, cursor.position, cursor)

/-- Splits a numeral into its parts. -/
def scan (cursor : Cursor) : Except (Stop × Stop) (Numeral × Cursor) := do
  let isNegative := cursor.rest.head? == some '-'
  let (whole, afterWhole) ← scanWhole (if isNegative then cursor.advance else cursor)
  let (fraction, afterFraction) ← scanFraction afterWhole
  let (exponent, exponentAt, next) ← scanExponent afterFraction
  return (⟨isNegative, whole, fraction, exponent, exponentAt⟩, next)

def digitValue (c : Char) : Nat := c.toNat - '0'.toNat

/-- Appends digits to a number up to a limit. The digits from the first that no longer fits are left. -/
def collect (limit : Nat) : Nat → List Char → Nat × List Char
  | value, [] => (value, [])
  | value, digit :: rest =>
    let next := value * 10 + digitValue digit
    if limit < next then (value, digit :: rest) else collect limit next rest

def maxNatural : Nat := 0xffffffffffffffff

def maxExponent : Nat := 0x7fffffff

def powerOfTen (exponent : Nat) : Float := Float.ofScientific 1 false exponent

/-- Divides by a power of ten in steps of at most `10 ^ 308`. -/
def scaleDown (value : Float) (exponent : Nat) : Float :=
  if exponent ≤ 308 then value / powerOfTen exponent
  else if value == 0.0 then value
  else scaleDown (value / powerOfTen 308) (exponent - 308)
termination_by exponent
decreasing_by omega

/-- `significand * 10 ^ exponent`; none when that exceeds every finite number. -/
def scale? (significand : Nat) (exponent : Int) : Option Float :=
  let value := significand.toUInt64.toFloat
  if exponent < 0 then some (scaleDown value exponent.natAbs)
  else if exponent ≤ 308 then
    let scaled := value * powerOfTen exponent.natAbs
    if scaled.isInf then none else some scaled
  else if value == 0.0 then some value
  else none

/-- Keeps a 32-bit exponent within its range. -/
def clampExponent (exponent : Int) : Int := max (-0x80000000) (min exponent 0x7fffffff)

/-- Significand and power of ten of the digits before the exponent mark. -/
def significand (numeral : Numeral) : Nat × Int :=
  let (whole, dropped) := collect maxNatural 0 numeral.whole
  match numeral.fraction with
  | none => (whole, dropped.length)
  | some digits =>
    let (value, left) := collect maxNatural whole digits
    (value, (dropped.length : Int) - (digits.length - left.length))

/-- The floating-point value, or where the numeral leaves the range. `stop` is the numeral's end. -/
def toFloat (numeral : Numeral) (stop : Position) : Except Stop Float :=
  let (value, exponent) := numeral.significand
  let signed (x : Float) : Float := if numeral.isNegative then -x else x
  let scaled (exponent : Int) : Except Stop Float :=
    match scale? value exponent with
    | some x => .ok (signed x)
    | none => .error ⟨.numberOutOfRange, stop⟩
  match numeral.exponent with
  | none => scaled exponent
  | some (isDown, digits) =>
    match collect maxExponent 0 digits with
    | (written, []) =>
      scaled (clampExponent (if isDown then exponent - written else exponent + written))
    | (_, left) =>
      if value = 0 || isDown then .ok (signed 0.0)
      else
        let seen := digits.length - left.length + 1
        let column := numeral.exponentAt.column + seen
        .error ⟨.numberOutOfRange, { numeral.exponentAt with column }⟩

/-- The value of a numeral that ends at `stop`. Negative zero and whole numbers that do not fit 64 bits
are floating-point numbers. -/
def toNumber (numeral : Numeral) (stop : Position) : Except Stop Number :=
  match numeral.fraction, numeral.exponent, collect maxNatural 0 numeral.whole with
  | none, none, (value, []) =>
    if !numeral.isNegative then .ok (.natural value)
    else if 1 ≤ value && value ≤ 0x8000000000000000 then .ok (.negative (-(value : Int)))
    else .ok (.float (-value.toUInt64.toFloat))
  | _, _, _ => (numeral.toFloat stop).map .float

end Numeral

end NullReturns.Json
