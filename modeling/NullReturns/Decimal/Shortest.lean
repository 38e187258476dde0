/-! # Shortest decimals

The decimal with the fewest digits that still reads back as a given floating-point number, and of those
with so few digits the one nearest to it. A finite positive number is `m * 2 ^ q`; the reals that round
to it lie between the midpoints to its two neighbours, the midpoints included when `m` is even.
-/

namespace NullReturns.Decimal

/-- A positive number `mantissa * 2 ^ exponent`. -/
structure Binary where
  mantissa : Nat
  exponent : Int
  /-- The neighbour below is only half as far away as the one above. -/
  isNarrowBelow : Bool

/-- The parts of a finite number's absolute value; none for zero. -/
def Binary.ofFloat? (x : Float) : Option Binary :=
  let bits := x.toBits.toNat
  let fraction := bits % 0x10000000000000
  let biased : Nat := bits / 0x10000000000000 % 0x800
  if biased = 0 then
    if fraction = 0 then none else some ⟨fraction, -1074, false⟩
  else some ⟨0x10000000000000 + fraction, (biased : Int) - 1075, fraction = 0 && biased > 1⟩

/-- A number as a quotient of naturals, with the ends of its rounding interval over the same
denominator. -/
structure Interval where
  low : Nat
  value : Nat
  high : Nat
  denominator : Nat
  hasEnds : Bool

def Binary.interval (x : Binary) : Interval :=
  let up := x.exponent.toNat
  let down := (-x.exponent).toNat
  let unit := Nat.pow 2 up
  { low := (if x.isNarrowBelow then 4 * x.mantissa - 1 else 4 * x.mantissa - 2) * unit
    value := 4 * x.mantissa * unit
    high := (4 * x.mantissa + 2) * unit
    denominator := 4 * Nat.pow 2 down
    hasEnds := x.mantissa % 2 = 0 }

/-- `digits * 10 ^ scale` lies in the interval. -/
def Interval.admits (i : Interval) (digits : Nat) (scale : Int) : Bool :=
  let scaled := digits * i.denominator * Nat.pow 10 scale.toNat
  let unit := Nat.pow 10 (-scale).toNat
  if i.hasEnds then i.low * unit ≤ scaled && scaled ≤ i.high * unit
  else i.low * unit < scaled && scaled < i.high * unit

/-- Distance of `digits * 10 ^ scale` from the value, in units that depend on `scale` only. -/
def Interval.distance (i : Interval) (digits : Nat) (scale : Int) : Nat :=
  let scaled := digits * i.denominator * Nat.pow 10 scale.toNat
  let value := i.value * Nat.pow 10 (-scale).toNat
  (scaled - value) + (value - scaled)

/-- The best multiple of `10 ^ scale` in the interval, if there is one; the even one of two equally
good. -/
def Interval.nearest? (i : Interval) (scale : Int) : Option Nat :=
  let below := i.value * Nat.pow 10 (-scale).toNat / (i.denominator * Nat.pow 10 scale.toNat)
  let above := below + 1
  match i.admits below scale, i.admits above scale with
  | true, true =>
    let toBelow := i.distance below scale
    let toAbove := i.distance above scale
    if toBelow < toAbove || (toBelow = toAbove && below % 2 = 0) then some below else some above
  | true, false => some below
  | false, true => some above
  | false, false => none

/-- Tries scales from the coarsest of `scales`. -/
def Interval.shortest (i : Interval) : List Int → Nat × Int
  | [] => (0, 0)
  | scale :: finer =>
    match i.nearest? scale with
    | some digits => if digits = 0 then i.shortest finer else (digits, scale)
    | none => i.shortest finer

/-- The power of ten of the leading digit, for a value that is not zero. -/
def Interval.magnitude (i : Interval) : Int :=
  if i.denominator ≤ i.value then ((Nat.toDigits 10 (i.value / i.denominator)).length : Int) - 1
  else -((Nat.toDigits 10 ((i.denominator - 1) / i.value)).length : Int)

/-- Significant digits and the power of ten of the last one. -/
def digits (x : Binary) : Nat × Int :=
  let i := x.interval
  let top := i.magnitude + 1
  i.shortest ((List.range 20).map fun (n : Nat) => top - n)

/-- Drops zeros at the end of a number's digits. -/
def trim (value : Nat) (scale : Int) : Nat → Nat × Int
  | 0 => (value, scale)
  | fuel + 1 =>
    if value ≠ 0 && value % 10 = 0 then trim (value / 10) (scale + 1) fuel else (value, scale)

/-- How numbers are laid out: which powers of ten of the leading digit are written without exponent. -/
structure Layout where
  least : Int
  greatest : Int

/-- Digits with a point behind the leading one, unless there is only one. -/
def pointed : List Char → String
  | [] => ""
  | [c] => String.ofList [c]
  | c :: rest => String.ofList (c :: '.' :: rest)

/-- Digits and sign of an exponent, two digits at least. -/
def exponentText (exponent : Int) : String :=
  let text := toString exponent.natAbs
  (if exponent < 0 then "-" else "+") ++ (if text.length < 2 then "0" ++ text else text)

/-- Text of `digits * 10 ^ scale`. -/
def render (layout : Layout) (value : Nat) (scale : Int) : String :=
  let text := Nat.toDigits 10 value
  let leading := scale + text.length - 1
  if leading < layout.least || layout.greatest < leading then
    pointed text ++ "e" ++ exponentText leading
  else if leading < 0 then
    "0." ++ String.ofList (List.replicate (leading.natAbs - 1) '0' ++ text)
  else if 0 ≤ scale then String.ofList (text ++ List.replicate scale.toNat '0') ++ ".0"
  else
    let whole := leading.toNat + 1
    String.ofList (text.take whole) ++ "." ++ String.ofList (text.drop whole)

/-- Text of a finite number. -/
def ofFloat (layout : Layout) (x : Float) : String :=
  let sign := if x.toBits ≥ 0x8000000000000000 then "-" else ""
  match Binary.ofFloat? x with
  | none => sign ++ "0.0"
  | some b =>
    let (value, scale) := digits b
    let (value, scale) := trim value scale 20
    sign ++ render layout value scale

end NullReturns.Decimal
