import NullReturns.Text.Lines

/-! # Host names

Hosts in URLs: domains in lower case, IPv4 addresses in any of their notations, IPv6 addresses in
brackets.
-/

namespace NullReturns.Endpoint

/-! ## Percent encoding

Control characters, all characters beyond ASCII, and a chosen few others are written as the percent
codes of their UTF-8 bytes.
-/

/-- Two capital hexadecimal digits behind a percent sign. -/
def percentByte (byte : UInt8) : List Char :=
  ['%', (Nat.digitChar (byte.toNat / 16)).toUpper, (Nat.digitChar (byte.toNat % 16)).toUpper]

/-- A character that is written as itself unless `reserved` holds it. -/
def isPlain (c : Char) : Bool := 0x20 ≤ c.val && c.val < 0x7f

def percentEncode (reserved : List Char) (text : List Char) : List Char :=
  text.flatMap fun c =>
    if isPlain c && !reserved.contains c then [c]
    else (String.singleton c).toUTF8.toList.flatMap percentByte

def fragmentReserved : List Char := [' ', '"', '<', '>', '\x60']

def pathReserved : List Char := fragmentReserved ++ ['#', '?', '\x7b', '\x7d']

def userReserved : List Char := pathReserved ++ ['/', ':', ';', '=', '@', '[', '\\', ']', '^', '|']

def queryReserved : List Char := [' ', '"', '#', '<', '>', '\'']

/-- The value of a hexadecimal digit. -/
def hexDigit? (c : Char) : Option Nat :=
  if c.isDigit then some (c.toNat - '0'.toNat)
  else if 'a' ≤ c ∧ c ≤ 'f' then some (c.toNat - 'a'.toNat + 10)
  else if 'A' ≤ c ∧ c ≤ 'F' then some (c.toNat - 'A'.toNat + 10)
  else none

/-- Replaces percent codes by the characters with these codes, as far as they are ASCII. -/
def percentDecode : List Char → List Char
  | '%' :: high :: low :: rest =>
    match hexDigit? high, hexDigit? low with
    | some h, some l => Char.ofNat (16 * h + l) :: percentDecode rest
    | _, _ => '%' :: percentDecode (high :: low :: rest)
  | c :: rest => c :: percentDecode rest
  | [] => []

/-! ## IPv6 addresses

Eight groups of sixteen bits. In text one run of zero groups may be left out, and the last two groups
may be written as four decimal numbers.
-/

structure Ipv6 where
  groups : List Nat
deriving DecidableEq, Repr

namespace Ipv6

/-- One to four hexadecimal digits. -/
def group? (text : List Char) : Option Nat := do
  guard (text.length ∈ [1, 2, 3, 4])
  let digits ← text.mapM hexDigit?
  return digits.foldl (fun value digit => 16 * value + digit) 0

/-- A decimal number up to 255 without leading zeros. -/
def byte? (text : List Char) : Option Nat := do
  guard (text.length ∈ [1, 2, 3] ∧ text.all Char.isDigit)
  guard (text.length = 1 ∨ text.head? ≠ some '0')
  let value := text.foldl (fun value c => 10 * value + (c.toNat - '0'.toNat)) 0
  if value ≤ 255 then some value else none

/-- Four decimal numbers as two groups. -/
def dotted? (text : List Char) : Option (List Nat) := do
  match ← (Text.split '.' text).mapM byte? with
  | [a, b, c, d] => return [256 * a + b, 256 * c + d]
  | _ => none

/-- Groups separated by colons. The last one may be dotted where `mayBeDotted` says so. -/
def groups? (mayBeDotted : Bool) : List (List Char) → Option (List Nat)
  | [] => some []
  | [last] => if mayBeDotted && last.contains '.' then dotted? last else (group? last).map ([·])
  | first :: rest => do return (← group? first) :: (← groups? mayBeDotted rest)

/-- The groups of one side of the part left out; the side may be empty. -/
def side? (mayBeDotted : Bool) (text : List Char) : Option (List Nat) :=
  if text.isEmpty then some [] else groups? mayBeDotted (Text.split ':' text)

/-- The texts before and after the first double colon. -/
def cutGap? : List Char → Option (List Char × List Char)
  | ':' :: ':' :: rest => some ([], rest)
  | c :: rest => (cutGap? rest).map fun (before, after) => (c :: before, after)
  | [] => none

def parse? (text : List Char) : Option Ipv6 :=
  match cutGap? text with
  | none => do
    let groups ← groups? true (Text.split ':' text)
    if groups.length = 8 then some ⟨groups⟩ else none
  | some (left, right) => do
    let before ← side? false left
    let after ← side? true right
    let count := before.length + after.length
    if count ≤ 7 then some ⟨before ++ List.replicate (8 - count) 0 ++ after⟩ else none

/-- The number of zeros in front of each place. -/
def zeroRuns : List Nat → List Nat
  | [] => []
  | groups@(_ :: rest) => (groups.takeWhile (· == 0)).length :: zeroRuns rest

def hexText (value : Nat) : List Char := Nat.toDigits 16 value

def joined (groups : List Nat) : List Char := [':'].intercalate (groups.map hexText)

/-- The text that leaves out the first of the longest runs of at least two zero groups. -/
def toText (address : Ipv6) : List Char :=
  let runs := zeroRuns address.groups
  let longest := runs.foldl max 0
  if longest < 2 then joined address.groups
  else
    let start := runs.idxOf longest
    joined (address.groups.take start) ++ "::".toList ++ joined (address.groups.drop (start + longest))

end Ipv6

/-! ## Hosts -/

inductive UrlError where
  | noScheme
  | emptyHost
  | badPort
  | badIpv4
  | badIpv6
  | badDomain
  | badOpaqueHost
deriving DecidableEq, Repr

def UrlError.message : UrlError → String
  | .noScheme => "relative URL without a base"
  | .emptyHost => "empty host"
  | .badPort => "invalid port number"
  | .badIpv4 => "invalid IPv4 address"
  | .badIpv6 => "invalid IPv6 address"
  | .badDomain => "invalid international domain name"
  | .badOpaqueHost => "invalid domain character"

namespace Host

/-- The number that digits of a base make up; none if some character is no such digit. -/
def number? (base : Nat) (text : List Char) : Option Nat := do
  let digits ← text.mapM hexDigit?
  guard (digits.all (· < base))
  return digits.foldl (fun value digit => base * value + digit) 0

/-- A part of an IPv4 address: hexadecimal behind `0x`, octal behind `0`, otherwise decimal. -/
def part? : List Char → Option Nat
  | [] => none
  | '0' :: 'x' :: rest => if rest.isEmpty then some 0 else number? 16 rest
  | '0' :: c :: rest => number? 8 (c :: rest)
  | text => number? 10 text

/-- The parts between dots, without the empty one behind a dot at the end. -/
def parts (domain : List Char) : List (List Char) :=
  let pieces := Text.split '.' domain
  if pieces.getLast? = some [] then pieces.dropLast else pieces

/-- The domain has to be an IPv4 address. -/
def endsInNumber (domain : List Char) : Bool :=
  match (parts domain).getLast? with
  | none => false
  | some last => (!last.isEmpty && last.all Char.isDigit) || (part? last).isSome

/-- The bytes of the number, the highest of four first. -/
def dotted (address : Nat) : List Char :=
  let bytes := [address / 0x1000000, address / 0x10000 % 256, address / 0x100 % 256, address % 256]
  ['.'].intercalate (bytes.map (Nat.toDigits 10))

/-- All parts but the last are bytes; the last one fills the bytes that are left. -/
def ipv4? (domain : List Char) : Option (List Char) := do
  let numbers ← (parts domain).mapM part?
  let last ← numbers.getLast?
  let bytes := numbers.dropLast
  guard (numbers.length ≤ 4 ∧ bytes.all (· ≤ 255) ∧ last < Nat.pow 256 (4 - bytes.length))
  let filled := bytes ++ List.replicate (4 - bytes.length) 0
  return dotted (filled.foldl (fun value byte => 256 * value + byte) 0 + last)

/-- A character that no domain holds. Domains beyond ASCII are not accepted. -/
def isForbidden (c : Char) : Bool := !isPlain c || c = ' ' || "%#/:<>?@[\\]^|".toList.contains c

/-- The inside of brackets, as far as there are any. -/
def bracketed (text : List Char) : Except UrlError (List Char) :=
  if 2 ≤ text.length ∧ text.getLast? = some ']' then
    match Ipv6.parse? text.tail.dropLast with
    | some address => .ok (['['] ++ address.toText ++ [']'])
    | none => .error .badIpv6
  else .error .badIpv6

/-- The host of a URL of a well-known scheme. -/
def parse (text : List Char) : Except UrlError (List Char) :=
  if text.head? = some '[' then bracketed text
  else
    let domain := (percentDecode text).map Char.toLower
    if domain.any isForbidden then .error .badDomain
    else if domain.isEmpty then .error .emptyHost
    else if endsInNumber domain then (ipv4? domain).elim (.error .badIpv4) .ok
    else .ok domain

/-- Checks the host of a URL of any other scheme. -/
def checkOpaque (text : List Char) : Except UrlError Unit :=
  if text.head? = some '[' then (bracketed text).map fun _ => ()
  else if text.any "\x00\t\n\r #/:<>?@[\\]^|".toList.contains then .error .badOpaqueHost
  else .ok ()

end Host

end NullReturns.Endpoint
