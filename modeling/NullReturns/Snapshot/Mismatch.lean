import NullReturns.Decimal.Shortest
import NullReturns.Json.Document
import NullReturns.Text.Quoted

/-! # Refused snapshots

Why a text does not hold a snapshot: it is not JSON, or the JSON does not fit the schema. A refusal
says where in the text it was noticed and which part of the document it concerns.
-/

namespace NullReturns.Snapshot

/-- One step from a value to a value inside it. -/
inductive Step where
  | key (name : String)
  | index (i : Nat)
  /-- The inside of an enumeration case with a payload. -/
  | case (name : String)
  /-- A key that could not be read. -/
  | unreadable
deriving DecidableEq, Repr

/-- A path from the whole document, last step first. -/
abbrev Path := List Step

/-- A value that stands where another was expected. -/
inductive Found where
  | null
  | bool (value : Bool)
  | integer (value : Int)
  | float (value : Float)
  | string (value : String)
  | array
  | object
  /-- The bare name of a case that has a payload. -/
  | bareCase

inductive Mismatch where
  | malformed (fault : Json.Fault)
  | wrongType (found : Found) (expected : String)
  | wrongValue (found : Found) (expected : String)
  | wrongLength (length : Nat) (expected : String)
  | unknownCase (name : String) (cases : List String)
  | unknownField (name : String) (fields : List String)
  | missingField (name : String)
  | repeatedField (name : String)

structure Refusal where
  mismatch : Mismatch
  position : Json.Position
  path : Path

/-- Numbers in messages: an exponent is written below `10 ^ -5` and from `10 ^ 16` on. -/
def numberLayout : Decimal.Layout := ⟨-5, 15⟩

def ticked (text : String) : String := "`" ++ text ++ "`"

def Found.describe : Found → String
  | .null => "null"
  | .bool value => "boolean " ++ ticked (if value then "true" else "false")
  | .integer value => "integer " ++ ticked (toString value)
  | .float value => "floating point " ++ ticked (Decimal.ofFloat numberLayout value)
  | .string value => "string " ++ Text.quoted value
  | .array => "sequence"
  | .object => "map"
  | .bareCase => "unit variant"

/-- The names that would have been right. -/
def oneOf : List String → String
  | [] => "there are no names"
  | [name] => "expected " ++ ticked name
  | [first, second] => "expected " ++ ticked first ++ " or " ++ ticked second
  | names => "expected one of " ++ String.intercalate ", " (names.map ticked)

def Mismatch.message : Mismatch → String
  | .malformed fault => fault.message
  | .wrongType found expected => "invalid type: " ++ found.describe ++ ", expected " ++ expected
  | .wrongValue found expected => "invalid value: " ++ found.describe ++ ", expected " ++ expected
  | .wrongLength length expected => "invalid length " ++ toString length ++ ", expected " ++ expected
  | .unknownCase name cases => "unknown variant " ++ ticked name ++ ", " ++ oneOf cases
  | .unknownField name fields => "unknown field " ++ ticked name ++ ", " ++ oneOf fields
  | .missingField name => "missing field " ++ ticked name
  | .repeatedField name => "duplicate field " ++ ticked name

/-- What a step adds to the text of a path; `isFirst` leaves out the dot. -/
def Step.text (isFirst : Bool) : Step → String
  | .index i => "[" ++ toString i ++ "]"
  | .key name | .case name => (if isFirst then "" else ".") ++ name
  | .unreadable => if isFirst then "?" else ".?"

/-- The text of a path; a single dot for the whole document. -/
def Path.text (path : Path) : String :=
  match path.reverse with
  | [] => "."
  | first :: rest => first.text true ++ String.join (rest.map (Step.text false))

/-- The path names some part of the document. -/
def Path.isKnown (path : Path) : Bool := path.any (· != .unreadable)

def Refusal.message (refusal : Refusal) : String :=
  (if refusal.path.isKnown then refusal.path.text ++ ": " else "") ++ refusal.mismatch.message ++
    " at line " ++ toString refusal.position.line ++ " column " ++ toString refusal.position.column

end NullReturns.Snapshot
