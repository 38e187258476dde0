/-! # Written values

Values to be written as JSON text, with two blanks for every level and a line for every item.
-/

namespace NullReturns.Json

inductive Value where
  | bool (value : Bool)
  | int (value : Int)
  | string (value : String)
  | array (items : List Value)
  /-- Members are written in the order given. -/
  | object (members : List (String × Value))
deriving Repr, Inhabited

namespace Value

/-- An object without the members that have no value. -/
def ofMembers (members : List (String × Option Value)) : Value :=
  .object (members.filterMap fun (name, value) => value.map fun value => (name, value))

/-- A character inside quotes. -/
def escaped (c : Char) : List Char :=
  match c with
  | '"' => ['\\', '"']
  | '\\' => ['\\', '\\']
  | '\x08' => ['\\', 'b']
  | '\t' => ['\\', 't']
  | '\n' => ['\\', 'n']
  | '\x0c' => ['\\', 'f']
  | '\r' => ['\\', 'r']
  | c =>
    if c.val < 0x20 then
      let digits := Nat.toDigits 16 c.toNat
      "\\u".toList ++ List.replicate (4 - digits.length) '0' ++ digits
    else [c]

def quote (text : String) : String := "\"" ++ String.ofList (text.toList.flatMap escaped) ++ "\""

/-- A line break and the blanks of a level. -/
def lineBreak (level : Nat) : String := "\n" ++ "".pushn ' ' (2 * level)

mutual

/-- The text of a value that stands at `level`. -/
def render (level : Nat) : Value → String
  | .bool value => if value then "true" else "false"
  | .int value => toString value
  | .string value => quote value
  | .array [] => "[]"
  | .array (first :: rest) =>
    "[" ++ lineBreak (level + 1) ++ render (level + 1) first ++ renderItems (level + 1) rest ++
      lineBreak level ++ "]"
  | .object [] => "\x7b\x7d"
  | .object ((name, value) :: rest) =>
    "\x7b" ++ lineBreak (level + 1) ++ quote name ++ ": " ++ render (level + 1) value ++
      renderMembers (level + 1) rest ++ lineBreak level ++ "\x7d"

/-- Further items of an array. -/
def renderItems (level : Nat) : List Value → String
  | [] => ""
  | value :: rest => "," ++ lineBreak level ++ render level value ++ renderItems level rest

/-- Further members of an object. -/
def renderMembers (level : Nat) : List (String × Value) → String
  | [] => ""
  | (name, value) :: rest =>
    "," ++ lineBreak level ++ quote name ++ ": " ++ render level value ++ renderMembers level rest

end

end Value

end NullReturns.Json
