import NullReturns.Sarif.Document

/-! # Command line

Arguments are taken from left to right. A value given as an argument of its own is looked at only when
the next option is met or the arguments end, so that an argument that fits nowhere is refused first.
-/

namespace NullReturns

structure Options where
  input : String
  /-- Standard output when absent. -/
  output : Option String := none
  fixDirectory : Option String := none
  endpoint : Option String := none
  /-- In seconds. -/
  timeLimit : Option Nat := none
  isQuiet : Bool := false
  showsTiming : Bool := false
deriving DecidableEq, Repr

/-- Why the arguments do not lead to a run. -/
inductive Usage where
  | unknownArgument
  | invalidValue
  | malformedNumber
  | repeatedOption
  | needlessValue
  | missingInput
  | help
  | version
deriving DecidableEq, Repr

namespace Usage

def helpText : String :=
  String.intercalate "\n"
    ["Reports methods that can return null without a [CanBeNull] marker, as SARIF.",
      "",
      "Usage: " ++ toolName ++ " [OPTIONS] --input <PATH>",
      "",
      "Options:",
      "      --input <PATH>          Compilation snapshot (JSON) produced by the host compiler",
      "      --output <PATH>         SARIF destination; `-` or absent writes to stdout",
      "      --fix-dir <DIR>         Write fixed copies of every source with findings into this directory",
      "      --otel <URL>            OTLP/HTTP collector endpoint for trace export",
      "      --time-limit <SECONDS>  Skip method bodies not yet analyzed once this many seconds have passed",
      "      --quiet                 ",
      "      --timing                ",
      "  -h, --help                  Print help",
      "  -V, --version               Print version",
      ""]

/-- What is printed instead of a run, if something was asked for. -/
def text? : Usage → Option String
  | .help => some helpText
  | .version => some (toolName ++ " " ++ toolVersion ++ "\n")
  | _ => none

/-- What is wrong with the arguments. -/
def complaint : Usage → String
  | .unknownArgument => "unexpected argument found"
  | .invalidValue => "a value is required for an option but none was supplied"
  | .malformedNumber => "invalid value for '--time-limit <SECONDS>'"
  | .repeatedOption => "an option cannot be used multiple times"
  | .needlessValue => "unexpected value for an option without value"
  | .missingInput => "the following required arguments were not provided: --input <PATH>"
  | .help | .version => ""

def exitCode (usage : Usage) : Nat := if usage.text?.isSome then 0 else 2

end Usage

namespace Options

/-- An option with a value. -/
inductive Setting where
  | input
  | output
  | fixDirectory
  | endpoint
  | timeLimit
deriving DecidableEq, Repr

/-- An option without value. -/
inductive Flag where
  | quiet
  | timing
  | help
  | version
deriving DecidableEq, Repr

def Setting.named : List (String × Setting) :=
  [("input", .input), ("output", .output), ("fix-dir", .fixDirectory), ("otel", .endpoint),
    ("time-limit", .timeLimit)]

def Flag.named : List (String × Flag) :=
  [("quiet", .quiet), ("timing", .timing), ("help", .help), ("version", .version)]

def Flag.short : List (Char × Flag) := [('h', .help), ('V', .version)]

/-- An argument by its form. -/
inductive Argument where
  | setting (setting : Setting) (value : Option String)
  | flag (flag : Flag)
  /-- A flag with a value attached. -/
  | loadedFlag
  /-- The mark behind which no options are expected. -/
  | endOfOptions
  | plain (text : String)
  | unknown
deriving DecidableEq, Repr

/-- The text between two dashes and an equality sign, and what stands behind that sign. -/
def Argument.ofLong (text : List Char) : Argument :=
  let name := String.ofList (text.takeWhile (· != '='))
  let value :=
    if text.contains '=' then some (String.ofList ((text.dropWhile (· != '=')).drop 1)) else none
  match Setting.named.lookup name, Flag.named.lookup name, value with
  | some known, _, _ => .setting known value
  | none, some known, none => .flag known
  | none, some _, some _ => .loadedFlag
  | none, none, _ => .unknown

/-- Of letters behind one dash the first one decides, since all of them end the reading. -/
def Argument.ofString (text : String) : Argument :=
  match text.toList with
  | ['-', '-'] => .endOfOptions
  | '-' :: '-' :: rest => .ofLong rest
  | '-' :: letter :: _ => (Flag.short.lookup letter).elim .unknown .flag
  | _ => .plain text

/-- Options as far as they have been given. -/
structure Draft where
  input : Option String := none
  output : Option String := none
  fixDirectory : Option String := none
  endpoint : Option String := none
  timeLimit : Option Nat := none
  isQuiet : Bool := false
  showsTiming : Bool := false
deriving DecidableEq, Repr

/-- A path is not empty. -/
def path (value : String) : Except Usage String :=
  if value.isEmpty then .error .invalidValue else .ok value

/-- An unsigned 64-bit number, possibly with a plus sign. -/
def seconds (value : String) : Except Usage Nat :=
  let digits := match value.toList with
    | '+' :: rest => rest
    | chars => chars
  let number := digits.foldl (fun number c => 10 * number + (c.toNat - '0'.toNat)) 0
  if !digits.isEmpty && digits.all Char.isDigit && number < 0x10000000000000000 then .ok number
  else .error .malformedNumber

namespace Draft

def has (draft : Draft) : Setting → Bool
  | .input => draft.input.isSome
  | .output => draft.output.isSome
  | .fixDirectory => draft.fixDirectory.isSome
  | .endpoint => draft.endpoint.isSome
  | .timeLimit => draft.timeLimit.isSome

def set (draft : Draft) (setting : Setting) (value : String) : Except Usage Draft := do
  if draft.has setting then throw .repeatedOption
  match setting with
  | .input => return { draft with input := ← path value }
  | .output => return { draft with output := ← path value }
  | .fixDirectory => return { draft with fixDirectory := ← path value }
  | .endpoint => return { draft with endpoint := value }
  | .timeLimit => return { draft with timeLimit := ← seconds value }

def raise (draft : Draft) : Flag → Except Usage Draft
  | .quiet => if draft.isQuiet then .error .repeatedOption else .ok { draft with isQuiet := true }
  | .timing =>
    if draft.showsTiming then .error .repeatedOption else .ok { draft with showsTiming := true }
  | .help => .error .help
  | .version => .error .version

end Draft

/-- A setting that has been named and the value that followed it. -/
abbrev Pending := Option (Setting × Option String)

/-- Takes over what was pending. -/
def settle (draft : Draft) : Pending → Except Usage Draft
  | none => .ok draft
  | some (_, none) => .error .invalidValue
  | some (setting, some value) => draft.set setting value

def collect (draft : Draft) (pending : Pending) : List Argument → Except Usage Draft
  | [] => settle draft pending
  | .setting setting (some value) :: rest => do
    collect (← (← settle draft pending).set setting value) none rest
  | .setting setting none :: rest => do collect (← settle draft pending) (some (setting, none)) rest
  | .flag flag :: rest => do collect (← (← settle draft pending).raise flag) none rest
  | .loadedFlag :: _ => .error .needlessValue
  | .endOfOptions :: rest => if rest.isEmpty then settle draft pending else .error .unknownArgument
  | .plain text :: rest =>
    match pending with
    | some (setting, none) => collect draft (some (setting, some text)) rest
    | _ => .error .unknownArgument
  | .unknown :: _ => .error .unknownArgument

/-- The options that arguments give. -/
def ofArguments (arguments : List String) : Except Usage Options := do
  let draft ← collect { } none (arguments.map Argument.ofString)
  match draft with
  | { input := none, .. } => throw .missingInput
  | { input := some input, output, fixDirectory, endpoint, timeLimit, isQuiet, showsTiming } =>
    return { input, output, fixDirectory, endpoint, timeLimit, isQuiet, showsTiming }

end Options

end NullReturns
