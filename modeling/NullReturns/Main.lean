import NullReturns.Command.Run

/-! # The program -/

namespace NullReturns

/-- What a failed operation of the system means. -/
def faultOf : IO.Error → Files.Fault
  | .noFileOrDirectory .. => .notFound
  | .alreadyExists .. => .alreadyThere
  | .invalidArgument _ code details => if code = 36 then .nameTooLong else .other details
  | .inappropriateType _ code details =>
    if code = 21 then .isDirectory else if code = 20 then .notDirectory else .other details
  | error => .other (toString error)

/-- Carries out an operation of the system. -/
def carryOut {α : Type} (act : IO α) : IO (Except Files.Fault α) := do
  match ← act.toBaseIO with
  | .ok result => return .ok result
  | .error error => return .error (faultOf error)

def readText (path : String) : IO (Except Files.Fault String) := do
  match ← carryOut (IO.FS.readBinFile path) with
  | .error fault => return .error fault
  | .ok content => return (String.fromUTF8? content).elim (.error .notText) .ok

def systemHost : Host IO where
  holds path := do
    match ← carryOut (IO.FS.Handle.mk path .read) with
    | .ok _ | .error (.other _) => return true
    | .error _ => return false
  read := readText
  write path text := carryOut (IO.FS.writeFile path text)
  makeAll path := carryOut (IO.FS.createDirAll path)
  print text := do
    let output ← IO.getStdout
    output.putStr text
    output.flush
  report line := IO.eprintln line
  now := IO.monoNanosNow

end NullReturns

open NullReturns in
def main (arguments : List String) : IO UInt32 := do
  match Options.ofArguments arguments with
  | .error usage =>
    match usage.text? with
    | some text => IO.print text
    | none => IO.eprintln ("error: " ++ usage.complaint)
    return usage.exitCode.toUInt32
  | .ok options =>
    match ← (run systemHost (toolName :: arguments) options).run with
    | .ok () => return 0
    | .error error =>
      IO.eprintln ("Error: " ++ error.message)
      return 1
