import NullReturns.Files.Directory

/-! # Hosts

What a run needs from its surroundings, and surroundings as a value: a file tree, what was printed, and a
clock that stands still.
-/

namespace NullReturns

structure Host (m : Type → Type) where
  /-- A path leads to something. -/
  holds : String → m Bool
  read : String → m (Except Files.Fault String)
  write : String → String → m (Except Files.Fault Unit)
  /-- Makes a directory and all directories it stands in. -/
  makeAll : String → m (Except Files.Fault Unit)
  /-- Writes to standard output. -/
  print : String → m Unit
  /-- Writes a line to standard error. -/
  report : String → m Unit
  /-- Nanoseconds on a clock that never goes back. -/
  now : m Nat

/-! ## Machines -/

structure Machine where
  files : Files.Directory := { }
  output : String := ""
  reported : List String := []

namespace Machine

/-- Carries out a change of the file tree that may fail. -/
def change (act : Files.Directory → Except Files.Fault Files.Directory) :
    StateM Machine (Except Files.Fault Unit) := do
  let machine ← get
  match act machine.files with
  | .ok files =>
    set { machine with files }
    return .ok ()
  | .error fault => return .error fault

def host : Host (StateM Machine) where
  holds path := return (← get).files.holds path
  read path := return (← get).files.read path
  write path text := change (·.write path text)
  makeAll path := change (·.makeAll path)
  print text := modify fun machine => { machine with output := machine.output ++ text }
  report line := modify fun machine => { machine with reported := machine.reported ++ [line] }
  now := return 0

end Machine

end NullReturns
