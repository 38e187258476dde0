import NullReturns.Command.Options
import NullReturns.Endpoint.Url
import NullReturns.Snapshot.Load

/-! # Runs

What the tool does once its options are known: load, analyze, write fixed sources, write the document.
Nothing is written unless everything before it succeeded.
-/

namespace NullReturns

/-! ## Fixed copies of sources

All insertions that results propose, applied to the sources they are for. Copies go to one directory
under their own file names, so that two sources of one name cannot both be copied.
-/

/-- A source with its insertions applied. -/
structure FixedSource where
  uri : String
  fileName : String
  text : String
deriving DecidableEq, Repr

namespace FixedSource

/-- Two sources with the same file name. -/
structure Collision where
  first : String
  second : String
  fileName : String
deriving DecidableEq, Repr

def Collision.message (collision : Collision) (directory : String) : String :=
  "fixed sources for " ++ collision.first ++ " and " ++ collision.second ++
    " would both be written to " ++ Files.join directory collision.fileName

/-- The fixed copy of the source under a URI, if its text is known and it has a file name. -/
def ofInsertions? (source : String → Option String) (uri : String) (insertions : List Insertion) :
    Option FixedSource := do
  let text ← source uri
  let fileName ← (Files.Path.ofString uri).fileName?
  return ⟨uri, fileName, Insertion.applyAll text insertions⟩

/-- The fixed copies in the order of their URIs. -/
def candidates (source : String → Option String) (results : List Sarif.Result) : List FixedSource :=
  (Sarif.insertionsByUri results).filterMap fun (uri, insertions) => ofInsertions? source uri insertions

/-- The first copy that has the file name of an earlier one or of one in `seen`. -/
def firstCollision? (seen : List FixedSource) : List FixedSource → Option Collision
  | [] => none
  | copy :: rest =>
    match seen.find? (·.fileName == copy.fileName) with
    | some earlier => some ⟨earlier.uri, copy.uri, copy.fileName⟩
    | none => firstCollision? (copy :: seen) rest

/-- The copies to be written, in the order of their file names. -/
def plan (source : String → Option String) (results : List Sarif.Result) :
    Except Collision (List FixedSource) :=
  let copies := candidates source results
  match firstCollision? [] copies with
  | some collision => .error collision
  | none => .ok (copies.mergeSort fun left right => left.fileName ≤ right.fileName)

end FixedSource

/-! ## The run -/

inductive RunError where
  | noInput (path : String)
  | badEndpoint (error : Endpoint.EndpointError)
  | notLoaded (error : LoadError)
  | collision (directory : String) (clash : FixedSource.Collision)
  | directoryNotMade (path : String) (fault : Files.Fault)
  | sourceNotWritten (path : String) (fault : Files.Fault)
  | outputNotOpened (path : String) (fault : Files.Fault)

def RunError.message : RunError → String
  | .noInput path => "input not found: " ++ path
  | .badEndpoint error => "initialize telemetry: " ++ error.message
  | .notLoaded error => error.message
  | .collision directory clash => clash.message directory
  | .directoryNotMade path fault => "failed to create " ++ path ++ ": " ++ fault.message
  | .sourceNotWritten path fault => "failed to write " ++ path ++ ": " ++ fault.message
  | .outputNotOpened path fault => "failed to open " ++ path ++ ": " ++ fault.message

variable {m : Type → Type} [Monad m]

/-- Turns the failure of an operation into an error of the run. -/
def attempt {ε α : Type} (act : m (Except ε α)) (explain : ε → RunError) : ExceptT RunError m α :=
  ExceptT.mk do return (← act).mapError explain

/-- Writes the fixed sources to a directory, which is made if need be, and says how many they are. -/
def writeFixedSources (host : Host m) (directory : String) (source : String → Option String)
    (results : List Sarif.Result) : ExceptT RunError m Nat := do
  let copies ← attempt (pure (FixedSource.plan source results)) (.collision directory)
  attempt (host.makeAll directory) (.directoryNotMade directory)
  copies.forM fun copy =>
    let path := Files.join directory copy.fileName
    attempt (host.write path copy.text) (.sourceNotWritten path)
  return copies.length

/-- The analysis with a time limit that starts now. -/
def analyzeWithin (host : Host m) (limit : Option Nat) (compilation : Compilation) : m Analysis := do
  match limit with
  | none => compilation.analyze (pure false)
  | some seconds =>
    let deadline := (← host.now) + seconds * 1000000000
    compilation.analyze do return decide (deadline ≤ (← host.now))

/-- The path stands for standard output. -/
def isStandardOutput (path : String) : Bool := Files.Path.ofString path = ⟨false, ["-"]⟩

def writeDocument (host : Host m) (output : Option String) (text : String) :
    ExceptT RunError m Unit := do
  match output.filter fun path => !isStandardOutput path with
  | none => host.print text
  | some path => attempt (host.write path text) (.outputNotOpened path)

/-- Milliseconds between two readings of the clock. -/
def milliseconds (start stop : Nat) : Nat := (stop - start) / 1000000

/-- Runs the tool; `arguments` are noted in the document. -/
def run (host : Host m) (arguments : List String) (options : Options) : ExceptT RunError m Unit := do
  if !(← host.holds options.input) then throw (.noInput options.input)
  if let some endpoint := options.endpoint then
    let _ ← attempt (pure (Endpoint.traces endpoint)) .badEndpoint
  let start ← host.now
  let compilation ← attempt (Snapshot.load host options.input) .notLoaded
  let loaded ← host.now
  let analysis ← (analyzeWithin host options.timeLimit compilation : m Analysis)
  let analyzed ← host.now
  if let some directory := options.fixDirectory then
    let _ ← writeFixedSources host directory compilation.sourceText? analysis.results
  let statistics := { Statistics.of compilation analysis with
    scanDuration := milliseconds start loaded
    analysisDuration := milliseconds loaded analyzed }
  let document := Sarif.document compilation.artifacts arguments statistics analysis.rules analysis.results
  writeDocument host options.output (document.render 0 ++ "\n")
  if options.showsTiming && !options.isQuiet then
    host.report ("timing: total_ms=" ++ toString (milliseconds start (← host.now)) ++
      " scan_ms=" ++ toString statistics.scanDuration ++
      " analysis_ms=" ++ toString statistics.analysisDuration ++
      " units=" ++ toString statistics.unitCount ++ " bodies=" ++ toString statistics.bodyCount)

end NullReturns
