import NullReturns.Analysis
import NullReturns.Json.Value

/-! # The document

One run of the tool: the documents it looked at, how it was called, and what it found.
-/

namespace NullReturns.Sarif

/-! ## Results as JSON

Members are in the order of their names; what is absent is left out.
-/

open Json (Value)

/-- An object that holds a text. -/
def textValue (text : String) : Value := .object [("text", .string text)]

def Region.value (region : Region) : Value :=
  .ofMembers
    [("byteLength", region.byteLength.map .int), ("byteOffset", region.byteOffset.map .int),
      ("charLength", region.charLength.map .int), ("charOffset", region.charOffset.map .int),
      ("endColumn", region.endColumn.map .int), ("endLine", region.endLine.map .int),
      ("startColumn", region.startColumn.map .int), ("startLine", region.startLine.map .int)]

def ArtifactLocation.value (location : ArtifactLocation) : Value :=
  .ofMembers [("index", location.index.map .int), ("uri", location.uri.map .string)]

def Replacement.value (replacement : Replacement) : Value :=
  .ofMembers
    [("deletedRegion", replacement.deletedRegion.value),
      ("insertedContent", replacement.insertedText.map textValue)]

def ArtifactChange.value (change : ArtifactChange) : Value :=
  .object
    [("artifactLocation", change.artifact.value),
      ("replacements", .array (change.replacements.map (·.value)))]

def Fix.value (fix : Fix) : Value :=
  .ofMembers
    [("artifactChanges", some (.array (fix.changes.map (·.value)))),
      ("description", fix.description.map textValue)]

def Location.value (location : Location) : Value :=
  .object
    [("logicalLocations",
        .array [.object [("kind", .string "function"), ("name", .string location.functionName)]]),
      ("physicalLocation",
        .ofMembers
          [("artifactLocation", location.artifact.value), ("region", location.region.map (·.value))])]

/-- A list that is left out when it is empty. -/
def listValue? {α : Type} (value : α → Value) (items : List α) : Option Value :=
  if items.isEmpty then none else some (.array (items.map value))

def Result.value (result : Result) : Value :=
  .ofMembers
    [("fixes", listValue? Fix.value result.fixes), ("level", result.level.map .string),
      ("locations", listValue? Location.value result.locations),
      ("message", some (.ofMembers [("text", result.message.map .string)])),
      ("ruleId", result.ruleId.map .string)]

end NullReturns.Sarif

namespace NullReturns

/-! ## Runs -/

def toolName : String := "nullmark"

def toolVersion : String := "0.1.0"

namespace Sarif

open Json (Value)

/-- A document that was looked at; the length is known when the text is. -/
structure Artifact where
  uri : String
  length : Option Int
deriving DecidableEq, Repr

def Artifact.value (artifact : Artifact) : Value :=
  .ofMembers
    [("length", artifact.length.map .int),
      ("location", some (.object [("uri", .string artifact.uri)])),
      ("roles", some (.array [.string "analysisTarget"]))]

end Sarif

def SourceUnit.artifact (unit : SourceUnit) : Sarif.Artifact where
  uri := unit.uri
  length := unit.text.map fun text => Sarif.signed (Text.byteLength text.toList)

/-- One artifact for each unit, in the same order. -/
def Compilation.artifacts (compilation : Compilation) : List Sarif.Artifact :=
  compilation.units.map (·.artifact)

/-- What a run tells about itself. Durations are in milliseconds. -/
structure Statistics where
  scanDuration : Nat := 0
  analysisDuration : Nat := 0
  typeCount : Nat
  methodCount : Nat
  unitCount : Nat
  bodyCount : Nat
  artifactCount : Nat
  isComplete : Bool
deriving DecidableEq, Repr

def Statistics.of (compilation : Compilation) (analysis : Analysis) : Statistics where
  typeCount := compilation.table.types.length
  methodCount := compilation.table.methods.length
  unitCount := compilation.units.length
  bodyCount := compilation.bodyCount
  artifactCount := compilation.artifacts.length
  isComplete := analysis.isComplete

namespace Sarif

open Json (Value)

def propertiesValue (statistics : Statistics) : Value :=
  let properties : List (String × Value) :=
    [("analysis_ms", .int statistics.analysisDuration),
      ("artifact_count", .int statistics.artifactCount), ("body_count", .int statistics.bodyCount),
      ("complete", .bool statistics.isComplete), ("method_count", .int statistics.methodCount),
      ("scan_ms", .int statistics.scanDuration), ("type_count", .int statistics.typeCount),
      ("unit_count", .int statistics.unitCount)]
  .object (properties.map fun (name, value) => (toolName ++ "." ++ name, value))

/-- How the tool was called, and the statistics of the run. -/
def invocationValue (arguments : Option (List String)) (statistics : Statistics) : Value :=
  .ofMembers
    [("arguments", arguments.map fun arguments => .array (arguments.map .string)),
      ("commandLine", arguments.map fun arguments => .string (String.intercalate " " arguments)),
      ("executionSuccessful", some (.bool true)), ("properties", some (propertiesValue statistics))]

def ruleValue (rule : Rule) : Value :=
  .object
    [("fullDescription", textValue rule.message), ("id", .string rule.id), ("name", .string rule.title),
      ("properties",
        .object [("category", .string Rule.category), ("severity", .string Rule.severity)]),
      ("shortDescription", textValue rule.title)]

/-- The whole document. The arguments are left out when they are not known. -/
def document (artifacts : List Artifact) (arguments : Option (List String)) (statistics : Statistics)
    (rules : List Rule) (results : List Result) : Value :=
  let tool : Value :=
    .ofMembers
      [("name", some (.string toolName)), ("rules", listValue? ruleValue rules),
        ("version", some (.string toolVersion))]
  let run : Value :=
    .ofMembers
      [("artifacts", listValue? Artifact.value artifacts),
        ("invocations", some (.array [invocationValue arguments statistics])),
        ("results", some (.array (results.map (·.value)))), ("tool", some (.object [("driver", tool)]))]
  .object
    [("$schema", .string "https://schemastore.azurewebsites.net/schemas/json/sarif-2.1.0.json"),
      ("runs", .array [run]), ("version", .string "2.1.0")]

end Sarif

end NullReturns
