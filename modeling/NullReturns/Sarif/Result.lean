import NullReturns.Edit.Insertion
import NullReturns.Finding

/-! # Results

The part of the static analysis results interchange format that findings are written in. Every field that
the format leaves optional may be absent here, since results can also come from elsewhere.
-/

namespace NullReturns.Sarif

/-- A range in a document. Numbers are signed 64-bit. -/
structure Region where
  byteLength : Option Int := none
  byteOffset : Option Int := none
  charLength : Option Int := none
  charOffset : Option Int := none
  endColumn : Option Int := none
  endLine : Option Int := none
  startColumn : Option Int := none
  startLine : Option Int := none
deriving DecidableEq, Repr

/-- A document, by its URI and by its place in the list of artifacts. -/
structure ArtifactLocation where
  index : Option Int := none
  uri : Option String := none
deriving DecidableEq, Repr

structure Replacement where
  deletedRegion : Region
  insertedText : Option String := none
deriving DecidableEq, Repr

structure ArtifactChange where
  artifact : ArtifactLocation
  replacements : List Replacement
deriving DecidableEq, Repr

structure Fix where
  description : Option String := none
  changes : List ArtifactChange
deriving DecidableEq, Repr

/-- A place in a document and the function it belongs to. -/
structure Location where
  artifact : ArtifactLocation
  region : Option Region := none
  functionName : String
deriving DecidableEq, Repr

structure Result where
  ruleId : Option String := none
  level : Option String := none
  message : Option String := none
  locations : List Location := []
  fixes : List Fix := []
deriving DecidableEq, Repr

namespace Result

/-- The URI of the first location. -/
def uri? (result : Result) : Option String := result.locations.head?.bind (·.artifact.uri)

/-- The byte offset of the first location. -/
def byteOffset? (result : Result) : Option Int := do
  (← (← result.locations.head?).region).byteOffset

/-- The order of results: by rule, document, place and message. What is absent comes first. -/
def order (left right : Result) : Ordering :=
  (compare (left.ruleId.getD "") (right.ruleId.getD "")).then <|
    (compare (left.uri?.getD "") (right.uri?.getD "")).then <|
      (compare (left.byteOffset?.getD (-1)) (right.byteOffset?.getD (-1))).then <|
        compare (left.message.getD "") (right.message.getD "")

/-- Results in order; those that the order does not tell apart stay as they were. -/
def sort (results : List Result) : List Result :=
  results.mergeSort fun left right => (left.order right).isLE

end Result

/-! ## Locations of method names

Lines, columns and character offsets are given only when the text is known and both ends of the span fit it.
-/

/-- The signed 64-bit number with the same bits. -/
def signed (n : Nat) : Int := Int.bmod n 0x10000000000000000

namespace Region

def ofBytes (span : Span) : Region where
  byteLength := some (signed span.length)
  byteOffset := some (signed span.start)

/-- The region of a span in a text. -/
def within? (text : List Char) (span : Span) : Option Region := do
  let (startLine, startColumn) ← Text.lineColumn? text span.start
  let (endLine, endColumn) ← Text.lineColumn? text span.stop
  let first ← Text.charOffset? text span.start
  let last ← Text.charOffset? text span.stop
  return { ofBytes span with
    charLength := some (signed (last - first))
    charOffset := some (signed first)
    endColumn := some (signed endColumn)
    endLine := some (signed endLine)
    startColumn := some (signed startColumn)
    startLine := some (signed startLine) }

def ofSpan (text : Option String) (span : Span) : Region :=
  (text.bind fun text => within? text.toList span).getD (ofBytes span)

end Region

/-- The place of a method's name. -/
def Location.ofName (uri : String) (index : Int) (name : String) (span : Option Span)
    (text : Option String) : Location where
  artifact := { index, uri }
  region := span.map (Region.ofSpan text)
  functionName := name

/-! ## Insertions as fixes

A fix replaces an empty region of one document by the text of an insertion. Insertions can be read back from
the fixes of any results.
-/

/-- The empty region at a byte offset. -/
def Region.at (text : String) (offset : Nat) : Region :=
  let chars := Text.charOffset? text.toList offset
  { byteLength := some 0
    byteOffset := some (signed offset)
    charLength := chars.map fun _ => 0
    charOffset := chars.map signed }

def Fix.ofInsertion (uri text : String) (insertion : Insertion) : Fix where
  description := some ("Add " ++ Insertion.tag ++ " attribute")
  changes :=
    [{ artifact := { uri }
       replacements := [⟨Region.at text insertion.offset, some insertion.text⟩] }]

/-- The insertion that a replacement makes, if it is one. -/
def Replacement.insertion? (replacement : Replacement) : Option Insertion := do
  let offset ← replacement.deletedRegion.byteOffset
  let text ← replacement.insertedText
  if offset < 0 then none else some ⟨offset.toNat, text⟩

/-- The insertions of a change with the URI they go to. -/
def ArtifactChange.insertions (change : ArtifactChange) : List (String × Insertion) :=
  match change.artifact.uri with
  | none => []
  | some uri => (change.replacements.filterMap (·.insertion?)).map fun insertion => (uri, insertion)

/-- The insertions of a result. Only results of this library's rules have any. -/
def Result.insertions (result : Result) : List (String × Insertion) :=
  if result.ruleId.any Rule.isFixable then
    result.fixes.flatMap fun fix => fix.changes.flatMap (·.insertions)
  else []

/-- Adds an insertion to its group. Groups are in the order of their URIs. -/
def addToGroup (uri : String) (insertion : Insertion) :
    List (String × List Insertion) → List (String × List Insertion)
  | [] => [(uri, [insertion])]
  | (other, group) :: rest =>
    if uri < other then (uri, [insertion]) :: (other, group) :: rest
    else if uri = other then (other, group ++ [insertion]) :: rest
    else (other, group) :: addToGroup uri insertion rest

/-- All insertions of results, grouped by URI, in the order of the results within a group. -/
def insertionsByUri (results : List Result) : List (String × List Insertion) :=
  (results.flatMap (·.insertions)).foldl
    (fun groups (uri, insertion) => addToGroup uri insertion groups) []

end NullReturns.Sarif
