import NullReturns.Command.Run
import NullReturns.Proofs.Grouping
import NullReturns.Proofs.ProposedInsertions
import Mathlib.Data.List.Nodup
import Mathlib.Data.Option.Basic

/-! # Fixed copies on disk

The fixed copy of a unit has the lines of its text with a marker line above each line on which the name
of a reported method starts. Writing the fixed sources of a compilation writes the copies of all units
that have one, each to a path of its own, unless two of them have the same file name.
-/

namespace NullReturns

/-! ## Names of copies -/

namespace Files

private theorem not_mem_of_mem_split {separator : Char} {text piece : List Char}
    (member : piece ∈ Text.split separator text) : separator ∉ piece := by
  induction text generalizing piece with
  | nil =>
    rw [List.mem_singleton.mp member]
    exact List.not_mem_nil
  | cons c rest ih =>
    rw [Text.split] at member
    split_ifs at member with same
    · rcases List.mem_cons.mp member with rfl | listed
      · exact List.not_mem_nil
      · exact ih listed
    · cases parts : Text.split separator rest with
      | nil =>
        rw [parts, List.mem_singleton] at member
        rw [member, List.mem_singleton]
        exact Ne.symm same
      | cons first more =>
        rw [parts] at member ih
        rcases List.mem_cons.mp member with rfl | listed
        · exact List.not_mem_cons_of_ne_of_not_mem (Ne.symm same) (ih List.mem_cons_self)
        · exact ih (List.mem_cons_of_mem first listed)

theorem Path.not_mem_fileName? {text name : String} (found : (ofString text).fileName? = some name) :
    '/' ∉ name.toList := by
  have listed : name ∈ (ofString text).names := List.mem_of_getLast? (Option.filter_eq_some_iff.mp found).1
  have piece : name ∈ pieces text := by
    rw [ofString] at listed
    split at listed
    · rename_i rest first
      rw [first]
      rcases List.mem_cons.mp listed with rfl | kept
      · exact List.mem_cons_self
      · exact List.mem_cons_of_mem "." (List.mem_filter.mp kept).1
    · exact (List.mem_filter.mp listed).1
  obtain ⟨chars, member, rfl⟩ := List.mem_map.mp piece
  rw [String.toList_ofList]
  exact not_mem_of_mem_split member

/-- Names lead to different places from one directory. -/
theorem join_injective {directory first second : String} (plain : '/' ∉ first.toList)
    (plain' : '/' ∉ second.toList) (same : join directory first = join directory second) :
    first = second := by
  have relative (name : String) (plain : '/' ∉ name.toList) : ¬ name.toList.head? = some '/' :=
    fun slash => plain (List.mem_of_head? slash)
  simp only [join, relative first plain, relative second plain', decide_false, Bool.false_or] at same
  split_ifs at same
  · exact same
  · exact String.append_right_inj directory |>.mp same
  · exact String.append_right_inj (directory ++ "/") |>.mp same

theorem nodup_map_join {α : Type} {list : List α} {name : α → String}
    (plain : ∀ entry ∈ list, '/' ∉ (name entry).toList) (apart : (list.map name).Nodup) (directory : String) :
    (list.map fun entry => join directory (name entry)).Nodup := by
  refine List.pairwise_map.mpr ((List.pairwise_map.mp apart).imp_of_mem ?_)
  intro left right here there differ same
  exact differ (join_injective (plain left here) (plain right there) same)

end Files

/-! ## The copies that a compilation asks for -/

namespace SourceUnit

variable {unit : SourceUnit} {table : Table}

/-- The file name and the lines of the unit's fixed copy. A unit has one if it has a text and a file name
and the name of a reported method starts at a boundary of the text. -/
def copy? (table : Table) (unit : SourceUnit) : Option (String × List (List Char)) := do
  let text ← unit.text
  let fileName ← (Files.Path.ofString unit.uri).fileName?
  if (unit.nameStarts table).any (Text.isBoundary text.toList) then
    some (fileName, Insertion.markedLines text.toList (unit.nameStarts table))
  else none

theorem copy?_eq_some_iff {name : String} {lines : List (List Char)} :
    unit.copy? table = some (name, lines) ↔ ∃ text ∈ unit.text,
      (Files.Path.ofString unit.uri).fileName? = some name ∧
        (∃ offset ∈ unit.nameStarts table, Text.isBoundary text.toList offset = true) ∧
          lines = Insertion.markedLines text.toList (unit.nameStarts table) := by
  simp only [copy?, bind, Option.bind_eq_some_iff, Option.mem_def, Option.ite_none_right_eq_some, List.any_eq_true,
    Option.some.injEq, Prod.mk.injEq]
  constructor
  · rintro ⟨text, known, _, named, fits, rfl, rfl⟩
    exact ⟨text, known, named, fits, rfl⟩
  · rintro ⟨text, known, named, fits, rfl⟩
    exact ⟨text, known, name, named, fits, rfl, rfl⟩

end SourceUnit

namespace Compilation

/-- The file names and lines of the copies of all units. -/
def copies (compilation : Compilation) : List (String × List (List Char)) :=
  compilation.units.filterMap (·.copy? compilation.table)

variable {compilation : Compilation}

private theorem plain_of_mem_copies {copy : String × List (List Char)} (member : copy ∈ compilation.copies) :
    '/' ∉ copy.1.toList := by
  obtain ⟨unit, _, copied⟩ := List.mem_filterMap.mp member
  obtain ⟨_, _, named, _⟩ := SourceUnit.copy?_eq_some_iff.mp copied
  exact Files.Path.not_mem_fileName? named

theorem nodup_paths (directory : String) (apart : (compilation.copies.map (·.1)).Nodup) :
    (compilation.copies.map fun copy => Files.join directory copy.1).Nodup :=
  Files.nodup_map_join (fun _ => plain_of_mem_copies) apart directory

end Compilation

/-! ## The copies that are planned -/

namespace FixedSource

theorem ofInsertions?_eq_some_iff {source : String → Option String} {uri : String} {insertions : List Insertion}
    {copy : FixedSource} : ofInsertions? source uri insertions = some copy ↔
      ∃ text ∈ source uri, ∃ name ∈ (Files.Path.ofString uri).fileName?,
        copy = ⟨uri, name, Insertion.applyAll text insertions⟩ := by
  simp only [ofInsertions?, bind, pure, Option.bind_eq_some_iff, Option.mem_def, Option.some.injEq]
  grind

/-- Candidates differ in their URIs. -/
theorem candidates_pairwise (source : String → Option String) (results : List Sarif.Result) :
    (candidates source results).Pairwise fun left right => left.uri ≠ right.uri := by
  rw [candidates, List.pairwise_filterMap]
  refine (Sarif.isGrouping_insertionsByUri results).sorted.imp ?_
  intro left right less copy made copy' made'
  obtain ⟨_, _, _, _, rfl⟩ := ofInsertions?_eq_some_iff.mp made
  obtain ⟨_, _, _, _, rfl⟩ := ofInsertions?_eq_some_iff.mp made'
  exact ne_of_lt less

/-- There is no collision exactly when all file names differ. -/
theorem firstCollision?_eq_none_iff {seen copies : List FixedSource} :
    firstCollision? seen copies = none ↔ (copies.map (·.fileName)).Nodup ∧
      ∀ copy ∈ copies, ∀ earlier ∈ seen, earlier.fileName ≠ copy.fileName := by
  induction copies generalizing seen with
  | nil => simp [firstCollision?]
  | cons copy rest ih =>
    rw [firstCollision?]
    cases found : seen.find? (·.fileName == copy.fileName) with
    | some earlier =>
      have listed := List.mem_of_find?_eq_some found
      have same : earlier.fileName = copy.fileName := by simpa using List.find?_some found
      refine iff_of_false (Option.some_ne_none _) ?_
      rintro ⟨_, apart⟩
      exact apart copy List.mem_cons_self earlier listed same
    | none =>
      have fresh (earlier : FixedSource) (listed : earlier ∈ seen) : earlier.fileName ≠ copy.fileName := by
        simpa using List.find?_eq_none.mp found earlier listed
      simp only [ih, List.map_cons, List.nodup_cons, List.mem_cons, forall_eq_or_imp, List.mem_map, not_exists]
      grind

/-- A copy as it can be told from others: URI, file name and lines. -/
def summary (copy : FixedSource) : String × String × List (List Char) :=
  (copy.uri, copy.fileName, Text.lines copy.text.toList)

end FixedSource

namespace Compilation

variable {compilation : Compilation} {unit : SourceUnit} {text : String}
  (distinct : (compilation.units.map (·.uri)).Nodup) (short : compilation.HasShortTexts)

include distinct

private theorem sourceText?_eq (member : unit ∈ compilation.units) : compilation.sourceText? unit.uri = unit.text := by
  cases found : compilation.sourceText? unit.uri with
  | none =>
    have absent := List.findSome?_eq_none_iff.mp found unit (List.mem_reverse.mpr member)
    rw [if_pos rfl] at absent
    exact absent.symm
  | some text =>
    obtain ⟨other, listed, hit⟩ := List.exists_of_findSome?_eq_some found
    split_ifs at hit with same
    rw [← hit, List.inj_on_of_nodup_map distinct (List.mem_reverse.mp listed) member same]

include short

/-- The insertions proposed for a unit's URI are the markers of its own names. -/
theorem mem_insertions_of_unit (member : unit ∈ compilation.units) (known : text ∈ unit.text)
    {insertion : Insertion} : (unit.uri, insertion) ∈ compilation.analyzeAll.results.flatMap (·.insertions) ↔
      ∃ offset ∈ unit.nameStarts compilation.table, Insertion.marker? text offset = some insertion := by
  rw [mem_insertions short]
  constructor
  · rintro ⟨other, listed, same, text', known', marked⟩
    obtain rfl := List.inj_on_of_nodup_map distinct listed member same
    obtain rfl := Option.mem_unique known known'
    exact marked
  · intro marked
    exact ⟨unit, member, rfl, text, known, marked⟩

/-- Applying a unit's group of insertions adds the marker lines of its names. -/
theorem lines_applyAll_group (inside : unit ∈ compilation.units) (known : text ∈ unit.text)
    {group : List Insertion} (member : (unit.uri, group) ∈ Sarif.insertionsByUri compilation.analyzeAll.results) :
    Text.lines (Insertion.applyAll text group).toList =
      Insertion.markedLines text.toList (unit.nameStarts compilation.table) := by
  apply Insertion.lines_applyAll
  intro insertion
  rw [(Sarif.isGrouping_insertionsByUri _).mem_group member, mem_insertions_of_unit distinct short inside known]

theorem mem_candidates {uri name : String} {lines : List (List Char)} :
    (uri, name, lines) ∈
        (FixedSource.candidates compilation.sourceText? compilation.analyzeAll.results).map (·.summary) ↔
      ∃ unit ∈ compilation.units, unit.uri = uri ∧ unit.copy? compilation.table = some (name, lines) := by
  have grouping := Sarif.isGrouping_insertionsByUri compilation.analyzeAll.results
  simp only [FixedSource.candidates, List.mem_map, List.mem_filterMap, FixedSource.ofInsertions?_eq_some_iff]
  constructor
  · rintro ⟨_, ⟨⟨_, group⟩, member, text, found, _, named, rfl⟩, same⟩
    simp only [FixedSource.summary, Prod.mk.injEq] at same
    obtain ⟨rfl, rfl, rfl⟩ := same
    -- The group is not empty, and one of its markers leads to the unit.
    obtain ⟨insertion, listed⟩ := List.exists_mem_of_ne_nil group (grouping.nonempty member)
    obtain ⟨unit, inside, rfl, text', known, offset, starts, marked⟩ :=
      (mem_insertions short).mp ((grouping.mem_group member).mp listed)
    rw [sourceText?_eq distinct inside] at found
    obtain rfl := Option.mem_unique found known
    obtain ⟨_, on, _⟩ := Insertion.marker?_eq_some_iff.mp marked
    have lines := lines_applyAll_group distinct short inside known member
    exact ⟨unit, inside, rfl, SourceUnit.copy?_eq_some_iff.mpr
      ⟨text, known, named, ⟨offset, starts, on.isBoundary⟩, lines⟩⟩
  · rintro ⟨unit, inside, rfl, copied⟩
    obtain ⟨text, known, named, ⟨offset, starts, fits⟩, rfl⟩ := SourceUnit.copy?_eq_some_iff.mp copied
    obtain ⟨number, on⟩ := Text.exists_onLine fits
    have proposed := (mem_insertions_of_unit distinct short inside known).mpr
      ⟨offset, starts, Insertion.marker?_eq_some_iff.mpr ⟨number, on, rfl⟩⟩
    obtain ⟨group, member, _⟩ := grouping.covers.mpr proposed
    refine ⟨_, ⟨(unit.uri, group), member, text, ?_, name, named, rfl⟩, ?_⟩
    · rwa [sourceText?_eq distinct inside]
    · rw [FixedSource.summary, lines_applyAll_group distinct short inside known member]

/-- The candidates are the copies of units. -/
theorem perm_candidates :
    ((FixedSource.candidates compilation.sourceText? compilation.analyzeAll.results).map (·.summary)).Perm
      (compilation.units.filterMap fun unit =>
        (unit.copy? compilation.table).map fun copy => (unit.uri, copy)) := by
  refine (List.perm_ext_iff_of_nodup ?_ ?_).mpr ?_
  · refine List.pairwise_map.mpr ((FixedSource.candidates_pairwise _ _).imp ?_)
    intro left right apart same
    exact apart (congrArg (·.1) same)
  · refine List.pairwise_filterMap.mpr ((List.pairwise_map.mp distinct).imp ?_)
    intro left right apart copy found copy' found' same
    obtain ⟨_, _, rfl⟩ := Option.map_eq_some_iff.mp found
    obtain ⟨_, _, rfl⟩ := Option.map_eq_some_iff.mp found'
    exact apart (congrArg (·.1) same)
  · rintro ⟨uri, name, lines⟩
    simp only [mem_candidates distinct short, List.mem_filterMap, Option.map_eq_some_iff, Prod.mk.injEq]
    constructor
    · rintro ⟨unit, inside, located, copied⟩
      exact ⟨unit, inside, (name, lines), copied, located, rfl⟩
    · rintro ⟨unit, inside, _, copied, located, rfl⟩
      exact ⟨unit, inside, located, copied⟩

private theorem perm_copies :
    ((FixedSource.candidates compilation.sourceText? compilation.analyzeAll.results).map fun copy =>
      (copy.fileName, Text.lines copy.text.toList)).Perm compilation.copies := by
  have keyed := (perm_candidates distinct short).map (·.2)
  rw [List.map_map, List.map_filterMap] at keyed
  simpa only [Option.map_map, Function.comp_def, Option.map_id', FixedSource.summary, copies] using keyed

/-- The plan fails when two copies have the same file name, and has all copies otherwise. -/
theorem plan_cases :
    (¬ (compilation.copies.map (·.1)).Nodup ∧
      ∃ collision, FixedSource.plan compilation.sourceText? compilation.analyzeAll.results = .error collision) ∨
    ((compilation.copies.map (·.1)).Nodup ∧
      ∃ planned, FixedSource.plan compilation.sourceText? compilation.analyzeAll.results = .ok planned ∧
        (planned.map fun copy => (copy.fileName, Text.lines copy.text.toList)).Perm compilation.copies) := by
  have same := perm_copies distinct short
  have names := (same.map (·.1)).nodup_iff
  rw [List.map_map] at names
  have collides := @FixedSource.firstCollision?_eq_none_iff []
    (FixedSource.candidates compilation.sourceText? compilation.analyzeAll.results)
  simp only [List.not_mem_nil, false_implies, implies_true, and_true] at collides
  rw [FixedSource.plan]
  cases found : FixedSource.firstCollision? []
      (FixedSource.candidates compilation.sourceText? compilation.analyzeAll.results) with
  | some collision =>
    refine .inl ⟨?_, collision, rfl⟩
    rw [← names]
    intro apart
    rw [collides.mpr apart] at found
    contradiction
  | none =>
    exact .inr ⟨names.mp (collides.mp found), _, rfl, ((List.mergeSort_perm _ _).map _).trans same⟩

end Compilation

/-! ## Writing the copies -/

/-- What was put on a disk. -/
structure Ledger where
  made : List String := []
  written : List (String × String) := []

/-- A host on which every operation succeeds and is noted. -/
def Ledger.host : Host (StateM Ledger) where
  holds _ := pure true
  read _ := pure (.ok "")
  write path text := do
    modify fun ledger => { ledger with written := ledger.written ++ [(path, text)] }
    return .ok ()
  makeAll path := do
    modify fun ledger => { ledger with made := ledger.made ++ [path] }
    return .ok ()
  print _ := pure ()
  report _ := pure ()
  now := pure 0

/-- The file that a copy is written to, and its text. -/
def FixedSource.file (directory : String) (copy : FixedSource) : String × String :=
  (Files.join directory copy.fileName, copy.text)

private theorem run_bind_ok {ε σ α β : Type} {act : ExceptT ε (StateM σ) α}
    {next : α → ExceptT ε (StateM σ) β} {state later : σ} {value : α}
    (ran : act.run.run state = (.ok value, later)) :
    (act >>= next).run.run state = (next value).run.run later := by
  rw [ExceptT.run_bind, StateT.run_bind, ran]
  rfl

private theorem run_writeAll (directory : String) (copies : List FixedSource) (ledger : Ledger) :
    ((copies.forM fun copy =>
      let path := Files.join directory copy.fileName
      attempt (Ledger.host.write path copy.text) (.sourceNotWritten path)).run.run ledger) =
      (.ok (), { ledger with written := ledger.written ++ copies.map (FixedSource.file directory) }) := by
  induction copies generalizing ledger with
  | nil =>
    rw [List.map_nil, List.append_nil]
    rfl
  | cons copy rest ih =>
    refine (ih { ledger with written := ledger.written ++ [FixedSource.file directory copy] }).trans ?_
    rw [List.map_cons, List.append_assoc, List.singleton_append]

theorem run_writeFixedSources (directory : String) (source : String → Option String)
    (results : List Sarif.Result) (ledger : Ledger) :
    (writeFixedSources Ledger.host directory source results).run.run ledger =
      match FixedSource.plan source results with
      | .error collision => (.error (.collision directory collision), ledger)
      | .ok copies => (.ok copies.length,
          ⟨ledger.made ++ [directory], ledger.written ++ copies.map (FixedSource.file directory)⟩) := by
  cases planned : FixedSource.plan source results with
  | error collision =>
    rw [writeFixedSources, planned]
    rfl
  | ok copies =>
    have all := run_writeAll directory copies { ledger with made := ledger.made ++ [directory] }
    rw [writeFixedSources, planned]
    exact (run_bind_ok rfl).trans ((run_bind_ok rfl).trans ((run_bind_ok all).trans rfl))

namespace Compilation

/-- Analyzes a compilation without time limit and writes its fixed sources to a directory. -/
def fixInto {m : Type → Type} [Monad m] (host : Host m) (directory : String) (compilation : Compilation) :
    ExceptT RunError m Nat := do
  let analysis ← (analyzeWithin host none compilation : m Analysis)
  writeFixedSources host directory compilation.sourceText? analysis.results

private theorem run_fixInto (compilation : Compilation) (directory : String) (ledger : Ledger) :
    (compilation.fixInto Ledger.host directory).run.run ledger =
      (writeFixedSources Ledger.host directory compilation.sourceText?
        compilation.analyzeAll.results).run.run ledger := by
  have analyzed : analyzeWithin Ledger.host none compilation = pure compilation.analyzeAll := by
    rw [analyzeAll_eq]
    exact compilation.analyze_unstopped
  rw [fixInto, analyzed]
  rfl

/-- A text with two reports on its last line, which has no terminator of its own, and a second unit of the
same file name without text. -/
def crlfSample : Compilation where
  table := ⟨[], [⟨"T.Find", "Find", "()", 0, .reference "T", false, none, [], some ⟨13, 17⟩⟩]⟩
  units := [⟨"src/A.cs", some "class T\r\n  T Find();", [body, body]⟩, ⟨"lib/A.cs", none, [body]⟩]
where
  body : Body :=
    .ofTree .method (some 0) (fun _ => none)
      (.node .block [.node .return [.node .literal [] (some .null) none none] none none none] none none none)

end Compilation

end NullReturns
