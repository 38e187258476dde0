import NullReturns.Host
import NullReturns.Proofs.AnalysisResults
import NullReturns.Proofs.DeclaredReport
import NullReturns.Proofs.Rearrangement
import NullReturns.Sarif.Document
import NullReturns.Snapshot.Load

/-! # Results of rearranged snapshots

Results tell methods by name and place, so the numbers that types and methods have do not show in them:
the order of the types, of their interfaces and of the attributes of methods makes no difference to what
a snapshot leads to.
-/

namespace NullReturns

/-- The rules that a tree breaks depend on which keys name a method with the marker, and on nothing else of
the table. -/
theorem Tree.firstRule?_congr {table table' : Table} {resolve resolve' : String → Option MethodId}
    (same : ∀ key, (resolve' key).any table'.hasMarker = (resolve key).any table.hasMarker) (root : Tree) :
    root.firstRule? table' resolve' = root.firstRule? table resolve := by
  have targets (target : Option String) :
      (target.bind resolve').any table'.hasMarker = (target.bind resolve).any table.hasMarker := by
    cases target with
    | none => rfl
    | some key => exact same key
  have calls (statement : Tree) :
      statement.yieldsMarkedCall table' resolve' = statement.yieldsMarkedCall table resolve := by
    simp only [yieldsMarkedCall, targets]
  have rules (statement : Tree) : statement.rule? table' resolve' = statement.rule? table resolve := by
    rw [rule?, rule?, calls]
  simp only [firstRule?, rules]

namespace Snapshot

variable {old new : Snapshot}

namespace Matching

theorem firstRule? (matching : old.Matching new) (root : Tree) :
    root.firstRule? new.table new.methodId? = root.firstRule? old.table old.methodId? := by
  refine root.firstRule?_congr fun key => ?_
  rw [matching.methodId?, Option.any_map]
  congr 1
  funext id
  exact matching.hasMarker id

variable (matching : old.Matching new)

theorem owner? (body : DeclaredBody) : Report.owner? new.table (new.linkBody body) =
    (Report.owner? old.table (old.linkBody body)).map matching.methods := by
  have owner : (new.linkBody body).owner = (old.linkBody body).owner.map matching.methods := by
    simp only [linkBody, Body.ofTree, funext matching.methodId?, Option.map_bind]
    rfl
  have kind : (new.linkBody body).kind = (old.linkBody body).kind := rfl
  rw [Report.owner?, Report.owner?, owner, kind]
  split
  · cases (old.linkBody body).owner with
    | none => rfl
    | some id =>
      rw [Option.map_some]
      simp only [bind, Option.bind_some, matching.isMarked]
      rcases matching.renumbering.method?_cases id with ⟨known, known'⟩ | ⟨method, method', known, known', same⟩
      · rw [renumbering_methods] at known'
        rw [known, known', Option.bind_none, Option.bind_none, Option.map_none]
      · rw [renumbering_methods] at known'
        rw [known, known', Option.bind_some, Option.bind_some, same.canHoldNull]
        split <;> rfl
  · rfl

/-- The report of a body, for the other number of its method. -/
theorem ofBody? (body : DeclaredBody) : Report.ofBody? new.table (new.linkBody body) =
    (Report.ofBody? old.table (old.linkBody body)).map fun report =>
      { report with method := matching.methods report.method } := by
  have held : (old.linkBody body).Holds old.methodId? [] 0 body.root := Body.holds_ofTree ..
  have held' : (new.linkBody body).Holds new.methodId? [] 0 body.root := Body.holds_ofTree ..
  rw [Report.ofBody?_eq, Report.ofBody?_eq, matching.owner?, held.firstRule?, held'.firstRule?, matching.firstRule?]
  cases Report.owner? old.table (old.linkBody body) with
  | none => rfl
  | some id =>
    have span := matching.renumbering.nameSpan id
    rw [renumbering_methods] at span
    simp only [Option.map_some, Option.bind_some, Option.map_map, span]
    rfl

end Matching

/-! ## Compilations -/

/-- The compilation of a snapshot that is not refused. -/
def linked (snapshot : Snapshot) : Compilation :=
  ⟨snapshot.table, snapshot.units.map snapshot.linkUnit⟩

/-- The result of looking at one declared body. -/
def resultOf? (snapshot : Snapshot) (unit : DeclaredUnit) (index : Nat) (body : DeclaredBody) :
    Option Sarif.Result :=
  (Report.ofBody? snapshot.table (snapshot.linkBody body)).map ((snapshot.linkUnit unit).result index snapshot.table)

private theorem map_resultAt? (snapshot : Snapshot) :
    snapshot.linked.sites.map snapshot.linked.resultAt? =
      snapshot.units.zipIdx.flatMap fun unit => unit.1.bodies.map (snapshot.resultOf? unit.1 unit.2) := by
  rw [Compilation.sites, List.map_flatMap, linked, List.zipIdx_map, List.flatMap_map]
  refine List.flatMap_congr fun unit _ => ?_
  rw [List.map_map, Prod.map_fst, linkUnit, List.map_map]
  rfl

/-- Results do not show the numbers of methods. -/
theorem Matching.resultOf? (matching : old.Matching new) (unit : DeclaredUnit) (index : Nat) (body : DeclaredBody) :
    new.resultOf? unit index body = old.resultOf? unit index body := by
  rw [Snapshot.resultOf?, Snapshot.resultOf?, matching.ofBody?, Option.map_map]
  congr 1
  funext report
  have name := matching.renumbering.qualifiedName report.method
  rw [renumbering_methods] at name
  simp only [Function.comp_apply, SourceUnit.result, name]
  rfl

end Snapshot

/-- An analysis depends on what each body leads to, and on nothing else of the compilation. -/
theorem Compilation.analyze_congr {m : Type → Type} [Monad m] [LawfulMonad m] {old new : Compilation}
    (same : new.sites.map new.resultAt? = old.sites.map old.resultAt?) (isStopped : m Bool) :
    new.analyze isStopped = old.analyze isStopped := by
  have visits (compilation : Compilation) :
      (compilation.sites.mapM fun site => do
        return if ← isStopped then none else some (compilation.resultAt? site)) =
      (compilation.sites.map compilation.resultAt?).mapM fun seen => do
        return if ← isStopped then none else some seen := by
    rw [List.mapM_map]
    rfl
  simp only [analyze, visits, same]

/-! ## Examination -/

namespace Snapshot

variable {old new : Snapshot}

private theorem length_types {snapshot : Snapshot} (nodup : snapshot.methodKeys.Nodup) :
    snapshot.table.types.length = snapshot.typeNames.length := by
  rw [table_types nodup, List.length_map, typeNames, List.length_map]

private theorem length_methods {snapshot : Snapshot} (nodup : snapshot.typeNames.Nodup) :
    snapshot.table.methods.length = snapshot.methodKeys.length := by
  rw [table_methods nodup, List.length_map, methodKeys_eq, List.length_map]

private theorem bodyCount_linked (snapshot : Snapshot) :
    snapshot.linked.bodyCount = (snapshot.units.flatMap (·.bodies)).length := by
  rw [Compilation.bodyCount, linked, List.flatMap_map, List.length_flatMap, List.length_flatMap]
  simp only [linkUnit, List.length_map]

private theorem artifacts_linked (snapshot : Snapshot) : snapshot.linked.artifacts =
    snapshot.units.map fun unit => SourceUnit.artifact ⟨unit.uri, unit.text, []⟩ := by
  rw [Compilation.artifacts, linked, List.map_map]
  rfl

theorem Rearranged.statistics (rearranged : old.Rearranged new) (accepted : old.error? = none) (analysis : Analysis) :
    Statistics.of new.linked analysis = Statistics.of old.linked analysis := by
  obtain ⟨names, keys, _⟩ := Snapshot.error?_eq_none_iff.mp accepted
  obtain ⟨names', keys', _⟩ := Snapshot.error?_eq_none_iff.mp (rearranged.error?_eq_none_iff.mpr accepted)
  have types : new.linked.table.types.length = old.linked.table.types.length := by
    rw [linked, linked, length_types keys, length_types keys', rearranged.typeNames.length_eq]
  have methods : new.linked.table.methods.length = old.linked.table.methods.length := by
    rw [linked, linked, length_methods names, length_methods names', rearranged.methodKeys.length_eq]
  have units : new.linked.units.length = old.linked.units.length := by
    rw [linked, linked, List.length_map, List.length_map, rearranged.units]
  rw [Statistics.of, Statistics.of, types, methods, units, bodyCount_linked, bodyCount_linked, artifacts_linked,
    artifacts_linked, rearranged.units]

variable {m : Type → Type} [Monad m]

/-- What a snapshot leads to: the results, the artifacts and the counts, or nothing where it is refused. -/
def outcome (isStopped : m Bool) (snapshot : Snapshot) :
    m (Option (List Sarif.Result × List Sarif.Artifact × Statistics)) := do
  match snapshot.link with
  | .error _ => return none
  | .ok compilation =>
    let analysis ← compilation.analyze isStopped
    return some (analysis.results, compilation.artifacts, Statistics.of compilation analysis)

/-- The outcome with the texts that the host has. -/
def examine (host : Host m) (directory : String) (isStopped : m Bool) (snapshot : Snapshot) :
    m (Option (List Sarif.Result × List Sarif.Artifact × Statistics)) := do
  (← snapshot.fill host directory).outcome isStopped

variable [LawfulMonad m]

theorem Rearranged.outcome (rearranged : old.Rearranged new) (isStopped : m Bool) :
    new.outcome isStopped = old.outcome isStopped := by
  cases refused : old.error? with
  | some error =>
    obtain ⟨error', refused'⟩ : ∃ error', new.error? = some error' := by
      rw [← Option.ne_none_iff_exists', ne_eq, rearranged.error?_eq_none_iff, refused]
      exact Option.some_ne_none error
    rw [Snapshot.outcome, Snapshot.outcome, link, link, refused, refused']
  | none =>
    obtain ⟨matching⟩ := rearranged.matching refused
    have links : old.link = .ok old.linked := by
      rw [link, refused]
      rfl
    have links' : new.link = .ok new.linked := by
      rw [link, rearranged.error?_eq_none_iff.mpr refused]
      rfl
    have seen : new.linked.sites.map new.linked.resultAt? = old.linked.sites.map old.linked.resultAt? := by
      simp only [map_resultAt?, rearranged.units, funext (matching.resultOf? _ _)]
    rw [Snapshot.outcome, Snapshot.outcome, links, links']
    simp only [Compilation.analyze_congr seen, artifacts_linked, rearranged.units, rearranged.statistics refused]

/-- The order of types, interfaces and attributes makes no difference to what a snapshot leads to. -/
theorem examine_of_rearranged (rearranged : old.Rearranged new) (host : Host m) (directory : String)
    (isStopped : m Bool) : new.examine host directory isStopped = old.examine host directory isStopped := by
  have filled (units : List DeclaredUnit) :
      ({ new with units } : Snapshot).outcome isStopped = ({ old with units } : Snapshot).outcome isStopped := by
    have moved : ({ old with units } : Snapshot).Rearranged { new with units } := ⟨rearranged.types, rfl⟩
    exact moved.outcome isStopped
  simp only [examine, fill, bind_assoc, pure_bind, rearranged.units, filled]

/-- A class in front of the interfaces that it implements, with a body that is reported. -/
def classFirst : Snapshot where
  types := [
    { name := "Store", interfaces := ["IFind", "ILoad"],
      methods := [
        { name := "Find", returns := .reference "Item" },
        { name := "Load", returns := .reference "Item", attributes := ["Pure", "Obsolete"] }] },
    { name := "ILoad", kind := .interfaceType },
    { name := "IFind", kind := .interfaceType,
      methods := [{ name := "Find", returns := .reference "Item", attributes := ["CanBeNull"] }] }]
  units := [{ uri := "Store.cs", bodies := [body] }]
where
  body : DeclaredBody :=
    { owner := some "Store.Load()",
      root := .node .block [.node .return [.node .invocation [] none (some "IFind.Find()") none] none none none]
        none none none }

/-- The same snapshot with the class behind its interfaces. -/
def classLast : Snapshot where
  types := [
    { name := "IFind", kind := .interfaceType,
      methods := [{ name := "Find", returns := .reference "Item", attributes := ["CanBeNull"] }] },
    { name := "ILoad", kind := .interfaceType },
    { name := "Store", interfaces := ["ILoad", "IFind"],
      methods := [
        { name := "Find", returns := .reference "Item" },
        { name := "Load", returns := .reference "Item", attributes := ["Obsolete", "Pure"] }] }]
  units := classFirst.units

theorem examine_classLast :
    classFirst.Rearranged classLast ∧ classFirst.error? = none ∧
      Report.ofBody? classFirst.table (classFirst.linkBody classFirst.body) = some ⟨.markedCall, 1, none⟩ ∧
      classLast.examine Machine.host "" (pure false) = classFirst.examine Machine.host "" (pure false) := by
  have interfaces : ["ILoad", "IFind"].Perm ["IFind", "ILoad"] := by decide
  have attributes : ["Obsolete", "Pure"].Perm ["Pure", "Obsolete"] := by decide
  have rearranged : classFirst.Rearranged classLast := by
    refine ⟨⟨classFirst.types.reverse, (List.reverse_perm _).symm, .cons ?_ (.cons ?_ (.cons ?_ .nil))⟩, rfl⟩
    · exact ⟨[], _, .nil, .cons ⟨_, .refl _, rfl⟩ .nil, rfl⟩
    · exact ⟨[], [], .nil, .nil, rfl⟩
    · exact ⟨_, _, interfaces, .cons ⟨[], .nil, rfl⟩ (.cons ⟨_, attributes, rfl⟩ .nil), rfl⟩
  exact ⟨rearranged, by decide, by cbv, examine_of_rearranged rearranged Machine.host "" (pure false)⟩

end Snapshot

end NullReturns
