import NullReturns.Finding
import NullReturns.Sarif.Result
import NullReturns.Snapshot.Compilation

/-! # Analysis of a compilation

Every body of every unit is looked at, and reported at most once. Before any work and before each body
the analysis asks whether it has to stop; work that it skips leaves the outcome incomplete.
-/

namespace NullReturns

structure Analysis where
  /-- The rules that results may be for, whether or not they were looked at. -/
  rules : List Rule
  results : List Sarif.Result
  /-- No body was skipped. -/
  isComplete : Bool
deriving Repr

namespace SourceUnit

/-- The line that would mark the reported method. -/
def insertion? (unit : SourceUnit) (report : Report) : Option Insertion := do
  Insertion.marker? (← unit.text) (← report.location).start

/-- A report on a body of the unit with the given index. -/
def result (unit : SourceUnit) (index : Nat) (table : Table) (report : Report) : Sarif.Result where
  ruleId := report.rule.id
  level := Rule.severity
  message := report.rule.message
  locations := [.ofName unit.uri index (table.qualifiedName report.method) report.location unit.text]
  fixes := (unit.text.bind fun text =>
    (unit.insertion? report).map (Sarif.Fix.ofInsertion unit.uri text)).toList

end SourceUnit

namespace Compilation

/-- All bodies, each with its unit and the unit's index. -/
def sites (compilation : Compilation) : List ((SourceUnit × Nat) × Body) :=
  compilation.units.zipIdx.flatMap fun unit => unit.1.bodies.map fun body => (unit, body)

/-- The result of looking at one body. -/
def resultAt? (compilation : Compilation) : (SourceUnit × Nat) × Body → Option Sarif.Result
  | ((unit, index), body) =>
    (Report.ofBody? compilation.table body).map (unit.result index compilation.table)

/-- Looks at every body for which `isStopped` answers no. -/
def analyze {m : Type → Type} [Monad m] (isStopped : m Bool) (compilation : Compilation) :
    m Analysis := do
  if ← isStopped then
    return ⟨Rule.all, [], false⟩
  let visits ← compilation.sites.mapM fun site => do
    return if ← isStopped then none else some (compilation.resultAt? site)
  return ⟨Rule.all, Sarif.Result.sort (visits.filterMap Option.join), visits.all Option.isSome⟩

/-- Looks at every body. -/
def analyzeAll (compilation : Compilation) : Analysis :=
  analyze (m := Id) (pure false) compilation

end Compilation

end NullReturns
