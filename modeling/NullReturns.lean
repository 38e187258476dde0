import NullReturns.Host
import NullReturns.Main
import NullReturns.Proofs.Acceptance
import NullReturns.Proofs.AddedAttributes
import NullReturns.Proofs.AssembledTable
import NullReturns.Proofs.DeclaredReport
import NullReturns.Proofs.DocumentOrder
import NullReturns.Proofs.FixRounds
import NullReturns.Proofs.FixedCopies
import NullReturns.Proofs.ImplementedMembers
import NullReturns.Proofs.Marking
import NullReturns.Proofs.NestedFunctions
import NullReturns.Proofs.RearrangedResults
import NullReturns.Proofs.ResultOrder
import NullReturns.Proofs.StoppedAnalysis
import NullReturns.Proofs.Merging
import NullReturns.Proofs.LinkedReferences
import NullReturns.Proofs.Literals
import NullReturns.Proofs.SpelledText
import NullReturns.Proofs.WrittenForms
import NullReturns.Proofs.WrittenSnapshots
import NullReturns.Proofs.NearestInterfaces
import NullReturns.Proofs.CarriedInsertions
import NullReturns.Proofs.SuccessiveMarks
import NullReturns.Proofs.WrittenCopies
import NullReturns.Proofs.NearestImplementations
import NullReturns.Proofs.Unfolding
import NullReturns.Proofs.GuardedPositions
import NullReturns.Proofs.OneReport
import NullReturns.Proofs.LineRanges
import NullReturns.Proofs.LineTerminators
import NullReturns.Proofs.Columns
import NullReturns.Proofs.Regions
