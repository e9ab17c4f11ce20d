import RelCalc.FinSet.Algebra
import RelCalc.Relation.Properties
import RelCalc.Value.Datum
import RelCalc.Program.Step
import RelCalc.CommandLine.Call
import RelCalc.Main
import RelCalc.Proofs.Numeral
import RelCalc.Proofs.Reference
import RelCalc.Proofs.Typing
import RelCalc.Proofs.Validation.Calls
import RelCalc.Proofs.Validation.Layout
import RelCalc.Proofs.Validation.Elements
import RelCalc.Proofs.Validation.Grammar
import RelCalc.Proofs.Validation.Violation
import RelCalc.Proofs.Evaluation.Agreement
import RelCalc.Proofs.Evaluation.Solution
import RelCalc.Proofs.Renaming.Operations
import RelCalc.Proofs.Evaluation.Lines
import RelCalc.Proofs.Evaluation.LineMap
import RelCalc.Proofs.Evaluation.Renaming
import RelCalc.Program.Session
import RelCalc.Proofs.Evaluation.Session
import RelCalc.Proofs.Evaluation.Confluence
import RelCalc.Proofs.Evaluation.History
import RelCalc.Proofs.Evaluation.Failure
import RelCalc.Proofs.Source.Grammar
import RelCalc.Proofs.Source.LineFormat
import RelCalc.Proofs.Source.Printed
import RelCalc.Proofs.Evaluation.Restated
import RelCalc.Proofs.Evaluation.Reload
import RelCalc.Proofs.Evaluation.Containment
import RelCalc.Proofs.Evaluation.Listing
import RelCalc.Proofs.CommandLine.Totality
import RelCalc.Proofs.Validation.Placement
import RelCalc.Proofs.Evaluation.Respaced
import RelCalc.Proofs.FinSet.Laws
import RelCalc.Proofs.FinSet.Construction
import RelCalc.Proofs.Relation.Projections
import RelCalc.Proofs.FinSet.Comparison
import RelCalc.Proofs.Relation.Adjacency
import RelCalc.Proofs.Evaluation.Resolution
import RelCalc.Proofs.CommandLine.Frame
import RelCalc.Proofs.Value.Collection
