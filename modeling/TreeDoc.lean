import TreeDoc.Main
import TreeDoc.Model.Emitter
import TreeDoc.Proofs.BuilderRuns
import TreeDoc.Proofs.Comparison
import TreeDoc.Proofs.Conformance
import TreeDoc.Proofs.DocumentText
import TreeDoc.Proofs.Emitter
import TreeDoc.Proofs.FailurePlaces
import TreeDoc.Proofs.FixtureLists
import TreeDoc.Proofs.Format
import TreeDoc.Proofs.Grouping
import TreeDoc.Proofs.IntegerLiterals
import TreeDoc.Proofs.Likeness
import TreeDoc.Proofs.LineBreaks
import TreeDoc.Proofs.Nesting
import TreeDoc.Proofs.NodeSteps
import TreeDoc.Proofs.Outline
import TreeDoc.Proofs.Pointers
import TreeDoc.Proofs.Positions
import TreeDoc.Proofs.ReadBack
import TreeDoc.Proofs.RootOrder
import TreeDoc.Proofs.Sameness
import TreeDoc.Proofs.Schedules
import TreeDoc.Proofs.SourceText
import TreeDoc.Proofs.Splicing
import TreeDoc.Proofs.StatementReader
import TreeDoc.Proofs.StatementText
import TreeDoc.Proofs.Stubs
import TreeDoc.Proofs.Texts
import TreeDoc.Proofs.WrittenFiles
