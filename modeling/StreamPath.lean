import StreamPath.Comparison
import StreamPath.Context
import StreamPath.CopyRecord
import StreamPath.Expr.Pattern
import StreamPath.Forest.Copy
import StreamPath.Forest.Fold
import StreamPath.Function.Core
import StreamPath.Rule
import StreamPath.Proofs.Acyclicity
import StreamPath.Proofs.Afresh
import StreamPath.Proofs.Arguments
import StreamPath.Proofs.Assignment
import StreamPath.Proofs.Balance
import StreamPath.Proofs.ComparisonLaws
import StreamPath.Proofs.Displacement
import StreamPath.Proofs.DocumentOrder
import StreamPath.Proofs.Enclosure
import StreamPath.Proofs.FirstOccurrence
import StreamPath.Proofs.Folding
import StreamPath.Proofs.Footprint
import StreamPath.Proofs.Ledger
import StreamPath.Proofs.Lifetime
import StreamPath.Proofs.NestedCopies
import StreamPath.Proofs.Numerals
import StreamPath.Proofs.NumericFilter
import StreamPath.Proofs.Opacity
import StreamPath.Proofs.OpenPrefix
import StreamPath.Proofs.OpenValues
import StreamPath.Proofs.Overloading
import StreamPath.Proofs.Policy
import StreamPath.Proofs.Rank
import StreamPath.Proofs.ReadBack
import StreamPath.Proofs.RecordOrder
import StreamPath.Proofs.Residue
import StreamPath.Proofs.RootedPath
import StreamPath.Proofs.Scoping
import StreamPath.Proofs.Selection
import StreamPath.Proofs.SharedCopies
import StreamPath.Proofs.Specialization
import StreamPath.Proofs.Splitting
import StreamPath.Proofs.StepGrouping
import StreamPath.Proofs.Templates
import StreamPath.Proofs.Termination
import StreamPath.Proofs.Ties
import StreamPath.Proofs.Uniformity
