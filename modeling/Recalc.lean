import Recalc.Build
import Recalc.Proofs.Address.CanonicalKeys
import Recalc.Proofs.Address.Clamping
import Recalc.Proofs.Address.ColumnLetters
import Recalc.Proofs.Build.Closure
import Recalc.Proofs.Build.CompileSteps
import Recalc.Proofs.Build.Contents
import Recalc.Proofs.Build.Exactness
import Recalc.Proofs.Build.PartialModel
import Recalc.Proofs.Build.QuotedSheet
import Recalc.Proofs.Build.RangeHandles
import Recalc.Proofs.Build.SeedSteps
import Recalc.Proofs.Build.SingleCells
import Recalc.Proofs.Build.StoredFormulas
import Recalc.Proofs.Decimal.Counts
import Recalc.Proofs.Decimal.LeftRounding
import Recalc.Proofs.Decimal.NumberLine
import Recalc.Proofs.Decimal.Positives
import Recalc.Proofs.Formula.Compile.Generation
import Recalc.Proofs.Formula.Compile.Literals
import Recalc.Proofs.Formula.Compile.Postorder
import Recalc.Proofs.Formula.Compile.Siblings
import Recalc.Proofs.Formula.Compile.Subexpressions
import Recalc.Proofs.Formula.Lexeme.BracketPairing
import Recalc.Proofs.Formula.Lexeme.ErrorValues
import Recalc.Proofs.Formula.Lexeme.Wording
import Recalc.Proofs.Formula.Parse.ArgumentSlots
import Recalc.Proofs.Formula.Parse.Phrases
import Recalc.Proofs.Formula.Parse.PrefixSigns
import Recalc.Proofs.Formula.Parse.TokenPlacement
import Recalc.Proofs.Formula.Render.CompiledSpelling
import Recalc.Proofs.Formula.Render.Delimiting
import Recalc.Proofs.Formula.Render.Rendering
import Recalc.Proofs.Formula.Render.Unambiguous
import Recalc.Proofs.Formula.Render.UnsignedNumbers
import Recalc.Proofs.Library.Complements
import Recalc.Proofs.Library.LookupAgreement
import Recalc.Proofs.Library.Lookups
import Recalc.Proofs.Library.OwnText
import Recalc.Proofs.Library.Vectors
import Recalc.Proofs.Library.Wildcards
import Recalc.Proofs.Model.Evaluate.Aftermath
import Recalc.Proofs.Model.Evaluate.Demand
import Recalc.Proofs.Model.Evaluate.FailureNames
import Recalc.Proofs.Model.Evaluate.Limits
import Recalc.Proofs.Model.Evaluate.Plan
import Recalc.Proofs.Model.Evaluate.Progress
import Recalc.Proofs.Model.Graph.CycleDetection
import Recalc.Proofs.Model.Graph.Cycles
import Recalc.Proofs.Model.Session.Consistency
import Recalc.Proofs.Model.Session.Narrowing
import Recalc.Proofs.Model.Session.Resets
import Recalc.Proofs.Model.Session.Retention
import Recalc.Proofs.Model.Session.Transparency
import Recalc.Proofs.Model.State.Sweep
import Recalc.Proofs.Query.Comparisons
import Recalc.Proofs.Query.Fallback
