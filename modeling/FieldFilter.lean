import FieldFilter.Document.Limits
import FieldFilter.Document.Record
import FieldFilter.Engine
import FieldFilter.Proofs.Compilation.Composition
import FieldFilter.Proofs.Compilation.Guarantees
import FieldFilter.Proofs.Compilation.RaisedLimits
import FieldFilter.Proofs.Compilation.Shipping
import FieldFilter.Proofs.Document.Configuration
import FieldFilter.Proofs.Query.Canonization
import FieldFilter.Proofs.Query.Misfit
import FieldFilter.Proofs.Token.Tiling
import FieldFilter.Proofs.Record.Agreement
import FieldFilter.Proofs.Compilation.NestingLimit
import FieldFilter.Proofs.Engine.Filtering
import FieldFilter.Proofs.Schema.Agreement
import FieldFilter.Proofs.Record.Comparisons
import FieldFilter.Proofs.Schema.Ranges
import FieldFilter.Proofs.Pattern.IgnoringCase
import FieldFilter.Proofs.Predicate.Asking
import FieldFilter.Proofs.Token.Locality
import FieldFilter.Proofs.Query.Layout
import FieldFilter.Proofs.Query.EndOfInput
import FieldFilter.Proofs.Query.SuppliedEnd
import FieldFilter.Proofs.Query.ErrorPlaces
import FieldFilter.Proofs.Query.Literals
import FieldFilter.Proofs.Query.NeededParentheses
import FieldFilter.Proofs.Pattern.Styles
import FieldFilter.Proofs.Query.Summaries
import FieldFilter.Proofs.Compilation.LeastLimits
import FieldFilter.Proofs.Query.CallDepth
