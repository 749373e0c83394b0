import Covenant.Complexity
import Covenant.HostType.Reader
import Covenant.Main
import Covenant.Report.Text
import Covenant.Value.Zero
import Covenant.Proofs.Samples
import Covenant.Proofs.Quotation
import Covenant.Proofs.Comparison
import Covenant.Proofs.RoleNames
import Covenant.Proofs.Skipping
import Covenant.Proofs.ResultExchange
import Covenant.Proofs.CacheLimit
import Covenant.Proofs.Variance
import Covenant.Proofs.FreeNames
import Covenant.Proofs.Rebinding
import Covenant.Proofs.Placements
import Covenant.Proofs.Precision
import Covenant.Proofs.Collections
import Covenant.Proofs.Ancestry
import Covenant.Proofs.WholeArrays
import Covenant.Proofs.Sorting
import Covenant.Proofs.Iteration
import Covenant.Proofs.Counting
import Covenant.Proofs.Shapes
import Covenant.Proofs.Imports
import Covenant.Proofs.Reports
import Covenant.Proofs.Annotation
import Covenant.Proofs.TokenSpans
import Covenant.Proofs.FaultOffsets
import Covenant.Proofs.Defaults
