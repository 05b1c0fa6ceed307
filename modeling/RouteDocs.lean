import RouteDocs.CommandLine.Report
import RouteDocs.Main
import RouteDocs.Proofs.CommandLine.Failure
import RouteDocs.Proofs.CommandLine.Listing
import RouteDocs.Proofs.Document.RoundTrip
import RouteDocs.Proofs.Document.Table
import RouteDocs.Proofs.Document.Written
import RouteDocs.Proofs.Manifest.Namespace
import RouteDocs.Proofs.Manifest.Problems
import RouteDocs.Proofs.Manifest.Spans
import RouteDocs.Proofs.Manifest.Undocumented
import RouteDocs.Proofs.Naming.NameParts
import RouteDocs.Proofs.Operation.Methods
import RouteDocs.Proofs.Operation.Placeholders
import RouteDocs.Proofs.Operation.Required
import RouteDocs.Proofs.Operation.Responses
import RouteDocs.Proofs.Response.Calls
import RouteDocs.Proofs.Route.ResourceName
import RouteDocs.Proofs.Rules.Exact
import RouteDocs.Proofs.Rules.TypeOrder
import RouteDocs.Proofs.Schema.Forms
import RouteDocs.Proofs.Schema.Frame
import RouteDocs.Proofs.Schema.Reorder
import RouteDocs.Proofs.Schema.Segments
import RouteDocs.Proofs.Schema.Spelling
import RouteDocs.Proofs.Schema.Totality
import RouteDocs.Proofs.Schema.Uploads
import RouteDocs.Proofs.Settings.Precedence
import RouteDocs.Schema.Given
