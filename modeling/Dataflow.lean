import Dataflow.Text.Span
import Dataflow.Text.Quoted
import Dataflow.Number.Decimal
import Dataflow.Token.Lexer
import Dataflow.Expr.Parser
import Dataflow.Expr.References
import Dataflow.Expr.Render
import Dataflow.Json.Reading
import Dataflow.Diagnostic
import Dataflow.Graph.Builder
import Dataflow.Graph.Summary
import Dataflow.Document.Encode
import Dataflow.Document.Load
import Dataflow.Graph.Dot
import Dataflow.Graph.Validation
import Dataflow.Pipeline.Source
import Dataflow.Main
import Dataflow.Proofs.Rendering
import Dataflow.Proofs.Wiring
import Dataflow.Proofs.Loading
import Dataflow.Proofs.Certificates
import Dataflow.Proofs.Compiling
import Dataflow.Proofs.Lines
import Dataflow.Proofs.Registries
import Dataflow.Proofs.Reading
import Dataflow.Proofs.Decoding
import Dataflow.Proofs.Closed
import Dataflow.Proofs.Parsed
import Dataflow.Proofs.Hygiene
import Dataflow.Proofs.Unambiguous
import Dataflow.Proofs.Refusals
import Dataflow.Proofs.Viable
import Dataflow.Proofs.Munching
import Dataflow.Proofs.Phrases
import Dataflow.Proofs.Uses
import Dataflow.Proofs.Nesting
import Dataflow.Proofs.Rearranging
import Dataflow.Proofs.Choices
import Dataflow.Proofs.Literals
import Dataflow.Proofs.Labels
import Dataflow.Proofs.Lookups
import Dataflow.Proofs.Naming
import Dataflow.Proofs.Outline
import Dataflow.Proofs.Reports
import Dataflow.Proofs.Members
import Dataflow.Proofs.Consistency
import Dataflow.Proofs.Resolution
import Dataflow.Proofs.Fingerprints
