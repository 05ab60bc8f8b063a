import Stencil.Session
import Stencil.Terminal.Plain
import Stencil.Proofs.Attempt
import Stencil.Proofs.Template.Reading
import Stencil.Proofs.Render.OnePass
import Stencil.Proofs.Template.Nesting
import Stencil.Proofs.Template.Segments
import Stencil.Proofs.Template.BlockEnd
import Stencil.Proofs.Text.Trimmed
import Stencil.Proofs.Template.Canonical
import Stencil.Proofs.Template.RoundTrip
import Stencil.Proofs.Render.Strictness
import Stencil.Proofs.Render.Concatenation
import Stencil.Proofs.Json.Decode
import Stencil.Proofs.Json.Members
import Stencil.Proofs.Json.Printed
import Stencil.Proofs.Value.Decoded
import Stencil.Proofs.Render.Parallel
import Stencil.Proofs.Value.Copies
import Stencil.Proofs.Render.Privacy
import Stencil.Proofs.Render.Reads
import Stencil.Proofs.Diagnostic.Colors
import Stencil.Proofs.Template.Matching
import Stencil.Proofs.Value.Paths
import Stencil.Proofs.Template.Standing
import Stencil.Proofs.Session.History
import Stencil.Proofs.Json.Filing
import Stencil.Proofs.Value.Filing
import Stencil.Proofs.Render.Guarded
import Stencil.Proofs.Render.Stops
import Stencil.Proofs.Value.DeadEnds
import Stencil.Proofs.Diagnostic.Excerpt
import Stencil.Proofs.Diagnostic.Suggestion
import Stencil.Proofs.Diagnostic.Caret
import Stencil.Proofs.Diagnostic.Closest
import Stencil.Proofs.Diagnostic.Compact
import Stencil.Proofs.Diagnostic.Window
import Stencil.Proofs.Terminal.Leftovers
import Stencil.Proofs.Template.Offsets
import Stencil.Proofs.Template.Seeking
import Stencil.Proofs.Template.Parts
import Stencil.Proofs.Template.Alone
