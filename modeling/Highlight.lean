import Highlight.Html.Document
import Highlight.Json.Styles
import Highlight.Registry.Schema
import Highlight.Rule.Memo
import Highlight.Theme.Compile
import Highlight.Value.Printer
import Highlight.Proofs.Html.Highlighting
import Highlight.Proofs.Provider.Waiting
import Highlight.Proofs.Rule.Meaning
import Highlight.Proofs.Rule.Canonical
import Highlight.Proofs.Value.Evaluation
import Highlight.Proofs.Value.Termination
import Highlight.Proofs.Value.Meaning
import Highlight.Proofs.Html.Markup
import Highlight.Proofs.Html.Spelling
import Highlight.Proofs.Html.Harmless
import Highlight.Proofs.Html.Text
import Highlight.Proofs.Html.Safety
import Highlight.Proofs.Registry.Listing
import Highlight.Proofs.Line.Encoding
import Highlight.Proofs.Html.Cancelling
import Highlight.Proofs.Html.Awaiting
import Highlight.Proofs.Line.Threading
import Highlight.Proofs.Value.Aspects
import Highlight.Proofs.Value.Overriding
import Highlight.Proofs.Value.Locality
import Highlight.Proofs.Registry.Notices
import Highlight.Proofs.Registry.Schemas
import Highlight.Proofs.Value.Links
import Highlight.Proofs.Html.Decoding
import Highlight.Proofs.Registry.Repeating
import Highlight.Proofs.Value.SelfContained
import Highlight.Proofs.Color.Spellings
import Highlight.Proofs.Html.Ranges
import Highlight.Proofs.Rule.Numbering
import Highlight.Proofs.Rule.Joining
import Highlight.Proofs.Json.Reading
import Highlight.Proofs.Theme.Scopes
import Highlight.Proofs.Color.Canonical
import Highlight.Proofs.Token.Packing
import Highlight.Proofs.Token.Inference
import Highlight.Proofs.Text.Scanning
import Highlight.Proofs.Html.Spaces
import Highlight.Proofs.Line.LeastStarts
import Highlight.Proofs.Rule.Searching
import Highlight.Proofs.Rule.Unmatched
import Highlight.Proofs.Theme.Compiling
