import LayerChain.Catalog.Descriptor
import LayerChain.Catalog.Kind
import LayerChain.Catalog.SettingValue
import LayerChain.Catalog.Settings
import LayerChain.Chain.Basic
import LayerChain.Chain.Edit
import LayerChain.Chain.Layer
import LayerChain.Chain.Record
import LayerChain.Chain.Shape
import LayerChain.CommandLine.Arguments
import LayerChain.CommandLine.Command
import LayerChain.CommandLine.Run
import LayerChain.Config
import LayerChain.Digest.Sha256
import LayerChain.Error
import LayerChain.Files.Basic
import LayerChain.Files.Path
import LayerChain.Files.Tree
import LayerChain.Json.Basic
import LayerChain.Json.Decoder
import LayerChain.Json.Document
import LayerChain.Json.Fault
import LayerChain.Json.Lexeme
import LayerChain.Json.Numeral
import LayerChain.Json.Printer
import LayerChain.Json.Token
import LayerChain.Main
import LayerChain.Model.Basic
import LayerChain.Note
import LayerChain.Number.Binary64
import LayerChain.Number.Decimal
import LayerChain.Number.Literal
import LayerChain.Project
import LayerChain.Proofs.Catalog.Documents
import LayerChain.Proofs.Catalog.Literals
import LayerChain.Proofs.Catalog.Merging
import LayerChain.Proofs.Catalog.Ordering
import LayerChain.Proofs.Catalog.Settings
import LayerChain.Proofs.Chain.Building
import LayerChain.Proofs.Chain.Commuting
import LayerChain.Proofs.Chain.Confluence
import LayerChain.Proofs.Chain.Consistency
import LayerChain.Proofs.Chain.Designs
import LayerChain.Proofs.Chain.Edits
import LayerChain.Proofs.Chain.IdSpace
import LayerChain.Proofs.Chain.Keys
import LayerChain.Proofs.Chain.Numbering
import LayerChain.Proofs.Chain.Patches
import LayerChain.Proofs.Chain.Persistence
import LayerChain.Proofs.Chain.Positions
import LayerChain.Proofs.Chain.Reach
import LayerChain.Proofs.Chain.RoundTrip
import LayerChain.Proofs.Chain.Shapes
import LayerChain.Proofs.Chain.Storing
import LayerChain.Proofs.Chain.Targets
import LayerChain.Proofs.CommandLine.Assignments
import LayerChain.Proofs.CommandLine.Editing
import LayerChain.Proofs.CommandLine.Exhaustion
import LayerChain.Proofs.CommandLine.Exporting
import LayerChain.Proofs.Config
import LayerChain.Proofs.Files.Paths
import LayerChain.Proofs.Files.Projects
import LayerChain.Proofs.Files.Rereading
import LayerChain.Proofs.Files.Rewriting
import LayerChain.Proofs.Json.Documents
import LayerChain.Proofs.Json.Floats
import LayerChain.Proofs.Json.Numerals
import LayerChain.Proofs.Json.Range
import LayerChain.Proofs.Json.Records
import LayerChain.Proofs.Json.ShortDecimals
import LayerChain.Proofs.Json.Strings
import LayerChain.Proofs.Json.Tokens
import LayerChain.Proofs.Json.Unambiguous
import LayerChain.Proofs.Json.Values
import LayerChain.Proofs.Model.RoundTrip
import LayerChain.Proofs.Model.Texts
import LayerChain.Proofs.Number.Rounding
import LayerChain.Proofs.Number.Shortest
import LayerChain.Proofs.Number.Spelling
import LayerChain.Proofs.Number.Texts
import LayerChain.Proofs.Results
import LayerChain.Proofs.Session.Calls
import LayerChain.Proofs.Session.Declared
import LayerChain.Proofs.Session.Identity
import LayerChain.Proofs.Session.InPlace
import LayerChain.Proofs.Session.Loading
import LayerChain.Proofs.Session.Refusals
import LayerChain.Proofs.Session.Sourcing
import LayerChain.Proofs.Session.Timeline
import LayerChain.Proofs.Source.Activations
import LayerChain.Proofs.Source.Arguments
import LayerChain.Proofs.Source.Caching
import LayerChain.Proofs.Source.Declarations
import LayerChain.Proofs.Source.Failures
import LayerChain.Proofs.Source.Faithful
import LayerChain.Proofs.Source.Faults
import LayerChain.Proofs.Source.Lines
import LayerChain.Proofs.Source.Literals
import LayerChain.Proofs.Source.Quoting
import LayerChain.Proofs.Source.Recency
import LayerChain.Proofs.Source.Resemblance
import LayerChain.Proofs.Source.Structure
import LayerChain.Proofs.Text.Apart
import LayerChain.Session.Basic
import LayerChain.Session.History
import LayerChain.Source.Cache
import LayerChain.Source.Component
import LayerChain.Source.Generator
import LayerChain.Source.PythonLiteral
import LayerChain.Text.Blank
import LayerChain.Text.Quoted
import LayerChain.Text.Shown
import LayerChain.Text.Symbol
