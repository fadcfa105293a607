import ContractBindings.Text.CaseMapping
import ContractBindings.Text.Printable
import ContractBindings.Text.IdentifierChar
import ContractBindings.Text.Blank
import ContractBindings.Text.Quoted
import ContractBindings.Text.Utf8
import ContractBindings.Naming.Identifier
import ContractBindings.Naming.Registry
import ContractBindings.Number.Notation
import ContractBindings.Number.Reading
import ContractBindings.Yaml.Token.Reader
import ContractBindings.Yaml.Node
import ContractBindings.Yaml.Reader
import ContractBindings.Json.Reader
import ContractBindings.Report
import ContractBindings.Document
import ContractBindings.Config.Reader
import ContractBindings.Reference.Resolver
import ContractBindings.Schema.Interpretation
import ContractBindings.Operation.Extraction
import ContractBindings.Model.OfGraph
import ContractBindings.Template.Selection
import ContractBindings.Layout
import ContractBindings.Items.Text
import ContractBindings.Messages.Unit
import ContractBindings.Unit.Rendering
import ContractBindings.Generation
import ContractBindings.Files.Difference
import ContractBindings.Output
import ContractBindings.CommandLine.Run
import ContractBindings.Main
import ContractBindings.Proofs.Ending
import ContractBindings.Proofs.Lookup
import ContractBindings.Proofs.Naming.Capital
import ContractBindings.Proofs.Naming.Fresh
import ContractBindings.Proofs.Schema.Inside
import ContractBindings.Proofs.Model.Growth
import ContractBindings.Proofs.Model.Definitions
import ContractBindings.Proofs.Model.Stages
import ContractBindings.Proofs.Model.Assembly
import ContractBindings.Proofs.Schema.Identity
import ContractBindings.Proofs.Schema.Placement
import ContractBindings.Proofs.Schema.Keywords
import ContractBindings.Proofs.Reference.Resolved
import ContractBindings.Proofs.Operation.Building
import ContractBindings.Proofs.Operation.Extracted
import ContractBindings.Proofs.Generation.Stages
import ContractBindings.Proofs.Model.Generated
import ContractBindings.Proofs.Generation.Uses
import ContractBindings.Proofs.Model.Decision
import ContractBindings.Proofs.Model.Propagation
import ContractBindings.Proofs.Generation.Propagation
import ContractBindings.Proofs.Generation.Accounting
import ContractBindings.Proofs.Model.Null
import ContractBindings.Proofs.Generation.Null
import ContractBindings.Proofs.Schema.Referring
import ContractBindings.Proofs.Naming.SnakeForm
import ContractBindings.Proofs.Unit.Outcomes
import ContractBindings.Proofs.Unit.Paths
import ContractBindings.Proofs.Files.Tree
import ContractBindings.Proofs.Files.Writing
import ContractBindings.Proofs.Generation.Written
import ContractBindings.Proofs.Document.Parts
import ContractBindings.Proofs.Schema.Confined
import ContractBindings.Proofs.Schema.Walks
import ContractBindings.Proofs.Schema.Closing
import ContractBindings.Proofs.Schema.Depth
import ContractBindings.Proofs.Schema.Agreement
import ContractBindings.Proofs.Schema.Calls
import ContractBindings.Proofs.Schema.Reaching
import ContractBindings.Proofs.Schema.Nesting
import ContractBindings.Proofs.Model.Storage
import ContractBindings.Proofs.Model.Layers
import ContractBindings.Proofs.Model.Finite
import ContractBindings.Proofs.Generation.Finite
import ContractBindings.Proofs.Model.Flat
import ContractBindings.Proofs.Messages.Imports
import ContractBindings.Proofs.Generation.Imports
import ContractBindings.Proofs.Messages.Cycles
import ContractBindings.Proofs.Model.Traversal
import ContractBindings.Proofs.Model.Sources
import ContractBindings.Proofs.Model.Coverage
import ContractBindings.Proofs.Model.Lockstep
import ContractBindings.Proofs.Model.Rejected
import ContractBindings.Proofs.Generation.Sources
import ContractBindings.Proofs.Generation.Rejected
import ContractBindings.Proofs.Model.Outline
import ContractBindings.Proofs.Generation.Targets
import ContractBindings.Proofs.Document.Schemas
import ContractBindings.Proofs.Reference.Checked
import ContractBindings.Proofs.Operation.Unresolved
import ContractBindings.Proofs.Document.Edges
import ContractBindings.Proofs.Schema.Uniform
import ContractBindings.Proofs.Document.Reordering
import ContractBindings.Proofs.Schema.Content
import ContractBindings.Proofs.Document.Extension
import ContractBindings.Proofs.Schema.Extension
import ContractBindings.Proofs.Generation.Extension
import ContractBindings.Proofs.Schema.Relays
import ContractBindings.Proofs.Schema.Chains
import ContractBindings.Proofs.Naming.Claims
import ContractBindings.Proofs.Model.Claims
import ContractBindings.Proofs.Naming.RustWords
import ContractBindings.Proofs.Generation.Identifiers
import ContractBindings.Proofs.Operation.Statuses
import ContractBindings.Proofs.Messages.Scopes
import ContractBindings.Proofs.Generation.Scopes
import ContractBindings.Proofs.Messages.Values
import ContractBindings.Proofs.Schema.Likeness
import ContractBindings.Proofs.Schema.Merging
import ContractBindings.Proofs.Schema.Siblings
import ContractBindings.Proofs.Naming.Lettered
import ContractBindings.Proofs.Model.Words
import ContractBindings.Proofs.Text.Lines
import ContractBindings.Proofs.Messages.Lines
import ContractBindings.Proofs.Messages.Comments
import ContractBindings.Proofs.Unit.Standard
import ContractBindings.Proofs.Generation.Comments
import ContractBindings.Proofs.Reference.Chain
import ContractBindings.Proofs.Document.Pointers
import ContractBindings.Proofs.Model.Composed
import ContractBindings.Proofs.Schema.Discriminators
import ContractBindings.Proofs.Operation.Schemas
import ContractBindings.Proofs.Model.Tags
import ContractBindings.Proofs.Generation.Tags
import ContractBindings.Proofs.Messages.Singular
import ContractBindings.Proofs.Generation.Payloads
import ContractBindings.Proofs.Naming.Legal
import ContractBindings.Proofs.Generation.Responses
import ContractBindings.Proofs.Operation.Merging
import ContractBindings.Proofs.Operation.Declarations
import ContractBindings.Proofs.Generation.Declarations
import ContractBindings.Proofs.Text.Numerals
import ContractBindings.Proofs.Model.Enumerations
import ContractBindings.Proofs.Generation.Enumerations
import ContractBindings.Proofs.Model.Recursion
import ContractBindings.Proofs.Model.Legal
