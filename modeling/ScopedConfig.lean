import ScopedConfig.File.Disk
import ScopedConfig.Main
import ScopedConfig.Group.WellNamed
import ScopedConfig.Proofs.Text
import ScopedConfig.Proofs.Lexing
import ScopedConfig.Proofs.Quoting
import ScopedConfig.Proofs.Statements
import ScopedConfig.Proofs.Lines
import ScopedConfig.Proofs.RenderedLines
import ScopedConfig.Proofs.RoundTrip
import ScopedConfig.Grammar
import ScopedConfig.Placement
import ScopedConfig.Proofs.LexicalGrammar
import ScopedConfig.Proofs.Values
import ScopedConfig.Proofs.Grammar
import ScopedConfig.Proofs.Invariant
import ScopedConfig.Proofs.Simulation
import ScopedConfig.Layout
import ScopedConfig.Proofs.Layout
import ScopedConfig.Enclosure
import ScopedConfig.Group.Emptied
import ScopedConfig.Proofs.Emptying
import ScopedConfig.Proofs.Enclosure
import ScopedConfig.Proofs.Prefixes
import ScopedConfig.Proofs.Image
import ScopedConfig.Proofs.Comparison
import ScopedConfig.Proofs.Concatenation
import ScopedConfig.Nesting
import ScopedConfig.Proofs.Nesting
import ScopedConfig.Proofs.Records
import ScopedConfig.Culprit
import ScopedConfig.Proofs.Culprit
import ScopedConfig.Proofs.FirstFault
import ScopedConfig.Insertion
import ScopedConfig.Proofs.Forgetting
import ScopedConfig.Proofs.Insertion
import ScopedConfig.Descent
import ScopedConfig.Proofs.Restoration
import ScopedConfig.Proofs.Mirroring
import ScopedConfig.Proofs.Descent
import ScopedConfig.Scopes.History
import ScopedConfig.Proofs.History
import ScopedConfig.Token.Row
import ScopedConfig.Proofs.Rows
import ScopedConfig.Continuation
import ScopedConfig.Proofs.Continuation
import ScopedConfig.Proofs.Substitution
import ScopedConfig.Proofs.Paths
import ScopedConfig.Proofs.Loading
import ScopedConfig.Proofs.CommandLine
import ScopedConfig.Group.Keys
import ScopedConfig.Proofs.Keys
import ScopedConfig.Proofs.Reachability
import ScopedConfig.Group.Outline
import ScopedConfig.Proofs.Observation
import ScopedConfig.Proofs.Indentation
import ScopedConfig.Proofs.Fallback
import ScopedConfig.Proofs.QuotedValues
import ScopedConfig.Proofs.HomeDirectory
import ScopedConfig.Group.Json.Grammar
import ScopedConfig.Group.Json.Parts
import ScopedConfig.Group.Json.Reader
import ScopedConfig.Proofs.JsonReading
import ScopedConfig.Proofs.JsonRoundTrip
import ScopedConfig.Proofs.Wrappers
