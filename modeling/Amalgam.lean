import Amalgam.Utf8
import Amalgam.Text.Line
import Amalgam.Registry
import Amalgam.Manifest.Validation
import Amalgam.Manifest.LuaProfile
import Amalgam.Sha256
import Amalgam.Store
import Amalgam.Plan.Json
import Amalgam.Plan.Text
import Amalgam.FileTree.Replacement
import Amalgam.Toml.Document
import Amalgam.Config
import Amalgam.Command.Run
import Amalgam.Main
import Amalgam.Proofs.Include.Relocation
import Amalgam.Proofs.Include.Recognition
import Amalgam.Proofs.Include.Comment
import Amalgam.Proofs.Registry.History
import Amalgam.Proofs.Discovery.Order
import Amalgam.Proofs.Discovery.SourceOrder
import Amalgam.Proofs.Emission.Writing
import Amalgam.Proofs.Emission.Limit
import Amalgam.Proofs.Emission.Pieces
import Amalgam.Proofs.Emission.Steps
import Amalgam.Proofs.Document.Grammar
import Amalgam.Proofs.Document.Lines
import Amalgam.Proofs.Document.Seams
import Amalgam.Proofs.Document.Residue
import Amalgam.Proofs.Document.RoundTrip
import Amalgam.Proofs.Document.Uniqueness
import Amalgam.Proofs.Document.Dependencies
import Amalgam.Proofs.Rendering.Outcome
import Amalgam.Proofs.FileTree.Resolution
import Amalgam.Proofs.FileTree.Frame
import Amalgam.Proofs.FileTree.Replacement
import Amalgam.Proofs.Output.Atomicity
import Amalgam.Proofs.Rendering.Dependence
import Amalgam.Proofs.Output.Checking
import Amalgam.Proofs.Output.History
import Amalgam.Proofs.Command.Effect
import Amalgam.Proofs.Manifest.FirstFault
import Amalgam.Proofs.Config.Layering
import Amalgam.Proofs.Command.Settings
import Amalgam.Proofs.Document.Counting
import Amalgam.Proofs.Text.Encoding
import Amalgam.Proofs.Emission.Refusal
import Amalgam.Proofs.Text.Returns
import Amalgam.Proofs.Document.LineEndings
import Amalgam.Proofs.Text.Delimiters
import Amalgam.Proofs.Manifest.Condition
import Amalgam.Proofs.Plan.Reading
import Amalgam.Proofs.Plan.Printing
import Amalgam.Proofs.Digest.Streaming
import Amalgam.Proofs.Store.Verbatim
import Amalgam.Proofs.Json.Assembly
import Amalgam.Proofs.Json.Decoding
import Amalgam.Proofs.Plan.Encoding
