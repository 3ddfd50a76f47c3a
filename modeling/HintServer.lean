import HintServer.Catalog.Json
import HintServer.CommandLine.Launch
import HintServer.Main
import HintServer.Session.Direct
import HintServer.Session.Rpc
import HintServer.Wire.Transport
import HintServer.Proofs.Catalog.Growth
import HintServer.Proofs.CommandLine.Groups
import HintServer.Proofs.Server.Completion
import HintServer.Proofs.Server.History
import HintServer.Proofs.Document.Edits
import HintServer.Proofs.Document.Guarded
import HintServer.Proofs.Document.LineEnding
import HintServer.Proofs.Document.Range
import HintServer.Proofs.Document.Scan
import HintServer.Proofs.Server.Independence
import HintServer.Proofs.Server.Version
import HintServer.Proofs.Session.Debugging
import HintServer.Proofs.Session.Rejection
import HintServer.Proofs.Session.Refinement
import HintServer.Proofs.Text.Inverse
