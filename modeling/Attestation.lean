import Attestation.EventLog.Layout
import Attestation.Main
import Attestation.Proofs.DigestTable
import Attestation.Proofs.Stages
import Attestation.Proofs.EventLog.Parses
import Attestation.Proofs.EventLog.Grammar
import Attestation.Proofs.EventLog.Scan
import Attestation.Proofs.EventLog.Segmentation
import Attestation.Proofs.EventLog.RoundTrip
import Attestation.Proofs.EventLog.Sequential
import Attestation.Proofs.EventLog.Truncation
import Attestation.Proofs.EventLog.Online
import Attestation.Proofs.FileTree.Walk
import Attestation.Proofs.FileTree.Grow
import Attestation.Proofs.Service.Frame
import Attestation.Proofs.Device.Tdx
import Attestation.Proofs.TdReport.Partition
import Attestation.Proofs.TdReport.Register
import Attestation.Proofs.Text.Decimal
import Attestation.Proofs.Json.Scalars
import Attestation.Proofs.Json.Layout
import Attestation.Proofs.Json.Compact
import Attestation.Proofs.Json.Indented
import Attestation.Proofs.Device.Register
import Attestation.Proofs.Service.DeviceAccess
import Attestation.Proofs.EventLog.Document
import Attestation.Proofs.EventLog.Selection
import Attestation.Proofs.Text.Hex
import Attestation.Proofs.DigestStyle
import Attestation.Proofs.EventLog.Reading
import Attestation.Proofs.EventLog.Lossless
import Attestation.Proofs.Service.Fidelity
import Attestation.Proofs.FileTree.Alike
import Attestation.Proofs.FileTree.Retry
import Attestation.Proofs.Service.Stateless
import Attestation.Proofs.EventLog.Failure
import Attestation.Proofs.EventLog.Progress
import Attestation.Proofs.FileTree.Kinds
import Attestation.Proofs.Service.Validation
import Attestation.Proofs.Device.Discovery
import Attestation.Proofs.EventLog.Window
import Attestation.Proofs.TdReport.Document
import Attestation.Proofs.Ccel.Table
import Attestation.Proofs.FileTree.Unseen
import Attestation.Proofs.Ccel.Locate
import Attestation.Proofs.Device.Binding
import Attestation.Proofs.CommandLine.Parse
import Attestation.Proofs.CommandLine.Run
import Attestation.Proofs.DigestFormat
import Attestation.Proofs.EventLog.Declarations
import Attestation.Proofs.Json.Grammar
import Attestation.Proofs.Settings.Choices
import Attestation.Proofs.Settings.Load
