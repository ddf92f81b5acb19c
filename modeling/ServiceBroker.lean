import ServiceBroker.Broker.Rehearsal
import ServiceBroker.Broker.World
import ServiceBroker.Catalog
import ServiceBroker.Config.Basic
import ServiceBroker.Config.EnvironmentFile
import ServiceBroker.Config.Overrides
import ServiceBroker.Config.Search
import ServiceBroker.Config.Validation
import ServiceBroker.Console.Arguments
import ServiceBroker.Console.Basic
import ServiceBroker.Console.Command
import ServiceBroker.Console.Desk
import ServiceBroker.Decimal.Power
import ServiceBroker.Decimal.Shortest
import ServiceBroker.Decision
import ServiceBroker.Definition.Line
import ServiceBroker.Definition.Parameterization
import ServiceBroker.Definition.Variables
import ServiceBroker.Document.Basic
import ServiceBroker.Document.Decoder
import ServiceBroker.Error
import ServiceBroker.Fields
import ServiceBroker.Files.Folder
import ServiceBroker.Files.Path
import ServiceBroker.Files.Tree
import ServiceBroker.Job.Basic
import ServiceBroker.Job.Dispatch
import ServiceBroker.Job.Operation
import ServiceBroker.Json.Basic
import ServiceBroker.Json.Number
import ServiceBroker.Json.Printer
import ServiceBroker.Json.Reader
import ServiceBroker.Main
import ServiceBroker.Plan
import ServiceBroker.Program
import ServiceBroker.Record
import ServiceBroker.Report.Basic
import ServiceBroker.Report.Paint
import ServiceBroker.Report.Table
import ServiceBroker.Request
import ServiceBroker.Store.Basic
import ServiceBroker.Store.Bucket
import ServiceBroker.Store.Directory
import ServiceBroker.Store.Memory
import ServiceBroker.Store.RecordName
import ServiceBroker.Text.Alphanumeric
import ServiceBroker.Text.Base64
import ServiceBroker.Text.Blank
import ServiceBroker.Text.Bytes
import ServiceBroker.Text.Digits
import ServiceBroker.Text.Lines
import ServiceBroker.Text.Quoted
import ServiceBroker.Text.Ranges
import ServiceBroker.Text.Width
import ServiceBroker.Timestamp
import ServiceBroker.Tool
import ServiceBroker.Upgrade
import ServiceBroker.Version.Basic
import ServiceBroker.Version.Order
import ServiceBroker.Version.Parser
import ServiceBroker.Workspace.Basic
import ServiceBroker.Workspace.Codec
import ServiceBroker.Workspace.State
import ServiceBroker.Yaml.Cursor
import ServiceBroker.Yaml.Node
import ServiceBroker.Yaml.Reader
import ServiceBroker.Yaml.Scalar
import ServiceBroker.Yaml.Token
import ServiceBroker.Proofs.Job.Requests
import ServiceBroker.Proofs.Broker.Traffic
import ServiceBroker.Proofs.Broker.Move
import ServiceBroker.Proofs.Broker.Exclusion
import ServiceBroker.Proofs.Broker.Overlap
import ServiceBroker.Proofs.Broker.LifeCycle
import ServiceBroker.Proofs.Json.Reread
import ServiceBroker.Proofs.Text.Base64
import ServiceBroker.Proofs.Version.Order
import ServiceBroker.Proofs.Version.Text
import ServiceBroker.Proofs.Workspace.Codec
import ServiceBroker.Proofs.Broker.Chronicle
import ServiceBroker.Proofs.Job.Ending
import ServiceBroker.Proofs.Upgrade.Path
import ServiceBroker.Proofs.Upgrade.Walk
import ServiceBroker.Proofs.Upgrade.Resumption
import ServiceBroker.Proofs.Upgrade.StateVersion
import ServiceBroker.Proofs.Upgrade.Declared
import ServiceBroker.Proofs.Upgrade.Precedence
import ServiceBroker.Proofs.Fields
import ServiceBroker.Proofs.Json.Shape
import ServiceBroker.Proofs.Json.Plain
import ServiceBroker.Proofs.Except
import ServiceBroker.Proofs.Document.Decoding
import ServiceBroker.Proofs.Workspace.WellFormed
import ServiceBroker.Proofs.Workspace.RoundTrip
import ServiceBroker.Proofs.Workspace.Edits
import ServiceBroker.Proofs.Job.Keeping
import ServiceBroker.Proofs.Broker.Stock
import ServiceBroker.Proofs.Broker.Readable
import ServiceBroker.Proofs.Json.Layout
import ServiceBroker.Proofs.Text.Bytes
import ServiceBroker.Proofs.Timestamp
import ServiceBroker.Proofs.Record
import ServiceBroker.Proofs.Files.Folder
import ServiceBroker.Proofs.Store.RecordName
import ServiceBroker.Proofs.Store.Answers
import ServiceBroker.Proofs.Store.Directory
import ServiceBroker.Proofs.Store.Bucket
import ServiceBroker.Proofs.Store.Separation
import ServiceBroker.Proofs.Broker.Separation
import ServiceBroker.Proofs.Decision
import ServiceBroker.Proofs.Decision.Level
import ServiceBroker.Proofs.Job.Commands
import ServiceBroker.Proofs.Job.Effort
import ServiceBroker.Proofs.Broker.Alone
import ServiceBroker.Proofs.Broker.Calm
import ServiceBroker.Proofs.Broker.Result
import ServiceBroker.Proofs.Broker.Succession
import ServiceBroker.Proofs.Broker.Poll
import ServiceBroker.Proofs.Job.Course
import ServiceBroker.Proofs.Broker.Attempt
import ServiceBroker.Proofs.Broker.Interruption
import ServiceBroker.Proofs.Job.Takeover
import ServiceBroker.Proofs.Broker.Import
import ServiceBroker.Proofs.Job.Revision
import ServiceBroker.Proofs.Broker.Abandonment
import ServiceBroker.Proofs.Job.Refusal
import ServiceBroker.Proofs.Broker.Refusal
import ServiceBroker.Proofs.Text.Lines
import ServiceBroker.Proofs.Text.Blank
import ServiceBroker.Proofs.Text.Finding
import ServiceBroker.Proofs.Definition.Line
import ServiceBroker.Proofs.Definition.Variables
import ServiceBroker.Proofs.Workspace.Inputs
import ServiceBroker.Proofs.Job.Removal
import ServiceBroker.Proofs.Broker.Removal
import ServiceBroker.Proofs.Plan.Report
import ServiceBroker.Proofs.Plan.Summary
import ServiceBroker.Proofs.Definition.Parse
import ServiceBroker.Proofs.Definition.Nesting
import ServiceBroker.Proofs.Definition.Settling
import ServiceBroker.Proofs.Definition.Rewriting
import ServiceBroker.Proofs.Definition.Result
import ServiceBroker.Proofs.Definition.Recovery
import ServiceBroker.Proofs.Definition.Literal
import ServiceBroker.Proofs.Definition.Balance
import ServiceBroker.Proofs.Files.Failure
import ServiceBroker.Proofs.Store.Failure
import ServiceBroker.Proofs.Config.Validation
import ServiceBroker.Proofs.Files.Path
import ServiceBroker.Proofs.Files.Tree
import ServiceBroker.Proofs.Config.Search
import ServiceBroker.Proofs.Console.Search
import ServiceBroker.Proofs.Console.Wait
import ServiceBroker.Proofs.Console.ExitStatus
import ServiceBroker.Proofs.Json.Numbers
import ServiceBroker.Proofs.Workspace.ToolState
import ServiceBroker.Proofs.Broker.Outputs
import ServiceBroker.Proofs.Catalog
import ServiceBroker.Proofs.Request
import ServiceBroker.Proofs.Decision.Documents
