import DevicePlugin.Bytes
import DevicePlugin.Bytes.Lemmas
import DevicePlugin.Compiled.Model
import DevicePlugin.Compiled.Properties
import DevicePlugin.Dict
import DevicePlugin.ErrorChain
import DevicePlugin.Failure
import DevicePlugin.Graph.Document
import DevicePlugin.Graph.Model
import DevicePlugin.Graph.Script
import DevicePlugin.Json.Decode
import DevicePlugin.Json.Number
import DevicePlugin.Json.Token
import DevicePlugin.Json.Tree
import DevicePlugin.Json.Value
import DevicePlugin.Notice.Event
import DevicePlugin.Notice.Lifecycle
import DevicePlugin.Outcome
import DevicePlugin.Plugin.Backend
import DevicePlugin.Plugin.Basic
import DevicePlugin.Plugin.Scripted
import DevicePlugin.Proofs.Compiled.Acceptance
import DevicePlugin.Proofs.Compiled.Cache
import DevicePlugin.Proofs.Compiled.Import
import DevicePlugin.Proofs.Compiled.Properties
import DevicePlugin.Proofs.Graph.Access
import DevicePlugin.Proofs.Graph.Building
import DevicePlugin.Proofs.Graph.Document
import DevicePlugin.Proofs.Graph.FirstFault
import DevicePlugin.Proofs.Graph.Packing
import DevicePlugin.Proofs.Graph.Slices
import DevicePlugin.Proofs.Graph.Tiling
import DevicePlugin.Proofs.Graph.Validity
import DevicePlugin.Proofs.Json.Numeral
import DevicePlugin.Proofs.Json.Token
import DevicePlugin.Proofs.Json.Tree
import DevicePlugin.Proofs.Property.Answers
import DevicePlugin.Proofs.Property.Composition
import DevicePlugin.Proofs.Property.History
import DevicePlugin.Proofs.Property.Json
import DevicePlugin.Proofs.Property.Layers
import DevicePlugin.Proofs.Property.Number
import DevicePlugin.Proofs.Property.Reading
import DevicePlugin.Proofs.Request.Acts
import DevicePlugin.Proofs.Request.Apart
import DevicePlugin.Proofs.Request.Besides
import DevicePlugin.Proofs.Request.Blind
import DevicePlugin.Proofs.Request.Calls
import DevicePlugin.Proofs.Request.Cancelled
import DevicePlugin.Proofs.Request.Confined
import DevicePlugin.Proofs.Request.Course
import DevicePlugin.Proofs.Request.Exclusive
import DevicePlugin.Proofs.Request.Fair
import DevicePlugin.Proofs.Request.Frame
import DevicePlugin.Proofs.Request.Later
import DevicePlugin.Proofs.Request.Leftover
import DevicePlugin.Proofs.Request.Logged
import DevicePlugin.Proofs.Request.Moves
import DevicePlugin.Proofs.Request.Notified
import DevicePlugin.Proofs.Request.Outputs
import DevicePlugin.Proofs.Request.Part
import DevicePlugin.Proofs.Request.Pending
import DevicePlugin.Proofs.Request.Poisoned
import DevicePlugin.Proofs.Request.Profile
import DevicePlugin.Proofs.Request.Progress
import DevicePlugin.Proofs.Request.Sequential
import DevicePlugin.Proofs.Request.Sound
import DevicePlugin.Proofs.Request.Spoilt
import DevicePlugin.Proofs.Request.Stages
import DevicePlugin.Proofs.Request.Tokens
import DevicePlugin.Proofs.Request.Transaction
import DevicePlugin.Proofs.Request.Turns
import DevicePlugin.Proofs.Request.Twins
import DevicePlugin.Proofs.Stream.Blob
import DevicePlugin.Proofs.Stream.Broken
import DevicePlugin.Proofs.Stream.Endpoint
import DevicePlugin.Proofs.Stream.Format
import DevicePlugin.Proofs.Stream.Sequence
import DevicePlugin.Proofs.Stream.Sink
import DevicePlugin.Proofs.Tensor.Data
import DevicePlugin.Proofs.Tensor.Size
import DevicePlugin.Proofs.Text.Numeral
import DevicePlugin.Proofs.Text.Order
import DevicePlugin.Proofs.Transformation.Classification
import DevicePlugin.Proofs.Transformation.Course
import DevicePlugin.Proofs.Transformation.Flattening
import DevicePlugin.Property.Configuration
import DevicePlugin.Property.Fault
import DevicePlugin.Property.Json
import DevicePlugin.Property.Script
import DevicePlugin.Property.Streams
import DevicePlugin.Property.Untyped
import DevicePlugin.Property.Value
import DevicePlugin.Property.Yaml
import DevicePlugin.Request.Async
import DevicePlugin.Request.Executor
import DevicePlugin.Request.Sync
import DevicePlugin.Session.Script
import DevicePlugin.Session.State
import DevicePlugin.Session.Step
import DevicePlugin.Stream.Blob
import DevicePlugin.Stream.Endpoint
import DevicePlugin.Tensor.Data
import DevicePlugin.Tensor.Descriptor
import DevicePlugin.Tensor.Json
import DevicePlugin.Text.Blank
import DevicePlugin.Text.Duration
import DevicePlugin.Text.Extender
import DevicePlugin.Text.Numeral
import DevicePlugin.Text.Quoted
import DevicePlugin.Text.Ranges
import DevicePlugin.Text.Unprintable
import DevicePlugin.Transformation.Basic
import DevicePlugin.Transformation.Failure
import DevicePlugin.Transformation.Scripted
import DevicePlugin.Untyped
import DevicePlugin.Yaml.Node
import DevicePlugin.Yaml.Scalar.Block
import DevicePlugin.Yaml.Scalar.Gap
import DevicePlugin.Yaml.Scalar.Meaning
import DevicePlugin.Yaml.Scalar.Plain
import DevicePlugin.Yaml.Scalar.Quoted
import DevicePlugin.Yaml.Source
import DevicePlugin.Yaml.Token
import DevicePlugin.Yaml.Token.Lexer
import DevicePlugin.Yaml.Value
