import ProviderProtocol.Assertion
import ProviderProtocol.Capability.DataSource
import ProviderProtocol.Capability.Handler
import ProviderProtocol.Capability.ListResource
import ProviderProtocol.Capability.Provider
import ProviderProtocol.Capability.Resource
import ProviderProtocol.Capability.StateStore
import ProviderProtocol.Codec.Decode
import ProviderProtocol.Codec.Payload
import ProviderProtocol.Codec.Schema
import ProviderProtocol.Diagnostic
import ProviderProtocol.Error
import ProviderProtocol.Json.Basic
import ProviderProtocol.Json.Printer
import ProviderProtocol.Json.Reader
import ProviderProtocol.Json.Record
import ProviderProtocol.Msgpack.Basic
import ProviderProtocol.Msgpack.Reader
import ProviderProtocol.Msgpack.Writer
import ProviderProtocol.Number.Basic
import ProviderProtocol.Number.Binary64
import ProviderProtocol.Number.Numeral
import ProviderProtocol.Number.Shortest
import ProviderProtocol.Path
import ProviderProtocol.Plan
import ProviderProtocol.Proofs.Msgpack.RoundTrip
import ProviderProtocol.Proofs.Table
import ProviderProtocol.Registry
import ProviderProtocol.Schema.Basic
import ProviderProtocol.Schema.Equality
import ProviderProtocol.Schema.Json
import ProviderProtocol.Schema.Wire
import ProviderProtocol.Server.Basic
import ProviderProtocol.Server.DataSource
import ProviderProtocol.Server.ListResource
import ProviderProtocol.Server.Operation
import ProviderProtocol.Server.Provider
import ProviderProtocol.Proofs.Server.Listing
import ProviderProtocol.Proofs.Server.Stream
import ProviderProtocol.Server.Resource
import ProviderProtocol.Server.StateStore
import ProviderProtocol.StateStore.Memory
import ProviderProtocol.Table
import ProviderProtocol.Text.Printable
import ProviderProtocol.Text.Quoted
import ProviderProtocol.Text.Utf8
import ProviderProtocol.Ty.Basic
import ProviderProtocol.Ty.Descriptor
import ProviderProtocol.Value.Basic
import ProviderProtocol.Value.Equality
import ProviderProtocol.Value.Shape
import ProviderProtocol.Value.Transform
import ProviderProtocol.Value.Walk
import ProviderProtocol.Wire.Enumeration
import ProviderProtocol.Wire.Message
import ProviderProtocol.Proofs.Value.Shape
import ProviderProtocol.Proofs.Codec.RoundTrip
import ProviderProtocol.Proofs.Value.Node
import ProviderProtocol.Proofs.Value.Rewrite
import ProviderProtocol.Proofs.Plan.Marking
import ProviderProtocol.Proofs.Value.Equality
import ProviderProtocol.Proofs.Value.OwnPath
import ProviderProtocol.Proofs.Plan.Create
import ProviderProtocol.Proofs.Server.Calls
import ProviderProtocol.Proofs.Server.Apply
import ProviderProtocol.Proofs.Server.Errors
import ProviderProtocol.Proofs.Server.Request
import ProviderProtocol.Proofs.Server.Guards
import ProviderProtocol.Proofs.Server.Discipline
import ProviderProtocol.Proofs.StateStore.History
import ProviderProtocol.Proofs.StateStore.Memory
import ProviderProtocol.Proofs.StateStore.Spares
import ProviderProtocol.Proofs.Server.Chunks
import ProviderProtocol.Proofs.StateStore.Served
import ProviderProtocol.Proofs.StateStore.Runs
import ProviderProtocol.Proofs.StateStore.Locks
import ProviderProtocol.Proofs.StateStore.Contents
import ProviderProtocol.Proofs.StateStore.Failures
import ProviderProtocol.Proofs.Server.Outcome
import ProviderProtocol.Proofs.Server.Diagnostics
import ProviderProtocol.Proofs.Server.Results
import ProviderProtocol.Proofs.Value.Build
import ProviderProtocol.Proofs.Postcondition
import ProviderProtocol.Proofs.Value.Transform
import ProviderProtocol.Proofs.Codec.Read
import ProviderProtocol.Proofs.Value.Obtainable
import ProviderProtocol.Proofs.Server.Upload
import ProviderProtocol.Proofs.Server.Transfer
import ProviderProtocol.Proofs.Codec.Agreement
import ProviderProtocol.Proofs.Codec.Payload
import ProviderProtocol.Proofs.Json.Text
import ProviderProtocol.Proofs.Json.Value
import ProviderProtocol.Proofs.Json.Record
import ProviderProtocol.Proofs.Ty.Descriptor
import ProviderProtocol.Proofs.Schema.WellFormed
import ProviderProtocol.Proofs.Schema.Wire
import ProviderProtocol.Proofs.Schema.Json
import ProviderProtocol.Proofs.Schema.ValueType
import ProviderProtocol.Proofs.Value.Distinct
import ProviderProtocol.Proofs.Plan.Idempotence
import ProviderProtocol.Proofs.Codec.Schema
import ProviderProtocol.Proofs.Server.Planning
import ProviderProtocol.Capability.Double
import ProviderProtocol.Proofs.Server.Transparent
import ProviderProtocol.Proofs.Schema.Advertised
import ProviderProtocol.Proofs.Server.Advertise
import ProviderProtocol.Proofs.Number.Equality
import ProviderProtocol.Proofs.Value.Matching
import ProviderProtocol.Proofs.Value.Equivalence
import ProviderProtocol.Proofs.Value.Reordering
import ProviderProtocol.Proofs.Codec.Conformance
import ProviderProtocol.Proofs.Codec.Verdict
import ProviderProtocol.Proofs.Codec.Reading
import ProviderProtocol.Proofs.Schema.Acceptance
import ProviderProtocol.Proofs.Server.Download
import ProviderProtocol.Proofs.Server.Reassembly
import ProviderProtocol.Proofs.Codec.Saved
import ProviderProtocol.Proofs.Server.Upgrade
import ProviderProtocol.Proofs.Server.Sparing
import ProviderProtocol.Proofs.StateStore.ChunkSize
import ProviderProtocol.Proofs.Value.Visited
import ProviderProtocol.Proofs.Value.WalkTypes
import ProviderProtocol.Proofs.Value.Assignment
import ProviderProtocol.Proofs.Diagnostic
import ProviderProtocol.Proofs.Msgpack.Delimited
import ProviderProtocol.Proofs.Codec.IntegerText
