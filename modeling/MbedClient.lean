import MbedClient.Trace
import MbedClient.Slot
import MbedClient.Grown
import MbedClient.Walk
import MbedClient.Search
import MbedClient.Decimal
import MbedClient.CNumber
import MbedClient.Naming
import MbedClient.ObjectTree
import MbedClient.Itoa
import MbedClient.Value
import MbedClient.Paths
import MbedClient.BuildPath
import MbedClient.BigEndian
import MbedClient.Security
import MbedClient.Allocation
import MbedClient.Growth
import MbedClient.Tlv.Header
import MbedClient.Tlv.Serializer
import MbedClient.Tlv.Deserializer
import MbedClient.Tlv.Encoding
import MbedClient.Tlv.Listing
import MbedClient.Tlv.Acceptance
import MbedClient.Tlv.AllOrNothing
import MbedClient.Tlv.Values
import MbedClient.Tlv.RoundTrip
import MbedClient.Tlv.Stream
import MbedClient.Tlv.Integers
import MbedClient.Tlv.Records
import MbedClient.Tlv.Itinerary
import MbedClient.Tlv.Request
import MbedClient.Tlv.Targets
import MbedClient.Tlv.Passes
import MbedClient.Tlv.Outcome
import MbedClient.Tlv.Protection
import MbedClient.Tlv.Trail
import MbedClient.Tlv.Creation
import MbedClient.Tlv.Spared
import MbedClient.Tlv.Bounds
import MbedClient.Tlv.Grammar
import MbedClient.Tlv.Complete
import MbedClient.Tlv.Scope
import MbedClient.Tlv.Post
import MbedClient.Report.Pmin
import MbedClient.Report.Pmax
import MbedClient.Callback
import MbedClient.Interface.State
import MbedClient.Interface.Engine
import MbedClient.Interface.Impl
import MbedClient.Interface.Rules
import MbedClient.Interface.Steady
import MbedClient.Interface.Typing
import MbedClient.Interface.Destination
import MbedClient.Interface.Completion
import MbedClient.Interface.Reconnection
import MbedClient.Interface.Refusal
import MbedClient.Interface.Attempt
import MbedClient.Interface.FlowTimer
import MbedClient.Interface.Ownership
import MbedClient.Report.Plain
import MbedClient.Observe.Tree
import MbedClient.Observe.Client
import MbedClient.Observe.Requests
import MbedClient.Observe.Rules
import MbedClient.Observe.Order
import MbedClient.Observe.Lookup
import MbedClient.Observe.Steps
import MbedClient.Observe.Delivery
import MbedClient.Observe.Sound
import MbedClient.Observe.Reset
import MbedClient.Observe.Change
import MbedClient.Observe.Narrowed
import MbedClient.Nsdl.Message
import MbedClient.Nsdl.Node
import MbedClient.Nsdl.Places
import MbedClient.Nsdl.Handlers
import MbedClient.Nsdl.Dispatch
import MbedClient.Nsdl.ReadWrite
import MbedClient.Nsdl.Delete
import MbedClient.Nsdl.ObjectPost
import MbedClient.Nsdl.Bootstrap
import MbedClient.Nsdl.Server
import MbedClient.Nsdl.Outcomes
import MbedClient.Nsdl.ServerPost
import MbedClient.Nsdl.ObjectCreate
import MbedClient.Nsdl.Reply
import MbedClient.Nsdl.Exchange
import MbedClient.Nsdl.Layers
import MbedClient.Nsdl.ObjectList
import MbedClient.Nsdl.Publishing
import MbedClient.Nsdl.Endpoint
import MbedClient.Nsdl.Finish
import MbedClient.Nsdl.Addressing
import MbedClient.Nsdl.Blockwise
import MbedClient.Nsdl.Transfers
import MbedClient.Nsdl.MissingPayload
import MbedClient.Copying
import MbedClient.MemoryBlock
import MbedClient.Text.M2MString
import MbedClient.Text.Copies
import MbedClient.Text.Erase
import MbedClient.Text.Compare
import MbedClient.Report.Rejection
import MbedClient.Report.Step
import MbedClient.Report.Intervals
import MbedClient.Interface.Lifetime
import MbedClient.Interface.Address
import MbedClient.Interface.EndpointName
import MbedClient.CallbackStorage
import MbedClient.Keyed
import MbedClient.Membership
import MbedClient.Tlv.Uniqueness
import MbedClient.TreeOperations
import MbedClient.Firmware
import MbedClient.Stepping
import MbedClient.Text.Operations
import MbedClient.Text.Representation
import MbedClient.Text.StringBufferBase
import MbedClient.ArrayHeap
import MbedClient.Vector.M2MVector
import MbedClient.Vector.Refinement
import MbedClient.CallbackTotal
import MbedClient.Interface.Fuel
import MbedClient.Interface.Rest
import MbedClient.Replica
import MbedClient.Nsdl.Notification
import MbedClient.Report.Collected
import MbedClient.Report.News
import MbedClient.Tlv.Repeat
import MbedClient.Observe.Moves
import MbedClient.Observe.Happening
import MbedClient.Observe.Rendering
import MbedClient.Observe.Link
import MbedClient.Observe.Mirror
import MbedClient.Lookup
import MbedClient.Tlv.Names
import MbedClient.Nsdl.Record
import MbedClient.Nsdl.Requests
import MbedClient.Nsdl.Register
import MbedClient.Heartbeat
import MbedClient.Nsdl.Keepalive
import MbedClient.Confinement
import MbedClient.Interface.Aloof
import MbedClient.Interface.Backoff
import MbedClient.Device
import MbedClient.DevicePanel
