import PlaySocket.Lib.Exec
import PlaySocket.BitConverter
import PlaySocket.Lib.Cyclic
import PlaySocket.Lib.Doubling
import PlaySocket.RingBuffer.Basic
import PlaySocket.RingBuffer.Valid
import PlaySocket.RingBuffer.Operations
import PlaySocket.RingBuffer.Integers
import PlaySocket.RingBuffer.Fifo
import PlaySocket.ClientMessage
import PlaySocket.Lib.Framing
import PlaySocket.StreamParser.Basic
import PlaySocket.StreamParser.Decode
import PlaySocket.StreamParser.Stream
import PlaySocket.StreamParser.WireFormat
import PlaySocket.RouterSocket.Basic
import PlaySocket.RouterSocket.Encoder
import PlaySocket.RouterSocket.Frame
import PlaySocket.StreamSocket.Session
import PlaySocket.StreamSocket.Callbacks
import PlaySocket.StreamSocket.Rejection
import PlaySocket.Lib.Machine
import PlaySocket.StreamSocket.Machine
import PlaySocket.StreamSocket.Wiring
import PlaySocket.StreamSocket.Moves
import PlaySocket.StreamSocket.Orderly
import PlaySocket.StreamSocket.ReceiveQueue
import PlaySocket.StreamSocket.Replies
import PlaySocket.StreamParser.Admission
import PlaySocket.StreamSocket.Reachable
import PlaySocket.RingBuffer.Calls
import PlaySocket.RingBuffer.Failure
import PlaySocket.RingBuffer.RoundTrip
import PlaySocket.RingBuffer.Growth
import PlaySocket.RingBuffer.Construction
import PlaySocket.RingBuffer.Resize
import PlaySocket.StreamSocket.Delivery
import PlaySocket.Lib.Delimited
import PlaySocket.RouterSocket.SocketConfig
import PlaySocket.RouterSocket.Settings
import PlaySocket.RingBuffer.Observation
import PlaySocket.StreamSocket.Intake
import PlaySocket.StreamSocket.Registry
import PlaySocket.StreamSocket.Progress
import PlaySocket.StreamSocket.Consumer
import PlaySocket.Lib.Channel
import PlaySocket.RouterSocket.Message
import PlaySocket.RouterSocket.Network
import PlaySocket.RouterSocket.Options
import PlaySocket.StreamSocket.Recovery
import PlaySocket.RouterSocket.Draining
