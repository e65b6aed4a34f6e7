import PlaySocket.BitConverter
import PlaySocket.ClientMessage
import PlaySocket.StreamParser.Basic

/-!
# RouterSocket

The encoder of `router_socket.cpp`.  `makeClientMessageBody` lays a frame out in
a ring that all calls share, allocates a message, and reads the ring into it.

`encodeClientMessage` is the call up to that last read, with the stores the read
makes listed and not made.  The list says what is drained and where it goes even
when it does not fit.
-/

namespace PlaySocket

open Exec

structure RouterSocket where
  buffer : RingBuffer
deriving DecidableEq, Repr

/-- What `makeClientMessageBody` is called with.  The caller owns at least
`bodySize` bytes at `body`. -/
structure ClientMessageBody where
  bodySize : UInt16
  serviceId : Int16
  msgId : Int32
  msgSeq : Int16
  errorCode : Int16
  stageIndex : Int8
  body : List UInt8
  inside : bodySize.toNat ≤ body.length

namespace RouterSocket

def new : RouterSocket := { buffer := RingBuffer.init (64 * 1024) (64 * 1024 * 2) }

theorem construct_buffer :
    RingBuffer.construct (64 * 1024) (64 * 1024 * 2) = .ok new.buffer := by
  rw [RingBuffer.construct, if_neg (by decide), new]

/-- A call on the socket's ring. -/
def onBuffer {α : Type} (x : RingExec α) : Exec StdException RouterSocket α :=
  zoom (·.buffer) (fun buffer socket => { socket with buffer := buffer }) x

def writeFrame (native : Endian) (args : ClientMessageBody) : RingExec Unit := do
  RingBuffer.writeU16 (BitConverter.toNetworkU16 native args.bodySize)
  RingBuffer.writeI16 (BitConverter.toNetworkI16 native args.serviceId)
  RingBuffer.writeI32 (BitConverter.toNetworkI32 native args.msgId)
  RingBuffer.writeI16 (BitConverter.toNetworkI16 native args.msgSeq)
  RingBuffer.writeI16 (BitConverter.toNetworkI16 native args.errorCode)
  RingBuffer.writeI8 args.stageIndex
  RingBuffer.write args.body 0 args.bodySize.toNat

/-- The message allocated, and the stores of the read into it. -/
def encodeClientMessage (native : Endian) (args : ClientMessageBody) :
    Exec StdException RouterSocket (MessageT × List Store) := do
  when (args.bodySize.toNat > maxPacketSize)
    (raise (.outOfRange ("packet size is over Max - bodysize:" ++ toString args.bodySize)))
  onBuffer RingBuffer.clear
  onBuffer (writeFrame native args)
  let message := MessageT.ofSize args.bodySize.toNat
  let socket ← self
  let drained ← onBuffer (RingBuffer.read 0 socket.buffer.size)
  pure (message, drained.2)

def makeClientMessageBody (native : Endian) (args : ClientMessageBody) :
    Exec StdException RouterSocket MessageT := do
  let drained ← encodeClientMessage native args
  drained.1.fill drained.2

end RouterSocket

end PlaySocket
