import PlaySocket.BitConverter
import PlaySocket.ClientMessage

/-!
# StreamParser

The parser of `stream_parser.hpp`.  A frame on the wire is a header of eleven
bytes, the first two of which hold the length of the body, and then the body.
`parse` takes whole frames off the front of the ring until none is left.

The loop of `parse` gets one round more than the ring has bytes.  A round that
goes on takes at least a header out of the ring, so the rounds never run out.
-/

namespace PlaySocket

open Exec

def maxPacketSize : Nat := 65535

def headerSize : Nat := 11

structure StreamParser where
  sid : Int64
  buffer : RingBuffer
deriving DecidableEq, Repr

namespace StreamParser

/-- `StreamParser(sid)`. -/
def new (sid : Int64) : StreamParser :=
  { sid := sid, buffer := RingBuffer.init (1024 * 8) (1024 * 64 * 8) }

/-- The members' initialisers do not throw. -/
theorem construct_buffer (sid : Int64) :
    RingBuffer.construct (1024 * 8) (1024 * 64 * 8) = .ok (new sid).buffer := by
  rw [RingBuffer.construct, if_neg (by decide), new]

/-- A call on the parser's ring. -/
def onBuffer {α : Type} (x : RingExec α) : Exec StdException StreamParser α :=
  zoom (·.buffer) (fun buffer parser => { parser with buffer := buffer }) x

def write (buffer : List UInt8) (offset count : Nat) : Exec StdException StreamParser Unit :=
  onBuffer (RingBuffer.write buffer offset count)

/-- The part of a round of `parse` behind the checks. -/
def readMessage (native : Endian) (sid : Int64) (bodySize : UInt16) : RingExec ClientMessage := do
  RingBuffer.clearCount 2
  let serviceId ← RingBuffer.readInt16
  let msgId ← RingBuffer.readInt32
  let msgSeq ← RingBuffer.readInt16
  let stageIndex ← RingBuffer.readInt8
  let drained ← RingBuffer.read 0 bodySize.toNat
  let body ← (MessageT.ofSize bodySize.toNat).fill drained.2
  pure (ClientMessage.ofBody sid
    { serviceId := BitConverter.toHostI16 native serviceId
      msgId := BitConverter.toHostI32 native msgId
      msgSeq := BitConverter.toHostI16 native msgSeq
      stageIndex := stageIndex } (some body))

def parseLoop (native : Endian) (sid : Int64) :
    Nat → List ClientMessage → RingExec (List ClientMessage)
  | 0, _ => undefined .diverged
  | rounds + 1, messages => do
    let s ← self
    if s.size ≥ headerSize then do
      let announced ← RingBuffer.peekInt16
      let bodySize := (BitConverter.toHostI16 native announced).toUInt16
      when (bodySize.toNat > maxPacketSize) (raise (.outOfRange "body size is over"))
      let s ← self
      if s.size < bodySize.toNat + headerSize then pure messages
      else do
        let message ← readMessage native sid bodySize
        parseLoop native sid rounds (messages ++ [message])
    else pure messages

def parse (native : Endian) : Exec StdException StreamParser (List ClientMessage) := do
  let parser ← self
  onBuffer (parseLoop native parser.sid (parser.buffer.size + 1) [])

/-- What a session does with each chunk it receives. -/
def receive (native : Endian) (buffer : List UInt8) :
    Exec StdException StreamParser (List ClientMessage) := do
  write buffer 0 buffer.length
  parse native

end StreamParser

end PlaySocket
