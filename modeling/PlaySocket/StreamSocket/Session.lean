import Mathlib.Data.List.AList
import PlaySocket.StreamParser.Basic

/-!
# Sessions

The objects of `stream_socket.cpp` and of its copy for WebSockets in
`websocket.cpp`.  A `StreamSocket` has a receive queue and a registry of
sessions, which other threads use at the same time.  A `Session` has an sid and
two pointers, which only its own callbacks use.

What a callback does to the shared structures does not depend on what it finds
there.  So a callback is run on its session alone and lists its `Effect`s, and
the machine of `StreamSocket/Machine.lean` carries them out one at a time.  A
null pointer that is followed is a fault.
-/

namespace PlaySocket

open Exec

/-- Names of `StreamSocket` objects. -/
abbrev SocketId := Nat

/-- Names of accepted connections, and of their `Session` objects. -/
abbrev ConnectionId := Nat

/-! ## The registry and the queue -/

/-- An entry of the receive queue.  `origin` is the connection whose callback
pushed it.  The code keeps no such record, and nothing below reads it. -/
structure Received where
  message : ClientMessage
  origin : ConnectionId
deriving DecidableEq, Repr

structure StreamSocket where
  recvBuffer : List Received
  sessions : AList fun _ : Int64 => ConnectionId

/-- What `send` hands to a session, the value it returns, and what it leaves of
its argument. -/
structure Sent where
  handed : Option (ConnectionId × MessageT)
  returned : Option Bool
  message : ClientMessage

namespace StreamSocket

def new : StreamSocket := { recvBuffer := [], sessions := ∅ }

/-- Inserting leaves an entry that is already there. -/
def addSession (s : StreamSocket) (sid : Int64) (session : ConnectionId) : StreamSocket :=
  if sid ∈ s.sessions then s else { s with sessions := s.sessions.insert sid session }

def removeSession (s : StreamSocket) (sid : Int64) : StreamSocket :=
  { s with sessions := s.sessions.erase sid }

/-- `_recvBuffer.push`. -/
def push (s : StreamSocket) (received : Received) : StreamSocket :=
  { s with recvBuffer := s.recvBuffer ++ [received] }

def recv (s : StreamSocket) : Option Received × StreamSocket :=
  match s.recvBuffer with
  | [] => (none, s)
  | received :: rest => (some received, { s with recvBuffer := rest })

/-- Neither branch ends in a return statement. -/
def send (s : StreamSocket) (message : ClientMessage) : Except Fault Sent :=
  match s.sessions.lookup message.sid with
  | some session =>
    match message.takeBody with
    | (some msg, message) =>
      .ok { handed := some (session, msg), returned := none, message := message }
    | (none, _) => .error .nullPointer
  | none => .ok { handed := none, returned := none, message := message }

theorem lookup_addSession (s : StreamSocket) (sid : Int64) (session : ConnectionId)
    (other : Int64) :
    (s.addSession sid session).sessions.lookup other =
      if other = sid then some ((s.sessions.lookup sid).getD session)
      else s.sessions.lookup other := by
  rw [addSession]
  by_cases hmem : sid ∈ s.sessions
  · obtain ⟨old, hold⟩ := Option.isSome_iff_exists.mp (AList.lookup_isSome.mpr hmem)
    rw [if_pos hmem]
    by_cases hother : other = sid
    · rw [if_pos hother, hother, hold, Option.getD_some]
    · rw [if_neg hother]
  · rw [if_neg hmem]
    by_cases hother : other = sid
    · rw [if_pos hother, hother, AList.lookup_insert, AList.lookup_eq_none.mpr hmem,
        Option.getD_none]
    · rw [if_neg hother, AList.lookup_insert_ne hother]

theorem lookup_removeSession (s : StreamSocket) (sid other : Int64) :
    (s.removeSession sid).sessions.lookup other =
      if other = sid then none else s.sessions.lookup other := by
  rw [removeSession]
  by_cases hother : other = sid
  · rw [if_pos hother, hother, AList.lookup_erase]
  · rw [if_neg hother, AList.lookup_erase_ne hother]

end StreamSocket

/-! ## Sessions -/

structure Session where
  sid : Int64
  socket : Option SocketId
  parser : Option StreamParser
deriving DecidableEq, Repr

/-- What a callback does outside its session. -/
inductive Effect where
  | addSession (socket : SocketId) (sid : Int64) (session : ConnectionId)
  | removeSession (socket : SocketId) (sid : Int64)
  | push (socket : SocketId) (message : ClientMessage)
  | disconnect
deriving DecidableEq, Repr

/-- A callback in progress. -/
structure Activation where
  session : Session
  effects : List Effect
deriving DecidableEq, Repr

abbrev Callback := Exec StdException Activation

namespace Session

/-- `Session(socket, server)`. -/
def ofSocket (socket : Option SocketId) : Session :=
  { sid := 0, socket := socket, parser := none }

/-- `Session(server)`, the constructor inherited from `TCPSession`. -/
def ofServer : Session := { sid := 0, socket := none, parser := none }

def emit (effect : Effect) : Callback Unit :=
  update fun a => { a with effects := a.effects ++ [effect] }

/-- `_socket->`. -/
def followSocket : Callback SocketId := do
  let a ← self
  match a.session.socket with
  | some socket => pure socket
  | none => undefined .nullPointer

/-- `_parser->`. -/
def onParser {α : Type} (x : Exec StdException StreamParser α) : Callback α := do
  let a ← self
  match a.session.parser with
  | some parser =>
    zoom (fun _ => parser)
      (fun parser a => { a with session := { a.session with parser := some parser } }) x
  | none => undefined .nullPointer

def push (message : ClientMessage) : Callback Unit := do
  let socket ← followSocket
  emit (.push socket message)

/-- `this` names the session itself. -/
def onConnected (nativeHandle : Int64) (this : ConnectionId) : Callback Unit := do
  update fun a => { a with session := { a.session with sid := nativeHandle } }
  update fun a => { a with session :=
    { a.session with parser := some (StreamParser.new a.session.sid) } }
  let a ← self
  let socket ← followSocket
  emit (.addSession socket a.session.sid this)
  push (ClientMessage.ofType a.session.sid .connect)

def onDisconnected : Callback Unit := do
  let a ← self
  push (ClientMessage.ofType a.session.sid .disconnect)
  let socket ← followSocket
  emit (.removeSession socket a.session.sid)

def onReceived (native : Endian) (buffer : List UInt8) : Callback Unit :=
  attempt
    (do
      onParser (StreamParser.write buffer 0 buffer.length)
      let messages ← onParser (StreamParser.parse native)
      forEach push messages)
    (fun _ => emit .disconnect)

def onError : Callback Unit := emit .disconnect

end Session

structure StreamServer where
  streamSocket : SocketId

namespace StreamServer

def createSession (_server : StreamServer) : Session := Session.ofServer

end StreamServer

/-- The server `bind` makes, from `shared_from_this()`. -/
def StreamSocket.bind (this : SocketId) : StreamServer := { streamSocket := this }

/-! ## The copy for WebSockets -/

abbrev WSSession := Session

namespace WSSession

def ofSocket (streamSocket : Option SocketId) : WSSession := Session.ofSocket streamSocket

def ofServer : WSSession := Session.ofServer

def onWSConnected (nativeHandle : Int64) (this : ConnectionId) : Callback Unit :=
  Session.onConnected nativeHandle this

def onWSDisconnected : Callback Unit := Session.onDisconnected

def onWSReceived (native : Endian) (buffer : List UInt8) : Callback Unit :=
  Session.onReceived native buffer

def onError : Callback Unit := Session.onError

end WSSession

structure WSStreamServer where
  socket : SocketId

namespace WSStreamServer

def createSession (_server : WSStreamServer) : WSSession := WSSession.ofServer

end WSStreamServer

abbrev WSStreamSocket := StreamSocket

namespace WSStreamSocket

def addSession (s : WSStreamSocket) (sid : Int64) (session : ConnectionId) : WSStreamSocket :=
  StreamSocket.addSession s sid session

def removeSession (s : WSStreamSocket) (sid : Int64) : WSStreamSocket :=
  StreamSocket.removeSession s sid

def recv (s : WSStreamSocket) : Option Received × WSStreamSocket := StreamSocket.recv s

def send (s : WSStreamSocket) (message : ClientMessage) : Except Fault Sent :=
  StreamSocket.send s message

def bind (this : SocketId) : WSStreamServer := { socket := this }

end WSStreamSocket

end PlaySocket
