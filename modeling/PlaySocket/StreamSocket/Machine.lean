import Mathlib.Logic.Function.Basic
import PlaySocket.Lib.Machine
import PlaySocket.StreamSocket.Callbacks

/-!
# The running server

Any number of connections, accepted by the servers of any number of
`StreamSocket`s, and a consumer that calls `recv` and `send`.  One step is the
start of a callback, one effect of a callback in progress, or one call of the
consumer, so the consumer may come between any two effects, and the callbacks of
different connections may be interleaved.

The framework is taken to make a session for each connection it accepts, and to
call `onConnected` on it once, then `onReceived` and `onError` any number of
times, then `onDisconnected` at most once, each after the one before returned.
The operating system may hand out a native handle again.  `exclusive` says that
it does so only after `onDisconnected` of the last holder returned.

`opened`, `dequeued`, `delivered` and the `chunks` of a connection record what
has happened.  No step depends on them, except that a reply answers a message
that was dequeued.
-/

namespace PlaySocket

open Exec

/-- Where a connection stands in the order of its callbacks. -/
inductive Phase where
  | absent
  | accepted
  | connected
  | disconnected
deriving DecidableEq, Repr

structure Connection where
  server : SocketId
  handle : Int64
  session : Session
  phase : Phase
  pending : List Effect
  chunks : List (List UInt8)

namespace Connection

def absent : Connection :=
  { server := 0, handle := 0, session := Session.ofSocket none, phase := .absent, pending := []
    chunks := [] }

/-- `onDisconnected` has returned. -/
def Done (c : Connection) : Prop := c.phase = .disconnected ∧ c.pending = []

instance (c : Connection) : Decidable c.Done := inferInstanceAs (Decidable (_ ∧ _))

end Connection

/-- A body that `send` handed to a session, and the message it answers, if any. -/
structure Delivery where
  inReplyTo : Option Received
  session : ConnectionId
  body : MessageT
deriving DecidableEq, Repr

/-- Who followed a null pointer. -/
inductive Crash where
  | callback (fault : Fault)
  | send (fault : Fault)
deriving DecidableEq, Repr

structure World where
  connections : ConnectionId → Connection
  opened : List ConnectionId
  sockets : SocketId → StreamSocket
  dequeued : SocketId → List Received
  delivered : List Delivery
  crash : Option Crash

inductive Event where
  | accept (k : ConnectionId) (socket : SocketId)
  | connected (k : ConnectionId) (nativeHandle : Int64)
  | received (k : ConnectionId) (buffer : List UInt8)
  | error (k : ConnectionId)
  | disconnected (k : ConnectionId)
  | effect (k : ConnectionId)
  | recv (socket : SocketId)
  | send (socket : SocketId) (message : ClientMessage) (inReplyTo : Option Received)

namespace World

def init : World :=
  { connections := fun _ => Connection.absent, opened := [], sockets := fun _ => StreamSocket.new
    dequeued := fun _ => [], delivered := [], crash := none }

def setConnection (w : World) (k : ConnectionId) (c : Connection) : World :=
  { w with connections := Function.update w.connections k c }

@[simp] theorem setConnection_self (w : World) (k : ConnectionId) (c : Connection) :
    (w.setConnection k c).connections k = c := by
  show Function.update w.connections k c k = c
  rw [Function.update_self]

@[simp] theorem setConnection_ne (w : World) {j k : ConnectionId} (h : j ≠ k) (c : Connection) :
    (w.setConnection k c).connections j = w.connections j := by
  show Function.update w.connections k c j = w.connections j
  rw [Function.update_of_ne h]

/-- Run a callback on the session of `c` and leave its effects pending. -/
def start (w : World) (k : ConnectionId) (c : Connection) (x : Callback Unit) : World :=
  match x.run { session := c.session, effects := [] } with
  | .ok _ a => w.setConnection k { c with session := a.session, pending := a.effects }
  | .thrown _ a => w.setConnection k { c with session := a.session, pending := a.effects }
  | .fault fault => { w with crash := some (.callback fault) }

theorem start_ok {w : World} {k : ConnectionId} {c : Connection} {x : Callback Unit}
    {a : Activation} (h : x.run { session := c.session, effects := [] } = .ok () a) :
    w.start k c x = w.setConnection k { c with session := a.session, pending := a.effects } := by
  rw [start, h]

/-- What an effect of connection `k` does to the sockets. -/
def carryOut (t : Transport) (k : ConnectionId) (sockets : SocketId → StreamSocket) :
    Effect → SocketId → StreamSocket
  | .addSession socket sid session =>
    Function.update sockets socket (t.addSession (sockets socket) sid session)
  | .removeSession socket sid =>
    Function.update sockets socket (t.removeSession (sockets socket) sid)
  | .push socket message =>
    Function.update sockets socket
      ((sockets socket).push { message := message, origin := k })
  | .disconnect => sockets

/-- A callback of connection `k` may start. -/
def Ready (w : World) (k : ConnectionId) : Prop :=
  (w.connections k).phase = .connected ∧ (w.connections k).pending = []

instance (w : World) (k : ConnectionId) : Decidable (w.Ready k) :=
  inferInstanceAs (Decidable (_ ∧ _))

/-- A reply takes its sid from a message the consumer has received. -/
def MayReply (w : World) (socket : SocketId) (message : ClientMessage)
    (inReplyTo : Option Received) : Prop :=
  ∀ r, inReplyTo = some r → r ∈ w.dequeued socket ∧ message.sid = r.message.sid

instance (w : World) (socket : SocketId) (message : ClientMessage) (inReplyTo : Option Received) :
    Decidable (w.MayReply socket message inReplyTo) :=
  match inReplyTo with
  | none => isTrue fun _ h => nomatch h
  | some r =>
    decidable_of_iff (r ∈ w.dequeued socket ∧ message.sid = r.message.sid)
      ⟨fun h _ hr => Option.some.inj hr ▸ h, fun h => h r rfl⟩

def perform (t : Transport) (native : Endian) (create : SocketId → Session) (w : World) :
    Event → Option World
  | .accept k socket =>
    if (w.connections k).phase = .absent then
      some (w.setConnection k
        { Connection.absent with server := socket, session := create socket, phase := .accepted })
    else none
  | .connected k nativeHandle =>
    if (w.connections k).phase = .accepted then
      some ({ w with opened := w.opened ++ [k] }.start k
        { w.connections k with handle := nativeHandle, phase := .connected }
        (t.onConnected nativeHandle k))
    else none
  | .received k buffer =>
    if w.Ready k then
      some (w.start k
        { w.connections k with chunks := (w.connections k).chunks ++ [buffer] }
        (t.onReceived native buffer))
    else none
  | .error k => if w.Ready k then some (w.start k (w.connections k) t.onError) else none
  | .disconnected k =>
    if w.Ready k then
      some (w.start k { w.connections k with phase := .disconnected } t.onDisconnected)
    else none
  | .effect k =>
    match (w.connections k).pending with
    | [] => none
    | e :: rest =>
      some { w.setConnection k { w.connections k with pending := rest } with
        sockets := carryOut t k w.sockets e }
  | .recv socket =>
    match t.recv (w.sockets socket) with
    | (none, _) => some w
    | (some received, s) =>
      some { w with
        sockets := Function.update w.sockets socket s
        dequeued := Function.update w.dequeued socket (w.dequeued socket ++ [received]) }
  | .send socket message inReplyTo =>
    if w.MayReply socket message inReplyTo then
      match t.send (w.sockets socket) message with
      | .ok sent =>
        some { w with delivered := w.delivered ++ (sent.handed.map fun handed =>
          { inReplyTo := inReplyTo, session := handed.1, body := handed.2 }).toList }
      | .error fault => some { w with crash := some (.send fault) }
    else none

/-- Nothing happens after a crash. -/
def step (t : Transport) (native : Endian) (create : SocketId → Session) (w : World) (e : Event) :
    Option World :=
  match w.crash with
  | none => w.perform t native create e
  | some _ => none

theorem crash_of_step {t : Transport} {native : Endian} {create : SocketId → Session}
    {w w' : World} {e : Event} (h : w.step t native create e = some w') : w.crash = none := by
  cases hcrash : w.crash with
  | none => rfl
  | some crash =>
    rw [step, hcrash] at h
    cases h

/-- A native handle is given to a new connection only when `onDisconnected` has
returned on every earlier connection that had it. -/
def exclusive (w : World) : Event → Bool
  | .connected _ nativeHandle =>
    w.opened.all fun j =>
      decide ((w.connections j).handle = nativeHandle → (w.connections j).Done)
  | _ => true

end World

/-- The server as the code sets it up. -/
def serverMachine (t : Transport) (native : Endian) : Machine World Event :=
  { init := World.init, step := World.step t native t.createSession }

/-- The server with sessions made by the constructor that takes a socket. -/
def wiredMachine (t : Transport) (native : Endian) : Machine World Event :=
  { init := World.init, step := World.step t native t.sessionOfSocket }

/-- The wired server under an operating system that reissues handles late. -/
def exclusiveMachine (t : Transport) (native : Endian) : Machine World Event :=
  (wiredMachine t native).restrict World.exclusive

end PlaySocket
