import PlaySocket.ClientMessage

/-!
# RouterMessage

`send` and `recv` of `router_socket.cpp` on a zmq socket.  The frames of a
message are moved into the multipart that is sent, however the call ends.  What
a frame holds when it has been moved from is for zmq to say.  What `recv` logs
is left out.
-/

namespace PlaySocket

open Exec

namespace MessageT

/-- `message_t(bytes, size)`. -/
def ofBytes (bytes : List UInt8) : MessageT := { data := bytes.toArray }

end MessageT

structure RouterMessage where
  target : MessageT
  header : MessageT
  body : MessageT
deriving DecidableEq, Repr

namespace RouterMessage

/-- `RouterMessage(target, Header, body)` of two strings. -/
def ofStrings (target header : List UInt8) (body : MessageT) : RouterMessage :=
  { target := MessageT.ofBytes target, header := MessageT.ofBytes header, body := body }

/-- `RouterMessage(target, Header, body)` of three frames. -/
def ofFrames (target header body : MessageT) : RouterMessage :=
  { target := target, header := header, body := body }

def frames (message : RouterMessage) : List MessageT :=
  [message.target, message.header, message.body]

end RouterMessage

/-- `zmq::send_multipart` and `zmq::recv_multipart` on one socket, and what a
`message_t` holds when it has been moved from.  `σ` is what the calls read and
change, and `ε` their exceptions.  A call that would block has no result. -/
structure ZmqSocket (ε σ : Type) where
  moved : MessageT → MessageT
  sendMultipart : List MessageT → Exec ε σ (Option Nat)
  recvMultipart : Exec ε σ (Option (List MessageT))

namespace RouterSocket

variable {ε σ : Type}

/-- `std::move` of one frame. -/
def moveOut (zmq : ZmqSocket ε σ) (get : RouterMessage → MessageT)
    (put : MessageT → RouterMessage → RouterMessage) : Exec ε (RouterMessage × σ) MessageT := do
  let owner ← self
  update fun p => (put (zmq.moved (get p.1)) p.1, p.2)
  pure (get owner.1)

/-- A call on the socket, which leaves the message alone. -/
def onSocket {α : Type} (x : Exec ε σ α) : Exec ε (RouterMessage × σ) α :=
  zoom (·.2) (fun s p => (p.1, s)) x

def send (zmq : ZmqSocket ε σ) : Exec ε (RouterMessage × σ) Bool := do
  let target ← moveOut zmq (·.target) fun frame message => { message with target := frame }
  let header ← moveOut zmq (·.header) fun frame message => { message with header := frame }
  let body ← moveOut zmq (·.body) fun frame message => { message with body := frame }
  let sendresult ← onSocket (zmq.sendMultipart [target, header, body])
  if sendresult.isNone then pure false else pure true

def recv (zmq : ZmqSocket ε σ) : Exec ε σ (Option RouterMessage) := do
  let ret ← zmq.recvMultipart
  match ret with
  | none => pure none
  | some [target, header, body] => pure (some (RouterMessage.ofFrames target header body))
  | some _ => pure none

/-- The message `send` leaves behind. -/
def movedFrom (zmq : ZmqSocket ε σ) (message : RouterMessage) : RouterMessage :=
  RouterMessage.ofFrames (zmq.moved message.target) (zmq.moved message.header)
    (zmq.moved message.body)

/-- How `send` ends when the socket's call has ended. -/
def afterSend (left : RouterMessage) :
    Exit ε σ (Option Nat) → Exit ε (RouterMessage × σ) Bool
  | .ok sendresult s => .ok sendresult.isSome (left, s)
  | .thrown e s => .thrown e (left, s)
  | .fault w => .fault w

theorem send_run (zmq : ZmqSocket ε σ) (message : RouterMessage) (s : σ) :
    (send zmq).run (message, s) =
      afterSend (movedFrom zmq message) ((zmq.sendMultipart message.frames).run s) := by
  obtain ⟨target, header, body⟩ := message
  simp only [send, moveOut, onSocket, zoom, run_bind, run_self, run_update, run_pure,
    Exit.andThen_ok, RouterMessage.frames]
  cases (zmq.sendMultipart [target, header, body]).run s with
  | ok sendresult t => cases sendresult <;> rfl
  | thrown e t => rfl
  | fault w => rfl

/-! ## What `recv` makes of the frames -/

/-- A message of frames, if there are three of them. -/
def ofThree : List MessageT → Option RouterMessage
  | [target, header, body] => some (RouterMessage.ofFrames target header body)
  | _ => none

theorem recv_run (zmq : ZmqSocket ε σ) (s : σ) :
    (recv zmq).run s = (zmq.recvMultipart.run s).andThen fun ret t => .ok (ret.bind ofThree) t := by
  rw [recv, run_bind]
  cases zmq.recvMultipart.run s with
  | ok ret t =>
    rw [Exit.andThen_ok, Exit.andThen_ok]
    match ret with
    | none => rfl
    | some [] => rfl
    | some [_] => rfl
    | some [_, _] => rfl
    | some [_, _, _] => rfl
    | some (_ :: _ :: _ :: _ :: _) => rfl
  | thrown e t => rfl
  | fault w => rfl

end RouterSocket

end PlaySocket
