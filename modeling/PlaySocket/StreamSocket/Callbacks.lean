import PlaySocket.StreamParser.Stream
import PlaySocket.StreamSocket.Session

/-!
# What each callback does

One lemma per callback, for a session that has a socket and, after
`onConnected`, a parser.  `Transport` names the two copies of the code, and the
lemmas hold for both.
-/

namespace PlaySocket

open Exec

/-- The class family a callback belongs to. -/
inductive Transport where
  | tcp
  | ws
deriving DecidableEq, Repr

namespace Transport

/-- The session a server makes for a connection it accepts. -/
def createSession : Transport → SocketId → Session
  | tcp, socket => (StreamSocket.bind socket).createSession
  | ws, socket => (WSStreamSocket.bind socket).createSession

/-- The session the constructor with a socket makes. -/
def sessionOfSocket : Transport → SocketId → Session
  | tcp, socket => Session.ofSocket (some socket)
  | ws, socket => WSSession.ofSocket (some socket)

def onConnected : Transport → Int64 → ConnectionId → Callback Unit
  | tcp => Session.onConnected
  | ws => WSSession.onWSConnected

def onDisconnected : Transport → Callback Unit
  | tcp => Session.onDisconnected
  | ws => WSSession.onWSDisconnected

def onReceived : Transport → Endian → List UInt8 → Callback Unit
  | tcp => Session.onReceived
  | ws => WSSession.onWSReceived

def onError : Transport → Callback Unit
  | tcp => Session.onError
  | ws => WSSession.onError

def addSession : Transport → StreamSocket → Int64 → ConnectionId → StreamSocket
  | tcp => StreamSocket.addSession
  | ws => WSStreamSocket.addSession

def removeSession : Transport → StreamSocket → Int64 → StreamSocket
  | tcp => StreamSocket.removeSession
  | ws => WSStreamSocket.removeSession

def recv : Transport → StreamSocket → Option Received × StreamSocket
  | tcp => StreamSocket.recv
  | ws => WSStreamSocket.recv

def send : Transport → StreamSocket → ClientMessage → Except Fault Sent
  | tcp => StreamSocket.send
  | ws => WSStreamSocket.send

end Transport

variable {session : Session} {effects : List Effect} {socket : SocketId} {parser : StreamParser}

namespace Session

theorem push_ok (hsocket : session.socket = some socket) (message : ClientMessage) :
    (push message).run { session := session, effects := effects } =
      .ok () { session := session, effects := effects ++ [.push socket message] } := by
  simp only [push, followSocket, emit, run_bind, run_self, Exit.andThen_ok, hsocket, run_pure,
    run_update]

theorem forEach_push_ok (hsocket : session.socket = some socket) (messages : List ClientMessage) :
    ∀ effects, (forEach push messages).run { session := session, effects := effects } =
      .ok () { session := session, effects := effects ++ messages.map (Effect.push socket) } := by
  induction messages with
  | nil => intro effects; rw [forEach, run_pure, List.map_nil, List.append_nil]
  | cons message messages ih =>
    intro effects
    rw [forEach, run_bind, push_ok hsocket, Exit.andThen_ok, ih, List.append_assoc, List.map_cons,
      List.singleton_append]

theorem onParser_ok {α : Type} {x : Exec StdException StreamParser α} {a : α}
    {parser' : StreamParser} (hparser : session.parser = some parser)
    (hrun : x.run parser = .ok a parser') :
    (onParser x).run { session := session, effects := effects } =
      .ok a { session := { session with parser := some parser' }, effects := effects } := by
  simp only [onParser, run_bind, run_self, Exit.andThen_ok, hparser]
  exact run_zoom_ok hrun

theorem onParser_thrown {α : Type} {x : Exec StdException StreamParser α} {e : StdException}
    {parser' : StreamParser} (hparser : session.parser = some parser)
    (hrun : x.run parser = .thrown e parser') :
    (onParser x).run { session := session, effects := effects } =
      .thrown e { session := { session with parser := some parser' }, effects := effects } := by
  simp only [onParser, run_bind, run_self, Exit.andThen_ok, hparser]
  exact run_zoom_thrown hrun

theorem onReceived_ok {native : Endian} {buffer : List UInt8} {messages : List ClientMessage}
    {parser' : StreamParser} (hsocket : session.socket = some socket)
    (hparser : session.parser = some parser)
    (hrun : (StreamParser.receive native buffer).run parser = .ok messages parser') :
    (onReceived native buffer).run { session := session, effects := effects } =
      .ok () { session := { session with parser := some parser' },
               effects := effects ++ messages.map (Effect.push socket) } := by
  rw [StreamParser.receive, run_bind] at hrun
  cases hwrite : (StreamParser.write buffer 0 buffer.length).run parser with
  | ok _ parser₁ =>
    rw [hwrite, Exit.andThen_ok] at hrun
    have hparse : (onParser (StreamParser.parse native)).run
        { session := { session with parser := some parser₁ }, effects := effects } =
        .ok messages { session := { session with parser := some parser' }, effects := effects } :=
      onParser_ok rfl hrun
    have hsocket' : ({ session with parser := some parser' } : Session).socket = some socket :=
      hsocket
    have hpush : (forEach push messages).run
        { session := { session with parser := some parser' }, effects := effects } =
        .ok () { session := { session with parser := some parser' },
                 effects := effects ++ messages.map (Effect.push socket) } :=
      forEach_push_ok hsocket' messages effects
    simp only [onReceived, attempt, run_bind, onParser_ok hparser hwrite, Exit.andThen_ok, hparse,
      hpush]
  | thrown e parser₁ => rw [hwrite] at hrun; cases hrun
  | fault w => rw [hwrite] at hrun; cases hrun

theorem onReceived_thrown {native : Endian} {buffer : List UInt8} {e : StdException}
    {parser' : StreamParser} (hparser : session.parser = some parser)
    (hrun : (StreamParser.receive native buffer).run parser = .thrown e parser') :
    (onReceived native buffer).run { session := session, effects := effects } =
      .ok () { session := { session with parser := some parser' },
               effects := effects ++ [.disconnect] } := by
  rw [StreamParser.receive, run_bind] at hrun
  cases hwrite : (StreamParser.write buffer 0 buffer.length).run parser with
  | ok _ parser₁ =>
    rw [hwrite, Exit.andThen_ok] at hrun
    have hparse : (onParser (StreamParser.parse native)).run
        { session := { session with parser := some parser₁ }, effects := effects } =
        .thrown e { session := { session with parser := some parser' }, effects := effects } :=
      onParser_thrown rfl hrun
    simp only [onReceived, attempt, run_bind, onParser_ok hparser hwrite, Exit.andThen_ok, hparse,
      Exit.andThen_thrown, emit, run_update]
  | thrown e' parser₁ =>
    rw [hwrite, Exit.andThen_thrown] at hrun
    cases hrun
    simp only [onReceived, attempt, run_bind, onParser_thrown hparser hwrite,
      Exit.andThen_thrown, emit, run_update]
  | fault w => rw [hwrite] at hrun; cases hrun

end Session

namespace Transport

variable (t : Transport)

theorem onConnected_ok (hsocket : session.socket = some socket) (nativeHandle : Int64)
    (this : ConnectionId) :
    (t.onConnected nativeHandle this).run { session := session, effects := [] } =
      .ok () { session :=
                { sid := nativeHandle, socket := some socket,
                  parser := some (StreamParser.new nativeHandle) },
               effects := [.addSession socket nativeHandle this,
                .push socket (ClientMessage.ofType nativeHandle .connect)] } := by
  have hrun : (Session.onConnected nativeHandle this).run { session := session, effects := [] } =
      .ok () { session :=
                { sid := nativeHandle, socket := some socket,
                  parser := some (StreamParser.new nativeHandle) },
               effects := [.addSession socket nativeHandle this,
                .push socket (ClientMessage.ofType nativeHandle .connect)] } := by
    simp only [Session.onConnected, Session.push, Session.followSocket, Session.emit, run_bind,
      run_self, run_update, run_pure, Exit.andThen_ok, hsocket]
    rfl
  cases t <;> exact hrun

/-- A session without a socket does not survive its first callback. -/
theorem onConnected_null (hsocket : session.socket = none) (nativeHandle : Int64)
    (this : ConnectionId) :
    (t.onConnected nativeHandle this).run { session := session, effects := [] } =
      .fault .nullPointer := by
  have hrun : (Session.onConnected nativeHandle this).run { session := session, effects := [] } =
      .fault .nullPointer := by
    simp only [Session.onConnected, Session.followSocket, run_bind, run_self, run_update,
      Exit.andThen_ok, hsocket, run_undefined, Exit.andThen_fault]
  cases t <;> exact hrun

theorem onDisconnected_ok (hsocket : session.socket = some socket) :
    t.onDisconnected.run { session := session, effects := [] } =
      .ok () { session := session,
               effects := [.push socket (ClientMessage.ofType session.sid .disconnect),
                .removeSession socket session.sid] } := by
  have hrun : Session.onDisconnected.run { session := session, effects := [] } =
      .ok () { session := session,
               effects := [.push socket (ClientMessage.ofType session.sid .disconnect),
                .removeSession socket session.sid] } := by
    simp only [Session.onDisconnected, Session.followSocket, Session.emit, run_bind, run_self,
      run_update, run_pure, Exit.andThen_ok, Session.push_ok hsocket, hsocket]
    rfl
  cases t <;> exact hrun

theorem onError_ok :
    t.onError.run { session := session, effects := [] } =
      .ok () { session := session, effects := [.disconnect] } := by
  cases t <;> rfl

/-! The copies are equal. -/

theorem createSession_eq (socket : SocketId) : t.createSession socket = Session.ofServer := by
  cases t <;> rfl

theorem sessionOfSocket_eq (socket : SocketId) :
    t.sessionOfSocket socket = Session.ofSocket (some socket) := by
  cases t <;> rfl

theorem addSession_eq : t.addSession = StreamSocket.addSession := by cases t <;> rfl

theorem removeSession_eq : t.removeSession = StreamSocket.removeSession := by cases t <;> rfl

theorem recv_eq : t.recv = StreamSocket.recv := by cases t <;> rfl

theorem send_eq : t.send = StreamSocket.send := by cases t <;> rfl

theorem onReceived_eq (native : Endian) (buffer : List UInt8) :
    t.onReceived native buffer = Session.onReceived native buffer := by
  cases t <;> rfl

end Transport

end PlaySocket
