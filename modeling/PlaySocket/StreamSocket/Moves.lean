import PlaySocket.StreamSocket.Machine

/-!
# What a step of the wired server does

`stream` is what a connection owes its consumer so far: one CONNECT, then the
messages its own parser made of its own chunks, then one DISCONNECT once it is
closed.  `Shape` says how a connection looks in each phase.

`Move` lists what each event can do to a world whose connections are in shape,
with the callbacks already run.  `step_move` is the only place where a step is
opened, so everything later is proved by cases on a move.
-/

namespace PlaySocket

open Exec

/-! ## One connection -/

/-- The messages of the calls that returned. -/
def returnedMessages (results : List (Except StdException (List ClientMessage))) :
    List ClientMessage :=
  results.flatMap fun
    | .ok messages => messages
    | .error _ => []

/-- What a parser of its own makes of the chunks of one connection. -/
def parsed (native : Endian) (sid : Int64) (chunks : List (List UInt8)) : List ClientMessage :=
  match runAll (chunks.map (StreamParser.receive native)) (StreamParser.new sid) with
  | some (results, _) => returnedMessages results
  | none => []

/-- The messages among some effects, in order. -/
def pushes (effects : List Effect) : List ClientMessage :=
  effects.filterMap fun
    | .push _ message => some message
    | _ => none

theorem pushes_map_push (socket : SocketId) (messages : List ClientMessage) :
    pushes (messages.map (Effect.push socket)) = messages := by
  rw [pushes, List.filterMap_map]
  exact List.filterMap_some

namespace Connection

def stream (native : Endian) (c : Connection) : List ClientMessage :=
  ClientMessage.ofType c.handle .connect :: parsed native c.handle c.chunks ++
    if c.phase = .disconnected then [ClientMessage.ofType c.handle .disconnect] else []

/-- Its session belongs to the socket of its server, and the parser has seen its
chunks and nothing else. -/
def Live (native : Endian) (c : Connection) : Prop :=
  ∃ parser results, c.session =
      { sid := c.handle, socket := some c.server, parser := some parser } ∧
    runAll (c.chunks.map (StreamParser.receive native)) (StreamParser.new c.handle) =
      some (results, parser)

/-- An effect on the socket of its server, under its own sid. -/
def Own (k : ConnectionId) (c : Connection) : Effect → Prop
  | .addSession socket sid session => socket = c.server ∧ sid = c.handle ∧ session = k
  | .removeSession _ _ => False
  | .push socket message => socket = c.server ∧ message.sid = c.handle
  | .disconnect => True

/-- The effects of `onConnected`. -/
def greeting (k : ConnectionId) (c : Connection) : List Effect :=
  [.addSession c.server c.handle k, .push c.server (ClientMessage.ofType c.handle .connect)]

/-- The effects of `onDisconnected`. -/
def farewell (c : Connection) : List Effect :=
  [.push c.server (ClientMessage.ofType c.handle .disconnect), .removeSession c.server c.handle]

/-- Its `addSession` is still to come. -/
def Registering (c : Connection) : Prop :=
  ∃ socket sid session, .addSession socket sid session ∈ c.pending

inductive Shape (native : Endian) (k : ConnectionId) (c : Connection) : Prop where
  | absent (hphase : c.phase = .absent) (hpending : c.pending = [])
  | accepted (hphase : c.phase = .accepted) (hpending : c.pending = []) (hchunks : c.chunks = [])
      (hsocket : c.session.socket = some c.server)
  | connected (hphase : c.phase = .connected) (hlive : Live native c)
      (hown : ∀ e ∈ c.pending, Own k c e)
  | disconnected (hphase : c.phase = .disconnected) (hlive : Live native c)
      (hpending : c.pending <:+ farewell c)

/-- Its session has yet to be removed from the registry. -/
def Staying (c : Connection) : Prop :=
  c.phase = .connected ∨ .removeSession c.server c.handle ∈ c.pending

/-- `c'` is `c` after one more callback. -/
structure Continues (native : Endian) (k : ConnectionId) (c c' : Connection) : Prop where
  server : c'.server = c.server
  handle : c'.handle = c.handle
  shape : Shape native k c'
  phase : c'.phase = .connected ∨ c'.phase = .disconnected
  staying : Staying c'
  stream : c'.stream native = c.stream native ++ pushes c'.pending
  not_registering : ¬Registering c'

variable {native : Endian} {k : ConnectionId} {c : Connection}

theorem not_registering_of {effects : List Effect} (h : c.pending = effects)
    (hplain : ∀ socket sid session, .addSession socket sid session ∉ effects) :
    ¬Registering c := by
  intro hadd
  obtain ⟨socket, sid, session, hmem⟩ := hadd
  rw [h] at hmem
  exact hplain socket sid session hmem

theorem not_registering_of_nil (h : c.pending = []) : ¬Registering c :=
  not_registering_of h fun _ _ _ => List.not_mem_nil

theorem Live.ready (h : Live native c) :
    ∃ parser results, c.session =
        { sid := c.handle, socket := some c.server, parser := some parser } ∧
      runAll (c.chunks.map (StreamParser.receive native)) (StreamParser.new c.handle) =
        some (results, parser) ∧
      StreamParser.Ready c.handle parser := by
  obtain ⟨parser, results, hsession, hrun⟩ := h
  have hkeeps : ∀ x ∈ c.chunks.map (StreamParser.receive native),
      Keeps (StreamParser.Ready c.handle) x := by
    intro x hx
    obtain ⟨chunk, _, rfl⟩ := List.mem_map.mp hx
    exact StreamParser.receive_keeps native c.handle chunk
  obtain ⟨results', parser', hrun', hready⟩ :=
    Keeps.runAll hkeeps (StreamParser.new c.handle) (StreamParser.new_ready c.handle)
  rw [hrun] at hrun'
  cases hrun'
  exact ⟨parser, results, hsession, hrun, hready⟩

theorem Staying.not_done (h : Staying c) : ¬c.Done := by
  intro hdone
  rcases h with hphase | hpending
  · rw [hdone.1] at hphase
    cases hphase
  · rw [hdone.2] at hpending
    cases hpending

/-- The effect at the head, and the shape of what remains. -/
theorem Shape.head (h : Shape native k c) {e : Effect} {rest : List Effect}
    (hpending : c.pending = e :: rest) :
    Shape native k { c with pending := rest } ∧
      (c.phase = .connected ∧ Own k c e ∨
        c.phase = .disconnected ∧
          (e = .push c.server (ClientMessage.ofType c.handle .disconnect) ∨
            e = .removeSession c.server c.handle ∧ rest = [])) := by
  cases h with
  | absent hphase hnil => rw [hnil] at hpending; cases hpending
  | accepted hphase hnil hchunks hsocket => rw [hnil] at hpending; cases hpending
  | connected hphase hlive hown =>
    rw [hpending] at hown
    refine ⟨.connected hphase hlive fun e' he' => ?_,
      .inl ⟨hphase, hown e List.mem_cons_self⟩⟩
    exact hown e' (List.mem_cons_of_mem e he')
  | disconnected hphase hlive hsuffix =>
    rw [hpending] at hsuffix
    have hrest : rest <:+ farewell c := (List.suffix_cons e rest).trans hsuffix
    refine ⟨.disconnected hphase hlive hrest, .inr ⟨hphase, ?_⟩⟩
    rcases List.suffix_cons_iff.mp hsuffix with hwhole | htail
    · exact .inl (List.cons.inj hwhole).1
    · rcases List.suffix_cons_iff.mp htail with hlast | hnil
      · exact .inr (List.cons.inj hlast)
      · cases List.suffix_nil.mp hnil

theorem parsed_eq {sid : Int64} {chunks : List (List UInt8)}
    {results : List (Except StdException (List ClientMessage))} {parser : StreamParser}
    (h : runAll (chunks.map (StreamParser.receive native)) (StreamParser.new sid) =
      some (results, parser)) :
    parsed native sid chunks = returnedMessages results := by
  rw [parsed, h]

/-! ## One callback -/

/-- `onConnected` on a session that has a socket. -/
theorem connected_continues (hshape : Shape native k c) (hphase : c.phase = .accepted)
    (t : Transport) (w : World) (nativeHandle : Int64) :
    ∃ c', w.start k { c with handle := nativeHandle, phase := .connected }
        (t.onConnected nativeHandle k) = w.setConnection k c' ∧
      c'.server = c.server ∧ c'.handle = nativeHandle ∧ c'.phase = .connected ∧
      Shape native k c' ∧ c'.stream native = pushes c'.pending ∧ c'.pending = greeting k c' := by
  cases hshape with
  | absent hphase' => rw [hphase] at hphase'; cases hphase'
  | connected hphase' => rw [hphase] at hphase'; cases hphase'
  | disconnected hphase' => rw [hphase] at hphase'; cases hphase'
  | accepted _ hpending hchunks hsocket =>
    refine ⟨_, World.start_ok (t.onConnected_ok hsocket nativeHandle k), rfl, rfl, rfl, ?_, ?_,
      rfl⟩
    · refine .connected rfl ⟨_, [], rfl, ?_⟩ fun e he => ?_
      · simp only [hchunks, List.map_nil, runAll]
      · rcases List.mem_cons.mp he with heq | hpush
        · rw [heq]; exact ⟨rfl, rfl, rfl⟩
        · rw [List.mem_singleton.mp hpush]; exact ⟨rfl, rfl⟩
    · simp only [stream, hchunks]
      rfl

theorem received_continues (hlive : Live native c) (hphase : c.phase = .connected)
    (t : Transport) (w : World) (buffer : List UInt8) :
    ∃ c', w.start k { c with chunks := c.chunks ++ [buffer] } (t.onReceived native buffer) =
        w.setConnection k c' ∧ Continues native k c c' := by
  obtain ⟨parser, results, hsession, hrun, hready⟩ := hlive.ready
  have hsocket : c.session.socket = some c.server := by rw [hsession]
  have hparser : c.session.parser = some parser := by rw [hsession]
  have hactive : c.phase ≠ .disconnected := by
    rw [hphase]
    decide
  rcases StreamParser.receive_keeps native c.handle buffer parser hready with hret | hthrown
  · obtain ⟨messages, parser', hreceive, _⟩ := hret
    have hconcat := runAll_concat_ok hrun hreceive
    rw [← List.map_singleton, ← List.map_append] at hconcat
    have hparsed : parsed native c.handle (c.chunks ++ [buffer]) =
        parsed native c.handle c.chunks ++ messages := by
      rw [parsed_eq hconcat, parsed_eq hrun, returnedMessages, List.flatMap_append,
        List.flatMap_singleton, returnedMessages]
    refine ⟨_, World.start_ok (c := { c with chunks := c.chunks ++ [buffer] })
      (t.onReceived_eq native buffer ▸ Session.onReceived_ok hsocket hparser hreceive), ?_⟩
    refine ⟨rfl, rfl, .connected hphase ⟨parser', results ++ [.ok messages], ?_, ?_⟩ ?_,
      .inl hphase, .inl hphase, ?_, not_registering_of rfl (by simp)⟩
    · rw [hsession]
    · exact hconcat
    · intro e he
      rw [List.nil_append] at he
      obtain ⟨message, hmem, rfl⟩ := List.mem_map.mp he
      exact ⟨rfl, hready.receive_sid hreceive message hmem⟩
    · simp only [stream, if_neg hactive, hparsed, List.append_nil, List.nil_append,
        pushes_map_push, List.cons_append]
  · obtain ⟨e, parser', hreceive, _⟩ := hthrown
    have hconcat := runAll_concat_thrown hrun hreceive
    rw [← List.map_singleton, ← List.map_append] at hconcat
    have hparsed : parsed native c.handle (c.chunks ++ [buffer]) =
        parsed native c.handle c.chunks := by
      rw [parsed_eq hconcat, parsed_eq hrun, returnedMessages, List.flatMap_append,
        List.flatMap_singleton, List.append_nil, returnedMessages]
    refine ⟨_, World.start_ok (c := { c with chunks := c.chunks ++ [buffer] })
      (t.onReceived_eq native buffer ▸ Session.onReceived_thrown hparser hreceive), ?_⟩
    refine ⟨rfl, rfl, .connected hphase ⟨parser', results ++ [.error e], ?_, ?_⟩ ?_,
      .inl hphase, .inl hphase, ?_, not_registering_of rfl (by simp)⟩
    · rw [hsession]
    · exact hconcat
    · intro e' he'
      rw [List.mem_singleton.mp he']
      trivial
    · simp only [stream, if_neg hactive, hparsed]
      exact (List.append_nil _).symm

theorem error_continues (hlive : Live native c) (hphase : c.phase = .connected) (t : Transport)
    (w : World) :
    ∃ c', w.start k c t.onError = w.setConnection k c' ∧ Continues native k c c' := by
  refine ⟨_, World.start_ok t.onError_ok, rfl, rfl, .connected hphase hlive ?_, .inl hphase,
    .inl hphase, ?_, not_registering_of rfl (by simp)⟩
  · intro e he
    rw [List.mem_singleton.mp he]
    trivial
  · exact (List.append_nil _).symm

theorem disconnected_continues (hlive : Live native c) (hphase : c.phase = .connected)
    (t : Transport) (w : World) :
    ∃ c', w.start k { c with phase := .disconnected } t.onDisconnected = w.setConnection k c' ∧
      Continues native k c c' := by
  obtain ⟨parser, results, hsession, hrun⟩ := hlive
  have hsocket : c.session.socket = some c.server := by rw [hsession]
  have hsid : c.session.sid = c.handle := by rw [hsession]
  have hactive : c.phase ≠ .disconnected := by
    rw [hphase]
    decide
  refine ⟨_, World.start_ok (c := { c with phase := .disconnected }) (t.onDisconnected_ok hsocket),
    rfl, rfl, .disconnected rfl ⟨parser, results, hsession, hrun⟩ ?_, .inr rfl, .inr ?_, ?_,
    not_registering_of rfl (by simp)⟩
  · rw [hsid]
    exact List.suffix_rfl
  · rw [hsid]
    exact List.mem_cons_of_mem _ (List.mem_singleton_self _)
  · simp only [stream, if_neg hactive, if_pos, hsid, List.append_nil]
    rfl

end Connection

/-! ## One step -/

namespace World

/-- Every connection looks as it should in its phase. -/
def InShape (native : Endian) (w : World) : Prop :=
  ∀ k, Connection.Shape native k (w.connections k)

/-- A connection that has just been accepted for `socket`. -/
def arrival (socket : SocketId) : Connection :=
  { Connection.absent with
    server := socket, session := Session.ofSocket (some socket), phase := .accepted }

/-- The connection one of whose callbacks an event starts, `onConnected` apart. -/
def calls : Event → Option ConnectionId
  | .received k _ | .error k | .disconnected k => some k
  | _ => none

/-- The calls of the consumer that change nothing, or bring the server down. -/
inductive Still (w : World) : Event → Option Crash → Prop where
  | nothingQueued (socket : SocketId) (hqueue : (w.sockets socket).recvBuffer = []) :
      Still w (.recv socket) w.crash
  | nobodyFound (socket : SocketId) (message : ClientMessage) (inReplyTo : Option Received)
      (hfound : (w.sockets socket).sessions.lookup message.sid = none)
      (hmay : w.MayReply socket message inReplyTo) :
      Still w (.send socket message inReplyTo) w.crash
  | bodyMissing (socket : SocketId) (message : ClientMessage) (inReplyTo : Option Received)
      (session : ConnectionId)
      (hfound : (w.sockets socket).sessions.lookup message.sid = some session)
      (hbody : message.body = none) (hmay : w.MayReply socket message inReplyTo) :
      Still w (.send socket message inReplyTo) (some (.send .nullPointer))

/-- What an event does in the wired server, under exclusive handles. -/
inductive Move (native : Endian) (w : World) : Event → World → Prop where
  | accept (k : ConnectionId) (socket : SocketId)
      (hphase : (w.connections k).phase = .absent) :
      Move native w (.accept k socket) (w.setConnection k (arrival socket))
  | connect (k : ConnectionId) (c' : Connection)
      (hphase : (w.connections k).phase = .accepted)
      (hserver : c'.server = (w.connections k).server)
      (hphase' : c'.phase = .connected)
      (hshape : Connection.Shape native k c')
      (hstream : c'.stream native = pushes c'.pending)
      (hexclusive : ∀ j ∈ w.opened, (w.connections j).handle = c'.handle →
        (w.connections j).Done)
      (hgreeting : c'.pending = Connection.greeting k c') :
      Move native w (.connected k c'.handle)
        ({ w with opened := w.opened ++ [k] }.setConnection k c')
  | callback {event : Event} (k : ConnectionId) (c' : Connection) (hready : w.Ready k)
      (hcontinues : Connection.Continues native k (w.connections k) c')
      (hcalls : calls event = some k) :
      Move native w event (w.setConnection k c')
  | effect (k : ConnectionId) (e : Effect) (rest : List Effect)
      (hpending : (w.connections k).pending = e :: rest) :
      Move native w (.effect k) { w.setConnection k { w.connections k with pending := rest } with
        sockets := carryOut .tcp k w.sockets e }
  | recv (socket : SocketId) (received : Received) (rest : List Received)
      (hqueue : (w.sockets socket).recvBuffer = received :: rest) :
      Move native w (.recv socket) { w with
        sockets := Function.update w.sockets socket { w.sockets socket with recvBuffer := rest }
        dequeued := Function.update w.dequeued socket (w.dequeued socket ++ [received]) }
  | send (socket : SocketId) (message : ClientMessage) (inReplyTo : Option Received)
      (session : ConnectionId) (body : MessageT)
      (hmay : w.MayReply socket message inReplyTo)
      (hfound : (w.sockets socket).sessions.lookup message.sid = some session)
      (hbody : message.body = some body) :
      Move native w (.send socket message inReplyTo) { w with delivered := w.delivered ++
        [{ inReplyTo := inReplyTo, session := session, body := body }] }
  | still {event : Event} (crash : Option Crash) (hstill : Still w event crash) :
      Move native w event { w with crash := crash }

/-- What a step does to connection `k`. -/
inductive Change (native : Endian) (k : ConnectionId) (c : Connection) : Connection → Prop where
  | same : Change native k c c
  | accept (socket : SocketId) (hphase : c.phase = .absent) :
      Change native k c (arrival socket)
  | connect (c' : Connection) (hphase : c.phase = .accepted)
      (hshape : Connection.Shape native k c') : Change native k c c'
  | callback (c' : Connection) (hpending : c.pending = [])
      (hphase : c.phase = .connected) (hcontinues : Connection.Continues native k c c') :
      Change native k c c'
  | effect (e : Effect) (rest : List Effect) (hpending : c.pending = e :: rest) :
      Change native k c { c with pending := rest }

/-- A move changes one connection at most. -/
theorem Move.change {native : Endian} {w w' : World} {event : Event}
    (hmove : Move native w event w') (j : ConnectionId) :
    Change native j (w.connections j) (w'.connections j) := by
  cases hmove with
  | accept k socket hphase =>
    by_cases heq : j = k
    · rw [heq, setConnection_self]
      exact .accept socket hphase
    · rw [setConnection_ne w heq]
      exact .same
  | connect k c' hphase hserver hphase' hshape =>
    by_cases heq : j = k
    · rw [heq, setConnection_self]
      exact .connect c' hphase hshape
    · rw [setConnection_ne _ heq]
      exact .same
  | callback k c' hready hcontinues hcalls =>
    by_cases heq : j = k
    · rw [heq, setConnection_self]
      exact .callback c' hready.2 hready.1 hcontinues
    · rw [setConnection_ne w heq]
      exact .same
  | effect k e rest hpending =>
    show Change native j (w.connections j) ((w.setConnection k _).connections j)
    by_cases heq : j = k
    · rw [heq, setConnection_self]
      exact .effect e rest hpending
    · rw [setConnection_ne w heq]
      exact .same
  | recv socket received rest hqueue => exact .same
  | send socket message inReplyTo session body hmay hfound => exact .same
  | still crash hstill => exact .same

theorem carryOut_eq (t : Transport) : carryOut t = carryOut .tcp := by
  funext k sockets e
  cases e with
  | addSession socket sid session => simp only [carryOut, Transport.addSession_eq]
  | removeSession socket sid => simp only [carryOut, Transport.removeSession_eq]
  | push socket message => rfl
  | disconnect => rfl

theorem live_of_ready {native : Endian} {w : World} (h : InShape native w) {k : ConnectionId}
    (hready : w.Ready k) : Connection.Live native (w.connections k) := by
  have hphase := hready.1
  cases h k with
  | absent hphase' => rw [hphase] at hphase'; cases hphase'
  | accepted hphase' => rw [hphase] at hphase'; cases hphase'
  | connected _ hlive => exact hlive
  | disconnected _ hlive => exact hlive

theorem step_move {t : Transport} {native : Endian} {w w' : World} {e : Event}
    (hshape : InShape native w) (hstep : (exclusiveMachine t native).step w e = some w') :
    Move native w e w' := by
  obtain ⟨hexclusive, hstep⟩ := Machine.step_of_restrict hstep
  change World.step t native t.sessionOfSocket w e = some w' at hstep
  rw [World.step] at hstep
  split at hstep
  · cases e with
    | accept k socket =>
      simp only [perform] at hstep
      split at hstep
      · next hphase =>
        cases hstep
        rw [t.sessionOfSocket_eq]
        exact .accept k socket hphase
      · cases hstep
    | connected k nativeHandle =>
      simp only [perform] at hstep
      split at hstep
      · next hphase =>
        cases hstep
        obtain ⟨c', hstart, hserver, rfl, hphase', hshape', hstream, hgreeting⟩ :=
          Connection.connected_continues (hshape k) hphase t
            { w with opened := w.opened ++ [k] } nativeHandle
        rw [hstart]
        refine .connect k c' hphase hserver hphase' hshape' hstream (fun j hj heq => ?_) hgreeting
        exact of_decide_eq_true (List.all_eq_true.mp hexclusive j hj) heq
      · cases hstep
    | received k buffer =>
      simp only [perform] at hstep
      split at hstep
      · next hready =>
        cases hstep
        obtain ⟨c', hstart, hcontinues⟩ := Connection.received_continues
          (live_of_ready hshape hready) hready.1 t w buffer
        rw [hstart]
        exact .callback k c' hready hcontinues rfl
      · cases hstep
    | error k =>
      simp only [perform] at hstep
      split at hstep
      · next hready =>
        cases hstep
        obtain ⟨c', hstart, hcontinues⟩ := Connection.error_continues
          (live_of_ready hshape hready) hready.1 t w
        rw [hstart]
        exact .callback k c' hready hcontinues rfl
      · cases hstep
    | disconnected k =>
      simp only [perform] at hstep
      split at hstep
      · next hready =>
        cases hstep
        obtain ⟨c', hstart, hcontinues⟩ := Connection.disconnected_continues
          (live_of_ready hshape hready) hready.1 t w
        rw [hstart]
        exact .callback k c' hready hcontinues rfl
      · cases hstep
    | effect k =>
      simp only [perform] at hstep
      split at hstep
      · cases hstep
      · next e rest hpending =>
        cases hstep
        rw [carryOut_eq]
        exact .effect k e rest hpending
    | recv socket =>
      simp only [perform, t.recv_eq, StreamSocket.recv] at hstep
      cases hqueue : (w.sockets socket).recvBuffer with
      | nil =>
        rw [hqueue] at hstep
        cases hstep
        exact .still w.crash (.nothingQueued socket hqueue)
      | cons received rest =>
        rw [hqueue] at hstep
        cases hstep
        exact .recv socket received rest hqueue
    | send socket message inReplyTo =>
      simp only [perform, t.send_eq, StreamSocket.send] at hstep
      split at hstep
      · next hmay =>
        cases hfound : (w.sockets socket).sessions.lookup message.sid with
        | none =>
          rw [hfound] at hstep
          cases hstep
          simp only [Option.map_none, Option.toList_none, List.append_nil]
          exact .still w.crash (.nobodyFound socket message inReplyTo hfound hmay)
        | some session =>
          rw [hfound] at hstep
          cases hbody : message.body with
          | none =>
            simp only [ClientMessage.takeBody, hbody] at hstep
            cases hstep
            exact .still _ (.bodyMissing socket message inReplyTo session hfound hbody hmay)
          | some body =>
            simp only [ClientMessage.takeBody, hbody] at hstep
            cases hstep
            exact .send socket message inReplyTo session body hmay hfound hbody
      · cases hstep
  · cases hstep

end World

end PlaySocket
