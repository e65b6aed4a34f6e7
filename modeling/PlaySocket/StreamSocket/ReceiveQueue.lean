import PlaySocket.StreamParser.WireFormat
import PlaySocket.StreamSocket.Orderly

/-!
# The receive queue

For a socket and an sid, what the consumer has dequeued, what is queued and what
the last holder of the handle has yet to push make up, in this order, the streams
of the connections that held the handle, one after another.

Callbacks add to the stream of the last holder and to its pending pushes, an
effect moves a message from the pending pushes to the queue, and `recv` moves one
from the queue to the consumer.  Earlier holders are done and push nothing any
more, which is why the streams do not mix.
-/

/-- In a list in which everything before an element has a property, an element
without the property is the last. -/
theorem List.Pairwise.eq_concat {α : Type} {P : α → Prop} {l : List α} {k : α}
    (h : l.Pairwise fun j _ => P j) (hk : k ∈ l) (hn : ¬P k) :
    ∃ front, l = front ++ [k] ∧ ∀ j ∈ front, P j := by
  obtain ⟨front, back, rfl⟩ := List.append_of_mem hk
  obtain ⟨_, hback, hacross⟩ := List.pairwise_append.mp h
  cases back with
  | nil => exact ⟨front, rfl, fun j hj => hacross j hj k List.mem_cons_self⟩
  | cons b bs => exact absurd ((List.pairwise_cons.mp hback).1 b List.mem_cons_self) hn

namespace PlaySocket
namespace World

open Connection StreamParser

variable {native : Endian} {w w' : World} {event : Event} {socket : SocketId} {sid : Int64}

/-- The connections of `socket` that held the handle `sid`, in order. -/
def holders (w : World) (socket : SocketId) (sid : Int64) : List ConnectionId :=
  w.opened.filter fun k =>
    decide ((w.connections k).server = socket ∧ (w.connections k).handle = sid)

/-- The streams of the holders, one after another. -/
def streams (native : Endian) (w : World) (socket : SocketId) (sid : Int64) :
    List ClientMessage :=
  (w.holders socket sid).flatMap fun k => (w.connections k).stream native

/-- What the holders have yet to push. -/
def waiting (w : World) (socket : SocketId) (sid : Int64) : List ClientMessage :=
  (w.holders socket sid).flatMap fun k => pushes (w.connections k).pending

/-- The messages with one sid among some entries. -/
def ofSid (sid : Int64) (entries : List Received) : List ClientMessage :=
  (entries.filter fun r => decide (r.message.sid = sid)).map Received.message

theorem ofSid_append (sid : Int64) (xs ys : List Received) :
    ofSid sid (xs ++ ys) = ofSid sid xs ++ ofSid sid ys := by
  rw [ofSid, List.filter_append, List.map_append, ofSid, ofSid]

theorem ofSid_singleton (r : Received) : ofSid r.message.sid [r] = [r.message] := by
  rw [ofSid, List.filter_singleton, decide_eq_true rfl]
  rfl

theorem ofSid_singleton_ne {r : Received} (h : r.message.sid ≠ sid) : ofSid sid [r] = [] := by
  rw [ofSid, List.filter_singleton, decide_eq_false h]
  rfl

theorem mem_holders {k : ConnectionId} :
    k ∈ w.holders socket sid ↔
      k ∈ w.opened ∧ (w.connections k).server = socket ∧ (w.connections k).handle = sid := by
  rw [holders, List.mem_filter, decide_eq_true_iff]

theorem Orderly.holders_pairwise (h : Orderly native w) (socket : SocketId) (sid : Int64) :
    (w.holders socket sid).Pairwise fun j _ => (w.connections j).Done := by
  refine (h.exclusive.filter _).imp_of_mem fun hi hj hdone => ?_
  exact hdone ((mem_holders.mp hi).2.2.trans (mem_holders.mp hj).2.2.symm)

/-- A holder that is not done is the last one. -/
theorem Orderly.last_holder (h : Orderly native w) {k : ConnectionId}
    (hk : k ∈ w.holders socket sid) (hn : ¬(w.connections k).Done) :
    ∃ front, w.holders socket sid = front ++ [k] ∧ ∀ j ∈ front, (w.connections j).Done :=
  (h.holders_pairwise socket sid).eq_concat hk hn

theorem holders_eq (hopened : w'.opened = w.opened)
    (hframe : ∀ j ∈ w.opened, (w'.connections j).server = (w.connections j).server ∧
      (w'.connections j).handle = (w.connections j).handle) :
    w'.holders socket sid = w.holders socket sid := by
  rw [holders, holders, hopened]
  refine List.filter_congr fun j hj => ?_
  rw [(hframe j hj).1, (hframe j hj).2]

/-! ## The law -/

def Accounts (native : Endian) (w : World) : Prop :=
  ∀ socket sid, streams native w socket sid =
    ofSid sid (w.dequeued socket) ++
      (ofSid sid (w.sockets socket).recvBuffer ++ waiting w socket sid)

theorem init_accounts (native : Endian) : Accounts native init := fun _ _ => rfl

/-- The streams as they were, where only `k` has changed and is no holder. -/
theorem streams_eq (native : Endian) {k : ConnectionId}
    (hholders : w'.holders socket sid = w.holders socket sid)
    (hother : ∀ j, j ≠ k → w'.connections j = w.connections j)
    (hk : k ∉ w.holders socket sid) :
    streams native w' socket sid = streams native w socket sid ∧
      waiting w' socket sid = waiting w socket sid := by
  have hsame : ∀ j ∈ w.holders socket sid, w'.connections j = w.connections j :=
    fun j hj => hother j fun heq => hk (heq ▸ hj)
  rw [streams, streams, waiting, waiting, hholders]
  exact ⟨List.flatMap_congr fun j hj => by rw [hsame j hj],
    List.flatMap_congr fun j hj => by rw [hsame j hj]⟩

/-- The streams when `k` is the last holder and the others are done. -/
theorem streams_last (native : Endian) {front : List ConnectionId} {k : ConnectionId}
    (hfront : w.holders socket sid = front ++ [k])
    (hdone : ∀ j ∈ front, (w.connections j).Done) :
    streams native w socket sid =
        (front.flatMap fun j => (w.connections j).stream native) ++
          (w.connections k).stream native ∧
      waiting w socket sid = pushes (w.connections k).pending := by
  have hnone : (front.flatMap fun j => pushes (w.connections j).pending) = [] :=
    List.flatMap_eq_nil_iff.mpr fun j hj => by rw [(hdone j hj).2]; rfl
  rw [streams, waiting, hfront, List.flatMap_append, List.flatMap_append, List.flatMap_singleton,
    List.flatMap_singleton, hnone, List.nil_append]
  exact ⟨rfl, rfl⟩

/-- When the last holder `k` alone changes, the streams change at their end. -/
theorem Orderly.streams_grow (h : Orderly native w) {k : ConnectionId}
    (hholders : w'.holders socket sid = w.holders socket sid)
    (hother : ∀ j, j ≠ k → w'.connections j = w.connections j)
    (hk : k ∈ w.holders socket sid) (hn : ¬(w.connections k).Done) {more : List ClientMessage}
    (hstream : (w'.connections k).stream native = (w.connections k).stream native ++ more) :
    streams native w' socket sid = streams native w socket sid ++ more ∧
      waiting w socket sid = pushes (w.connections k).pending ∧
      waiting w' socket sid = pushes (w'.connections k).pending := by
  obtain ⟨front, hfront, hdone⟩ := h.last_holder hk hn
  have hsame : ∀ j ∈ front, w'.connections j = w.connections j :=
    fun j hj => hother j fun heq => hn (heq ▸ hdone j hj)
  obtain ⟨hold, hwaiting⟩ := streams_last native hfront hdone
  obtain ⟨hnew, hwaiting'⟩ := streams_last native (hholders.trans hfront)
    fun j hj => by rw [hsame j hj]; exact hdone j hj
  have hflat : (front.flatMap fun j => (w'.connections j).stream native) =
      front.flatMap fun j => (w.connections j).stream native :=
    List.flatMap_congr fun j hj => by rw [hsame j hj]
  rw [hnew, hold, hflat, hstream, List.append_assoc]
  exact ⟨rfl, hwaiting, hwaiting'⟩

/-- A new holder comes last and brings its own pushes. -/
theorem streams_connect (native : Endian) {k : ConnectionId} {c' : Connection}
    (hopened : w'.opened = w.opened ++ [k])
    (hother : ∀ j ∈ w.opened, w'.connections j = w.connections j)
    (hself : w'.connections k = c') (hstream : c'.stream native = pushes c'.pending) :
    ∃ greeting, streams native w' socket sid = streams native w socket sid ++ greeting ∧
      waiting w' socket sid = waiting w socket sid ++ greeting := by
  have hold : (w.opened.filter fun j => decide ((w'.connections j).server = socket ∧
      (w'.connections j).handle = sid)) = w.holders socket sid :=
    List.filter_congr fun j hj => by rw [hother j hj]
  have hsame : ∀ j ∈ w.holders socket sid, w'.connections j = w.connections j :=
    fun j hj => hother j (mem_holders.mp hj).1
  have hstreams : ((w.holders socket sid).flatMap fun j => (w'.connections j).stream native) =
      streams native w socket sid :=
    List.flatMap_congr fun j hj => by rw [hsame j hj]
  have hwaiting : ((w.holders socket sid).flatMap fun j => pushes (w'.connections j).pending) =
      waiting w socket sid :=
    List.flatMap_congr fun j hj => by rw [hsame j hj]
  have hholders : w'.holders socket sid = w.holders socket sid ++
      [k].filter fun j => decide ((w'.connections j).server = socket ∧
        (w'.connections j).handle = sid) := by
    rw [holders, hopened, List.filter_append, hold]
  refine ⟨([k].filter fun j => decide ((w'.connections j).server = socket ∧
    (w'.connections j).handle = sid)).flatMap fun j => (w'.connections j).stream native, ?_, ?_⟩
  · rw [streams, hholders, List.flatMap_append, hstreams]
  · rw [waiting, hholders, List.flatMap_append, hwaiting]
    refine congrArg _ (List.flatMap_congr fun j hj => ?_)
    rw [List.mem_singleton.mp (List.mem_filter.mp hj).1, hself, hstream]

/-- What an effect of connection `k` puts in the queue of `socket`. -/
def queuedBy (k : ConnectionId) (socket : SocketId) : Effect → List Received
  | .push target message => if target = socket then [{ message := message, origin := k }] else []
  | .addSession _ _ _ => []
  | .removeSession _ _ => []
  | .disconnect => []

theorem carryOut_recvBuffer (k : ConnectionId) (sockets : SocketId → StreamSocket) (e : Effect)
    (socket : SocketId) :
    (carryOut .tcp k sockets e socket).recvBuffer =
      (sockets socket).recvBuffer ++ queuedBy k socket e := by
  cases e with
  | addSession target sid session =>
    rw [carryOut, queuedBy, List.append_nil, Transport.addSession]
    by_cases heq : socket = target
    · rw [heq, Function.update_self, StreamSocket.addSession]
      split <;> rfl
    · rw [Function.update_of_ne heq]
  | removeSession target sid =>
    rw [carryOut, queuedBy, List.append_nil, Transport.removeSession]
    by_cases heq : socket = target
    · rw [heq, Function.update_self]; rfl
    · rw [Function.update_of_ne heq]
  | push target message =>
    rw [carryOut, queuedBy]
    by_cases heq : socket = target
    · rw [heq, Function.update_self, if_pos rfl]; rfl
    · rw [Function.update_of_ne heq, if_neg fun h => heq h.symm, List.append_nil]
  | disconnect => rw [carryOut, queuedBy, List.append_nil]

theorem update_recvBuffer_sessions (sockets : SocketId → StreamSocket) (place socket : SocketId)
    (rest : List Received) :
    (Function.update sockets place { sockets place with recvBuffer := rest } socket).sessions =
      (sockets socket).sessions := by
  by_cases heq : socket = place
  · rw [heq, Function.update_self]
  · rw [Function.update_of_ne heq]

/-- A message that is dequeued stays among those that were pushed. -/
theorem dequeue_pushed {place : SocketId} {received : Received} {rest : List Received}
    (hqueue : (w.sockets place).recvBuffer = received :: rest) (socket : SocketId) :
    Function.update w.dequeued place (w.dequeued place ++ [received]) socket ++
        (Function.update w.sockets place
          { w.sockets place with recvBuffer := rest } socket).recvBuffer =
      w.dequeued socket ++ (w.sockets socket).recvBuffer := by
  by_cases heq : socket = place
  · rw [heq, Function.update_self, Function.update_self, hqueue, List.append_assoc,
      List.singleton_append]
  · rw [Function.update_of_ne heq, Function.update_of_ne heq]

/-- An effect at the head belongs to its connection. -/
theorem Orderly.push_own (h : Orderly native w) {k : ConnectionId} {target : SocketId}
    {message : ClientMessage} {rest : List Effect}
    (hpending : (w.connections k).pending = .push target message :: rest) :
    target = (w.connections k).server ∧ message.sid = (w.connections k).handle := by
  rcases ((h.shape k).head hpending).2 with hc | hd
  · exact hc.2
  · rcases hd.2 with hpush | hremove
    · cases hpush
      exact ⟨rfl, rfl⟩
    · cases hremove.1

/-- The queue of `socket` gets what the effect pushes if the connection holds the
handle, and nothing under this sid otherwise. -/
theorem Orderly.ofSid_queuedBy (h : Orderly native w) {k : ConnectionId} {e : Effect}
    {rest : List Effect} (hpending : (w.connections k).pending = e :: rest) (socket : SocketId)
    (sid : Int64) :
    ofSid sid (queuedBy k socket e) =
      if k ∈ w.holders socket sid then pushes [e] else [] := by
  have hk := h.mem_of_pending hpending
  cases e with
  | push target message =>
    obtain ⟨htarget, hsid⟩ := h.push_own hpending
    by_cases hholder : k ∈ w.holders socket sid
    · obtain ⟨_, hserver, hhandle⟩ := mem_holders.mp hholder
      rw [if_pos hholder, queuedBy, if_pos (htarget.trans hserver), ← hhandle, ← hsid]
      exact ofSid_singleton _
    · rw [if_neg hholder, queuedBy]
      by_cases hsocket : target = socket
      · rw [if_pos hsocket]
        refine ofSid_singleton_ne fun heq => hholder ?_
        exact mem_holders.mpr ⟨hk, htarget.symm.trans hsocket, hsid.symm.trans heq⟩
      · rw [if_neg hsocket]; rfl
  | addSession target sid' session => exact (ite_self _).symm
  | removeSession target sid' => exact (ite_self _).symm
  | disconnect => exact (ite_self _).symm

theorem pushes_cons (e : Effect) (rest : List Effect) :
    pushes (e :: rest) = pushes [e] ++ pushes rest := by
  rw [← List.singleton_append, pushes, List.filterMap_append, pushes, pushes]

theorem Move.accounts (hmove : Move native w event w') (h : Orderly native w)
    (haccounts : Accounts native w) : Accounts native w' := by
  have hframe := fun j (hj : j ∈ w.opened) =>
    And.intro (hmove.frame h hj).1 (hmove.frame h hj).2.1
  intro socket sid
  have hlaw := haccounts socket sid
  cases hmove with
  | accept k place hphase =>
    have hk : k ∉ w.holders socket sid := fun hk =>
      h.not_mem_of_phase hphase (by decide) (mem_holders.mp hk).1
    have hholders : (w.setConnection k (arrival place)).holders socket sid =
        w.holders socket sid := holders_eq rfl hframe
    have hother : ∀ j, j ≠ k → (w.setConnection k (arrival place)).connections j =
        w.connections j := fun j hj => setConnection_ne w hj _
    obtain ⟨hstreams, hwaiting⟩ := streams_eq native hholders hother hk
    rw [hstreams, hwaiting]
    exact hlaw
  | connect k c' hphase hserver hphase' hshape' hstream hexclusive =>
    have hk := h.not_mem_of_phase hphase (by decide)
    have hother : ∀ j ∈ w.opened, ({ w with opened := w.opened ++ [k] }.setConnection k
        c').connections j = w.connections j :=
      fun j hj => setConnection_ne _ (fun heq : j = k => hk (heq ▸ hj)) c'
    obtain ⟨greeting, hstreams, hwaiting⟩ :=
      streams_connect native rfl hother (setConnection_self _ k c') hstream
    rw [hstreams, hwaiting, hlaw, List.append_assoc, List.append_assoc]
    rfl
  | callback k c' hready hcontinues =>
    have hholders : (w.setConnection k c').holders socket sid = w.holders socket sid :=
      holders_eq rfl hframe
    have hother : ∀ j, j ≠ k → (w.setConnection k c').connections j = w.connections j :=
      fun j hj => setConnection_ne w hj c'
    by_cases hk : k ∈ w.holders socket sid
    · have hstream := hcontinues.stream
      rw [← setConnection_self w k c'] at hstream
      obtain ⟨hstreams, hold, hnew⟩ :=
        h.streams_grow hholders hother hk (not_done_of_ready hready) hstream
      rw [hready.2] at hold
      rw [hold] at hlaw
      rw [hstreams, hlaw, hnew]
      simp only [pushes, List.filterMap_nil, List.append_nil, List.append_assoc]
      rfl
    · obtain ⟨hstreams, hwaiting⟩ := streams_eq native hholders hother hk
      rw [hstreams, hwaiting]
      exact hlaw
  | effect k e rest hpending =>
    have hholders : ({ w.setConnection k { w.connections k with pending := rest } with
        sockets := carryOut .tcp k w.sockets e } : World).holders socket sid =
        w.holders socket sid := holders_eq rfl hframe
    have hother : ∀ j, j ≠ k → ({ w.setConnection k { w.connections k with pending := rest } with
        sockets := carryOut .tcp k w.sockets e } : World).connections j = w.connections j :=
      fun j hj => setConnection_ne w hj _
    have hself : ({ w.setConnection k { w.connections k with pending := rest } with
        sockets := carryOut .tcp k w.sockets e } : World).connections k =
        { w.connections k with pending := rest } := setConnection_self w k _
    have hqueued := h.ofSid_queuedBy hpending socket sid
    show _ = ofSid sid (w.dequeued socket) ++
      (ofSid sid (carryOut .tcp k w.sockets e socket).recvBuffer ++ _)
    rw [carryOut_recvBuffer, ofSid_append, hqueued]
    by_cases hk : k ∈ w.holders socket sid
    · have hstream : (({ w.setConnection k { w.connections k with pending := rest } with
          sockets := carryOut .tcp k w.sockets e } : World).connections k).stream native =
          (w.connections k).stream native ++ [] := by
        rw [hself, List.append_nil]; rfl
      obtain ⟨hstreams, hold, hnew⟩ :=
        h.streams_grow hholders hother hk (not_done_of_pending hpending) hstream
      rw [hpending, pushes_cons] at hold
      rw [hstreams, hnew, hself, if_pos hk, List.append_nil, hlaw, hold, List.append_assoc]
    · obtain ⟨hstreams, hwaiting⟩ := streams_eq native hholders hother hk
      rw [hstreams, hwaiting, if_neg hk, List.append_nil]
      exact hlaw
  | recv place received rest hqueue =>
    show streams native w socket sid =
      ofSid sid (Function.update w.dequeued place (w.dequeued place ++ [received]) socket) ++
        (ofSid sid (Function.update w.sockets place
          { w.sockets place with recvBuffer := rest } socket).recvBuffer ++ waiting w socket sid)
    rw [hlaw, ← List.append_assoc, ← List.append_assoc, ← ofSid_append, ← ofSid_append,
      dequeue_pushed hqueue]
  | send place message inReplyTo session body hmay hfound => exact hlaw
  | still crash hstill => exact hlaw

theorem run_accounts {t : Transport} {events : List Event}
    (hrun : (exclusiveMachine t native).run events = some w) : Accounts native w := by
  have hboth : Orderly native w ∧ Accounts native w := by
    refine Machine.invariant (P := fun w => Orderly native w ∧ Accounts native w)
      ⟨init_orderly native, init_accounts native⟩ ?_ hrun
    intro w e w' h hstep
    have hmove := step_move h.1.shape hstep
    exact ⟨hmove.orderly h.1, hmove.accounts h.1 h.2⟩
  exact hboth.2

/-- In every run no callback fails, and for every socket and sid the consumer has
dequeued a prefix of the streams of the holders.  The rest of them is in the
queue or still to be pushed, and every holder but the last is done. -/
theorem receive_queue_protocol (t : Transport) (native : Endian) (events : List Event) (w : World)
    (hrun : (exclusiveMachine t native).run events = some w) :
    (∀ fault, w.crash ≠ some (.callback fault)) ∧
      ∀ socket sid,
        ofSid sid (w.dequeued socket) <+: streams native w socket sid ∧
        streams native w socket sid = ofSid sid (w.dequeued socket) ++
          (ofSid sid (w.sockets socket).recvBuffer ++ waiting w socket sid) ∧
        ∀ k ∈ (w.holders socket sid).dropLast, (w.connections k).Done := by
  have horderly := run_orderly hrun
  refine ⟨horderly.crash_ne, fun socket sid => ?_⟩
  have hlaw := run_accounts hrun socket sid
  refine ⟨⟨_, hlaw.symm⟩, hlaw, fun k hk => ?_⟩
  have hpairwise := horderly.holders_pairwise socket sid
  have hne : w.holders socket sid ≠ [] := by
    intro hnil
    rw [hnil] at hk
    cases hk
  rw [← List.dropLast_append_getLast hne] at hpairwise
  exact (List.pairwise_append.mp hpairwise).2.2 k hk _ (List.mem_singleton_self _)

/-! ## A client that sends a message -/

/-- A chunk that the parser takes. -/
theorem step_received {t : Transport} {k : ConnectionId} {buffer : List UInt8}
    {messages : List ClientMessage} {socket : SocketId} {parser parser' : StreamParser}
    (hcrash : w.crash = none) (hready : w.Ready k)
    (hsocket : (w.connections k).session.socket = some socket)
    (hparser : (w.connections k).session.parser = some parser)
    (hrun : (StreamParser.receive native buffer).run parser = .ok messages parser') :
    (exclusiveMachine t native).step w (.received k buffer) = some (w.setConnection k
      { w.connections k with
        session := { (w.connections k).session with parser := some parser' }
        pending := messages.map (Effect.push socket)
        chunks := (w.connections k).chunks ++ [buffer] }) := by
  show World.step t native t.sessionOfSocket w (.received k buffer) = _
  have hcallback : (t.onReceived native buffer).run
      { session := (w.connections k).session, effects := [] } =
      .ok () { session := { (w.connections k).session with parser := some parser' },
               effects := messages.map (Effect.push socket) } := by
    rw [t.onReceived_eq]
    exact Session.onReceived_ok hsocket hparser hrun
  simp only [World.step, hcrash, perform, if_pos hready]
  rw [start_ok (c := { w.connections k with
    chunks := (w.connections k).chunks ++ [buffer] }) hcallback]

/-- A client is greeted. -/
def beforeRequest : List Event := [.accept 0 0, .connected 0 5, .effect 0, .effect 0]

/-- The world in which a request comes in. -/
def greeted (t : Transport) : World :=
  ((exclusiveMachine t .little).run beforeRequest).getD init

theorem beforeRequest_run (t : Transport) :
    (exclusiveMachine t .little).run beforeRequest = some (greeted t) ∧
      (greeted t).crash = none ∧ (greeted t).Ready 0 ∧
      ((greeted t).connections 0).session =
        { sid := 5, socket := some 0, parser := some (new 5) } := by
  cases t with
  | tcp => exact ⟨rfl, rfl, ⟨rfl, rfl⟩, rfl⟩
  | ws => exact ⟨rfl, rfl, ⟨rfl, rfl⟩, rfl⟩

theorem receive_request :
    ∃ parser, (receive .little palindrome.bytes).run (new 5) =
      .ok [palindrome.received 5] parser := by
  have hlength : palindrome.bytes.length = 11 := by decide
  obtain ⟨parser, c, hrun, _⟩ := receive_ok .little 5 palindrome.bytes
    (by rw [hlength]; decide) (ne_capacity (by rw [hlength]; decide))
  have hdecode : decodeStream .little 5 ([palindrome].flatMap WireMessage.bytes) =
      ([palindrome].map (WireMessage.received 5), []) := by
    refine (decodeStream_wire_iff .little 5 [palindrome]).mpr fun message hmem => ?_
    rw [List.mem_singleton.mp hmem]
    exact ⟨by decide, by decide, by decide, by decide⟩
  rw [List.flatMap_singleton] at hdecode
  rw [hdecode] at hrun
  exact ⟨parser, hrun⟩

/-- The world in which the request has come in. -/
def requested (t : Transport) (parser : StreamParser) : World :=
  (greeted t).setConnection 0
    { (greeted t).connections 0 with
      session := { ((greeted t).connections 0).session with parser := some parser }
      pending := [palindrome.received 5].map (Effect.push 0)
      chunks := ((greeted t).connections 0).chunks ++ [palindrome.bytes] }

theorem request_run (t : Transport) :
    ∃ parser, ∀ rest,
      (exclusiveMachine t .little).run
          (beforeRequest ++ .received 0 palindrome.bytes :: rest) =
        (exclusiveMachine t .little).runFrom (requested t parser) rest := by
  obtain ⟨parser, hrequest⟩ := receive_request
  obtain ⟨hbefore, hcrash, hready, hsession⟩ := beforeRequest_run t
  have hsocket : ((greeted t).connections 0).session.socket = some 0 := by rw [hsession]
  have hparser : ((greeted t).connections 0).session.parser = some (new 5) := by rw [hsession]
  have hreceived := step_received (t := t) hcrash hready hsocket hparser hrequest
  refine ⟨parser, fun rest => ?_⟩
  rw [Machine.run] at hbefore
  rw [Machine.run, Machine.runFrom_append, hbefore, Option.bind_some, Machine.runFrom,
    hreceived, Option.bind_some]
  rfl

/-- The client sends a message and leaves, and another one gets its handle. -/
def sameHandleTwice : List Event :=
  beforeRequest ++ .received 0 palindrome.bytes :: [.effect 0, .recv 0, .recv 0, .error 0,
    .effect 0, .disconnected 0, .effect 0, .effect 0, .accept 1 0, .connected 1 5, .effect 1,
    .recv 0, .effect 1]

theorem sameHandleTwice_run :
    ∃ w, (exclusiveMachine .tcp .little).run sameHandleTwice = some w ∧
      ofSid 5 (w.dequeued 0) = [ClientMessage.ofType 5 .connect, palindrome.received 5,
        ClientMessage.ofType 5 .disconnect] := by
  obtain ⟨parser, hrun⟩ := request_run .tcp
  rw [sameHandleTwice, hrun]
  exact ⟨_, rfl, rfl⟩

theorem receive_queue_protocol_sameHandleTwice :
    ∃ w, (exclusiveMachine .tcp .little).run sameHandleTwice = some w ∧
      ofSid 5 (w.dequeued 0) = [ClientMessage.ofType 5 .connect, palindrome.received 5,
        ClientMessage.ofType 5 .disconnect] ∧
      (∀ fault, w.crash ≠ some (.callback fault)) ∧
      ∀ socket sid,
        ofSid sid (w.dequeued socket) <+: streams .little w socket sid ∧
        streams .little w socket sid = ofSid sid (w.dequeued socket) ++
          (ofSid sid (w.sockets socket).recvBuffer ++ waiting w socket sid) ∧
        ∀ k ∈ (w.holders socket sid).dropLast, (w.connections k).Done := by
  obtain ⟨w, hrun, hdequeued⟩ := sameHandleTwice_run
  exact ⟨w, hrun, hdequeued, receive_queue_protocol .tcp .little sameHandleTwice w hrun⟩

end World
end PlaySocket
