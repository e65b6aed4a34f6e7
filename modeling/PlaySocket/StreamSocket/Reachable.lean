import PlaySocket.StreamSocket.Replies

/-!
# Announced connections are reachable

`onConnected` registers its session before it announces it, and `onDisconnected`
takes its leave before it removes the session.  So between its CONNECT and its
DISCONNECT the registry finds a connection, whatever the consumer does meanwhile.

Insertion leaves an entry that is there already.  There is none under the handle
of a connection that registers, for only a connection that is not done has one,
and of those with one handle there is one at a time.
-/

namespace PlaySocket

open Exec

theorem Connection.registering_of_greeting {k : ConnectionId} {c : Connection}
    (h : c.pending = greeting k c) : Registering c := by
  refine ⟨c.server, c.handle, k, ?_⟩
  rw [h]
  exact List.mem_cons_self

namespace World

open Connection

variable {native : Endian} {w w' : World} {event : Event}

/-! ## What a connection has published -/

/-- Everything that was ever pushed on the queue of a socket. -/
def published (w : World) (socket : SocketId) : List Received :=
  w.dequeued socket ++ (w.sockets socket).recvBuffer

/-- The messages one connection pushed, among some entries. -/
def sentBy (k : ConnectionId) (entries : List Received) : List ClientMessage :=
  (entries.filter fun r => decide (r.origin = k)).map Received.message

theorem sentBy_append (k : ConnectionId) (xs ys : List Received) :
    sentBy k (xs ++ ys) = sentBy k xs ++ sentBy k ys := by
  rw [sentBy, List.filter_append, List.map_append, sentBy, sentBy]

theorem sentBy_eq_nil {k : ConnectionId} {entries : List Received}
    (h : ∀ r ∈ entries, r.origin ≠ k) : sentBy k entries = [] := by
  rw [sentBy, List.map_eq_nil_iff, List.filter_eq_nil_iff]
  intro r hr heq
  exact h r hr (of_decide_eq_true heq)

theorem mem_sentBy {k : ConnectionId} {entries : List Received} {message : ClientMessage} :
    message ∈ sentBy k entries ↔ ∃ r ∈ entries, r.origin = k ∧ r.message = message := by
  rw [sentBy, List.mem_map]
  constructor
  · intro h
    obtain ⟨r, hr, hmessage⟩ := h
    obtain ⟨hmem, horigin⟩ := List.mem_filter.mp hr
    exact ⟨r, hmem, of_decide_eq_true horigin, hmessage⟩
  · intro h
    obtain ⟨r, hr, horigin, hmessage⟩ := h
    exact ⟨r, List.mem_filter.mpr ⟨hr, decide_eq_true horigin⟩, hmessage⟩

theorem origin_of_queuedBy {k : ConnectionId} {socket : SocketId} {e : Effect} {r : Received}
    (hr : r ∈ queuedBy k socket e) : r.origin = k := by
  cases e with
  | push target message =>
    rw [queuedBy] at hr
    by_cases hsocket : target = socket
    · rw [if_pos hsocket] at hr
      rw [List.mem_singleton.mp hr]
    · rw [if_neg hsocket] at hr
      cases hr
  | addSession target sid session => cases hr
  | removeSession target sid => cases hr
  | disconnect => cases hr

/-- An effect publishes what it pushes, on the socket of its own server. -/
theorem Orderly.sentBy_queuedBy (h : Orderly native w) {k : ConnectionId} {e : Effect}
    {rest : List Effect} (hpending : (w.connections k).pending = e :: rest) :
    sentBy k (queuedBy k (w.connections k).server e) = pushes [e] := by
  cases e with
  | push target message =>
    rw [queuedBy, if_pos (h.push_own hpending).1, sentBy, List.filter_singleton,
      decide_eq_true rfl]
    rfl
  | addSession target sid session => rfl
  | removeSession target sid => rfl
  | disconnect => rfl

/-- What a connection has published and has yet to push make up its stream. -/
def Published (native : Endian) (w : World) : Prop :=
  ∀ k ∈ w.opened, (w.connections k).stream native =
    sentBy k (w.published (w.connections k).server) ++ pushes (w.connections k).pending

theorem Move.published (hmove : Move native w event w') (h : Orderly native w)
    (horigins : Origins w) (hpublished : Published native w) : Published native w' := by
  intro k hk
  cases hmove with
  | accept j place hphase =>
    have hne : k ≠ j := fun heq => h.not_mem_of_phase hphase (by decide) (heq ▸ hk)
    rw [setConnection_ne w hne]
    exact hpublished k hk
  | connect j c' hphase hserver hphase' hshape' hstream hexclusive =>
    have hj := h.not_mem_of_phase hphase (by decide)
    rcases List.mem_append.mp hk with hold | hnew
    · have hne : k ≠ j := fun heq => hj (heq ▸ hold)
      rw [setConnection_ne _ hne]
      exact hpublished k hold
    · rw [List.mem_singleton.mp hnew, setConnection_self, hstream]
      have hnone : sentBy j (w.published c'.server) = [] :=
        sentBy_eq_nil fun r hr heq => hj (heq ▸ (horigins c'.server r hr).1)
      change _ = sentBy j (w.published c'.server) ++ _
      rw [hnone, List.nil_append]
  | callback j c' hready hcontinues =>
    by_cases heq : k = j
    · have hlaw := hpublished k hk
      rw [heq, hready.2] at hlaw
      rw [heq, setConnection_self, hcontinues.stream, hcontinues.server, hlaw]
      exact congrArg (· ++ _) (List.append_nil _)
    · rw [setConnection_ne w heq]
      exact hpublished k hk
  | effect j e rest hpending =>
    have hlaw := hpublished k hk
    show ((w.setConnection j _).connections k).stream native =
      sentBy k (w.dequeued ((w.setConnection j _).connections k).server ++
        (carryOut .tcp j w.sockets e
          ((w.setConnection j _).connections k).server).recvBuffer) ++
        pushes ((w.setConnection j _).connections k).pending
    rw [carryOut_recvBuffer, ← List.append_assoc, sentBy_append]
    by_cases heq : k = j
    · rw [heq] at hlaw ⊢
      rw [setConnection_self]
      rw [hpending, pushes_cons] at hlaw
      change (w.connections j).stream native = sentBy j (w.published (w.connections j).server) ++
        sentBy j (queuedBy j (w.connections j).server e) ++ pushes rest
      rw [h.sentBy_queuedBy hpending, hlaw, List.append_assoc]
    · have hnone : sentBy k (queuedBy j (w.connections k).server e) = [] :=
        sentBy_eq_nil fun r hr horigin => heq (horigin.symm.trans (origin_of_queuedBy hr))
      rw [setConnection_ne w heq, hnone, List.append_nil]
      exact hlaw
  | recv place received rest hqueue =>
    have hlaw := hpublished k hk
    rw [World.published, ← dequeue_pushed hqueue] at hlaw
    exact hlaw
  | send place message inReplyTo session body hmay hfound => exact hpublished k hk
  | still crash hstill => exact hpublished k hk

/-! ## Registering -/

/-- A connection whose `addSession` is still to come has published nothing. -/
def Greeted (native : Endian) (w : World) : Prop :=
  ∀ k, Registering (w.connections k) →
    (w.connections k).pending = greeting k (w.connections k) ∧
      (w.connections k).stream native = pushes (w.connections k).pending

theorem not_registering_rest {k : ConnectionId} {c : Connection} {e : Effect}
    {rest : List Effect} (hpending : c.pending = e :: rest)
    (hgreeting : c.pending = greeting k c) : ¬Registering { c with pending := rest } := by
  intro hadd
  obtain ⟨socket, sid, session, hmem⟩ := hadd
  rw [hgreeting] at hpending
  obtain ⟨_, hrest⟩ := List.cons.inj hpending
  change Effect.addSession socket sid session ∈ rest at hmem
  rw [← hrest] at hmem
  cases List.mem_singleton.mp hmem

theorem registering_of_rest {c : Connection} {e : Effect} {rest : List Effect}
    (hpending : c.pending = e :: rest) (h : Registering { c with pending := rest }) :
    Registering c := by
  obtain ⟨socket, sid, session, hmem⟩ := h
  refine ⟨socket, sid, session, ?_⟩
  rw [hpending]
  exact List.mem_cons_of_mem e hmem

theorem Move.greeted (hmove : Move native w event w') (h : Greeted native w) :
    Greeted native w' := by
  intro k hadd
  cases hmove with
  | accept j place hphase =>
    by_cases heq : k = j
    · rw [heq, setConnection_self] at hadd
      exact absurd hadd (not_registering_of_nil rfl)
    · rw [setConnection_ne w heq] at hadd ⊢
      exact h k hadd
  | connect j c' hphase hserver hphase' hshape' hstream hexclusive hgreeting =>
    by_cases heq : k = j
    · rw [heq, setConnection_self]
      exact ⟨hgreeting, hstream⟩
    · rw [setConnection_ne _ heq] at hadd ⊢
      exact h k hadd
  | callback j c' hready hcontinues =>
    by_cases heq : k = j
    · rw [heq, setConnection_self] at hadd
      exact absurd hadd hcontinues.not_registering
    · rw [setConnection_ne w heq] at hadd ⊢
      exact h k hadd
  | effect j e rest hpending =>
    change Registering ((w.setConnection j _).connections k) at hadd
    by_cases heq : k = j
    · rw [heq, setConnection_self] at hadd
      have hbefore := h j (registering_of_rest hpending hadd)
      exact absurd hadd (not_registering_rest hpending hbefore.1)
    · rw [setConnection_ne w heq] at hadd
      show ((w.setConnection j _).connections k).pending = greeting k
          ((w.setConnection j _).connections k) ∧
        ((w.setConnection j _).connections k).stream native =
          pushes ((w.setConnection j _).connections k).pending
      rw [setConnection_ne w heq]
      exact h k hadd
  | recv place received rest hqueue => exact h k hadd
  | send place message inReplyTo session body hmay hfound => exact h k hadd
  | still crash hstill => exact h k hadd

/-! ## Finding -/

/-- Of the connections that share a handle one at most is not done. -/
theorem Orderly.holder_unique (h : Orderly native w) {socket : SocketId} {sid : Int64}
    {j k : ConnectionId} (hj : j ∈ w.holders socket sid) (hk : k ∈ w.holders socket sid)
    (hnj : ¬(w.connections j).Done) (hnk : ¬(w.connections k).Done) : j = k := by
  obtain ⟨front, hfront, hdone⟩ := h.last_holder hk hnk
  rw [hfront] at hj
  rcases List.mem_append.mp hj with hearlier | hlast
  · exact absurd (hdone j hearlier) hnj
  · exact List.mem_singleton.mp hlast

/-- A removed session is the connection's own, and the last thing it does. -/
theorem Orderly.removeSession_own (h : Orderly native w) {k : ConnectionId} {socket : SocketId}
    {sid : Int64} {rest : List Effect}
    (hpending : (w.connections k).pending = .removeSession socket sid :: rest) :
    k ∈ w.holders socket sid ∧ (w.connections k).phase = .disconnected ∧ rest = [] := by
  rcases ((h.shape k).head hpending).2 with hc | hd
  · exact hc.2.elim
  · obtain ⟨hphase, hpush | hremove⟩ := hd
    · cases hpush
    · obtain ⟨heq, hrest⟩ := hremove
      obtain ⟨hserver, hhandle⟩ := Effect.removeSession.inj heq
      exact ⟨mem_holders.mpr ⟨h.mem_of_pending hpending, hserver.symm, hhandle.symm⟩, hphase,
        hrest⟩

/-- What was found is found after every effect but its removal. -/
theorem foundAfter_of_ne {socket : SocketId} {sid : Int64} {found : Option ConnectionId}
    {e : Effect} {j : ConnectionId} (hfound : found = some j)
    (hne : e ≠ .removeSession socket sid) : foundAfter socket sid found e = some j := by
  subst hfound
  cases e with
  | addSession target sid' session => exact ite_self _
  | removeSession target sid' =>
    rw [foundAfter, if_neg]
    rintro ⟨rfl, rfl⟩
    exact hne rfl
  | push target message => rfl
  | disconnect => rfl

/-- Every connection that has registered and has yet to be removed is found under
its handle. -/
def Findable (w : World) : Prop :=
  ∀ k ∈ w.opened, ¬Registering (w.connections k) → Staying (w.connections k) →
    (w.sockets (w.connections k).server).sessions.lookup (w.connections k).handle = some k

/-- Registering is successful. -/
theorem Orderly.addSession_finds (h : Orderly native w) (hregistered : Registered w)
    {k j : ConnectionId} {socket : SocketId} {sid : Int64} {rest : List Effect}
    (hpending : (w.connections k).pending = .addSession socket sid j :: rest) :
    (carryOut .tcp k w.sockets (.addSession socket sid j)
      (w.connections k).server).sessions.lookup (w.connections k).handle = some k := by
  obtain ⟨rfl, hk, hphase⟩ := h.addSession_own hpending
  obtain ⟨_, hserver, hhandle⟩ := mem_holders.mp hk
  rw [hserver, hhandle, carryOut_lookup, foundAfter, if_pos ⟨rfl, rfl⟩]
  cases hfound : (w.sockets socket).sessions.lookup sid with
  | none => rfl
  | some i =>
    -- The entry that is there belongs to a holder that is not done, hence to `j`.
    obtain ⟨hholder, hstaying⟩ := hregistered socket sid i hfound
    exact congrArg some
      (h.holder_unique hholder hk hstaying.not_done (not_done_of_pending hpending))

theorem Move.findable (hmove : Move native w event w') (h : Orderly native w)
    (hregistered : Registered w) (hfindable : Findable w) : Findable w' := by
  intro k hk hadded hstaying
  cases hmove with
  | accept j place hphase =>
    have hne : k ≠ j := fun heq => h.not_mem_of_phase hphase (by decide) (heq ▸ hk)
    rw [setConnection_ne w hne] at hadded hstaying ⊢
    exact hfindable k hk hadded hstaying
  | connect j c' hphase hserver hphase' hshape' hstream hexclusive hgreeting =>
    rcases List.mem_append.mp hk with hold | hnew
    · have hne : k ≠ j := fun heq => h.not_mem_of_phase hphase (by decide) (heq ▸ hold)
      rw [setConnection_ne _ hne] at hadded hstaying ⊢
      exact hfindable k hold hadded hstaying
    · rw [List.mem_singleton.mp hnew, setConnection_self] at hadded
      exact absurd (registering_of_greeting hgreeting) hadded
  | callback j c' hready hcontinues =>
    by_cases heq : k = j
    · rw [heq, setConnection_self, hcontinues.server, hcontinues.handle]
      exact hfindable j (h.mem_of_ready hready) (not_registering_of_nil hready.2)
        (.inl hready.1)
    · rw [setConnection_ne w heq] at hadded hstaying ⊢
      exact hfindable k hk hadded hstaying
  | effect j e rest hpending =>
    change ¬Registering ((w.setConnection j _).connections k) at hadded
    change Staying ((w.setConnection j _).connections k) at hstaying
    show (carryOut .tcp j w.sockets e
      ((w.setConnection j _).connections k).server).sessions.lookup
        ((w.setConnection j _).connections k).handle = some k
    by_cases heq : k = j
    · rw [heq, setConnection_self] at hadded hstaying ⊢
      change (carryOut .tcp j w.sockets e (w.connections j).server).sessions.lookup
        (w.connections j).handle = some j
      by_cases hadd : Registering (w.connections j)
      · obtain ⟨socket, sid, session, hmem⟩ := hadd
        rw [hpending] at hmem
        rcases List.mem_cons.mp hmem with hhead | htail
        · rw [← hhead] at hpending ⊢
          exact h.addSession_finds hregistered hpending
        · exact absurd ⟨socket, sid, session, htail⟩ hadded
      · have hbefore : Staying (w.connections j) := by
          rcases hstaying with hphase | hremove
          · exact .inl hphase
          · refine .inr ?_
            rw [hpending]
            exact List.mem_cons_of_mem e hremove
        rw [carryOut_lookup]
        refine foundAfter_of_ne (hfindable j (h.mem_of_pending hpending) hadd hbefore) ?_
        intro hremove
        rw [hremove] at hpending
        obtain ⟨_, hphase, hrest⟩ := h.removeSession_own hpending
        exact hstaying.not_done ⟨hphase, hrest⟩
    · rw [setConnection_ne w heq] at hadded hstaying ⊢
      rw [carryOut_lookup]
      refine foundAfter_of_ne (hfindable k hk hadded hstaying) ?_
      intro hremove
      rw [hremove] at hpending
      have hholder := (h.removeSession_own hpending).1
      exact heq (h.holder_unique (World.mem_holders.mpr ⟨hk, rfl, rfl⟩) hholder hstaying.not_done
        (not_done_of_pending hpending))
  | recv place received rest hqueue =>
    show (Function.update w.sockets place { w.sockets place with recvBuffer := rest }
      (w.connections k).server).sessions.lookup (w.connections k).handle = some k
    rw [update_recvBuffer_sessions]
    exact hfindable k hk hadded hstaying
  | send place message inReplyTo session body hmay hfound => exact hfindable k hk hadded hstaying
  | still crash hstill => exact hfindable k hk hadded hstaying

/-! ## Between CONNECT and DISCONNECT -/

structure Announcing (native : Endian) (w : World) : Prop where
  replying : Replying native w
  published : Published native w
  greeted : Greeted native w
  findable : Findable w

theorem init_announcing (native : Endian) : Announcing native init where
  replying := init_replying native
  published _ hk := nomatch hk
  greeted _ hadd := absurd hadd (not_registering_of_nil rfl)
  findable _ hk := nomatch hk

theorem step_announcing {t : Transport} {e : Event} (h : Announcing native w)
    (hstep : (exclusiveMachine t native).step w e = some w') : Announcing native w' := by
  have horderly := h.replying.orderly
  have hmove := step_move horderly.shape hstep
  exact {
    replying := hmove.replying h.replying
    published := hmove.published horderly h.replying.origins h.published
    greeted := hmove.greeted h.greeted
    findable := hmove.findable horderly h.replying.registered h.findable }

/-- A connection that has published anything has registered before. -/
theorem Announcing.not_registering (h : Announcing native w) {k : ConnectionId}
    (hk : k ∈ w.opened) {r : Received} (hr : r ∈ w.published (w.connections k).server)
    (horigin : r.origin = k) : ¬Registering (w.connections k) := by
  intro hadd
  have hmem : r.message ∈ sentBy k (w.published (w.connections k).server) :=
    mem_sentBy.mpr ⟨r, hr, horigin, rfl⟩
  have hlaw := h.published k hk
  rw [(h.greeted k hadd).2, List.self_eq_append_left] at hlaw
  rw [hlaw] at hmem
  cases hmem

/-- A connection that has not published its DISCONNECT is still to be removed. -/
theorem Announcing.staying (h : Announcing native w) {k : ConnectionId} (hk : k ∈ w.opened)
    (hnone : ∀ r ∈ w.published (w.connections k).server, r.origin = k →
      r.message.type ≠ .disconnect) : Staying (w.connections k) := by
  cases h.replying.orderly.shape k with
  | absent hphase =>
    exact absurd hk (h.replying.orderly.not_mem_of_phase hphase (by decide))
  | accepted hphase =>
    exact absurd hk (h.replying.orderly.not_mem_of_phase hphase (by decide))
  | connected hphase => exact .inl hphase
  | disconnected hphase hlive hpending =>
    rcases List.suffix_cons_iff.mp hpending with hboth | htail
    · refine .inr ?_
      rw [hboth]
      exact List.mem_cons_of_mem _ (List.mem_singleton_self _)
    · rcases List.suffix_cons_iff.mp htail with hlast | hnil
      · refine .inr ?_
        rw [hlast]
        exact List.mem_singleton_self _
      · -- Nothing is pending any more, so the whole stream is published.
        have hlaw := h.published k hk
        rw [List.suffix_nil.mp hnil, stream, if_pos hphase] at hlaw
        have hlast : ClientMessage.ofType (w.connections k).handle .disconnect ∈
            sentBy k (w.published (w.connections k).server) := by
          change _ = sentBy k (w.published (w.connections k).server) ++ [] at hlaw
          rw [List.append_nil] at hlaw
          rw [← hlaw]
          exact List.mem_append_right _ (List.mem_singleton_self _)
        obtain ⟨r, hr, horigin, hmessage⟩ := mem_sentBy.mp hlast
        exact absurd (congrArg ClientMessage.type hmessage) (hnone r hr horigin)

/-- In every state every run reaches, a connection is the one the registry holds
under its handle from its `addSession` to its `removeSession`, so `send` reaches
it from the moment its CONNECT is dequeued until its DISCONNECT is pushed. -/
theorem announced_connection_found (t : Transport) (native : Endian) (events : List Event)
    (w : World) (hrun : (exclusiveMachine t native).run events = some w) :
    (∀ socket, (w.sockets socket).sessions.keys.Nodup) ∧
      (∀ k ∈ w.opened, ¬Registering (w.connections k) → Staying (w.connections k) →
        (w.sockets (w.connections k).server).sessions.lookup (w.connections k).handle = some k) ∧
      ∀ socket, ∀ r ∈ w.dequeued socket, r.message.type = .connect →
        (∀ r' ∈ w.dequeued socket ++ (w.sockets socket).recvBuffer, r'.origin = r.origin →
          r'.message.type ≠ .disconnect) →
        (w.sockets socket).sessions.lookup r.message.sid = some r.origin ∧
          ∀ message body, message.sid = r.message.sid → message.body = some body →
            ∃ sent, t.send (w.sockets socket) message = .ok sent ∧
              sent.handed = some (r.origin, body) := by
  have h : Announcing native w :=
    Machine.invariant (init_announcing native) (fun _ _ _ h hstep => step_announcing h hstep) hrun
  refine ⟨fun socket => (w.sockets socket).sessions.nodupKeys, h.findable, ?_⟩
  intro socket r hr _ hnone
  have hr' : r ∈ w.published socket := List.mem_append_left _ hr
  obtain ⟨hopened, hserver, hhandle⟩ := h.replying.origins socket r hr'
  subst hserver
  have hfound := h.findable r.origin hopened (h.not_registering hopened hr' rfl)
    (h.staying hopened hnone)
  rw [hhandle] at hfound
  refine ⟨hfound, fun message body hsid hbody => ?_⟩
  rw [t.send_eq, StreamSocket.send, hsid, hfound]
  simp only [ClientMessage.takeBody, hbody]
  exact ⟨_, rfl, rfl⟩

/-- A handle that is reissued, and a second client that stays. -/
def secondStays : List Event :=
  [.accept 0 0, .connected 0 5, .effect 0, .effect 0, .disconnected 0, .effect 0, .effect 0,
    .accept 1 0, .connected 1 5, .effect 1, .effect 1, .recv 0, .recv 0, .recv 0]

theorem announced_connection_found_secondStays :
    ∃ w, (exclusiveMachine .ws .little).run secondStays = some w ∧
      (w.sockets 0).sessions.lookup 5 = some 1 ∧
      (∀ socket, (w.sockets socket).sessions.keys.Nodup) ∧
      (∀ k ∈ w.opened, ¬Registering (w.connections k) → Staying (w.connections k) →
        (w.sockets (w.connections k).server).sessions.lookup (w.connections k).handle =
          some k) ∧
      ∀ socket, ∀ r ∈ w.dequeued socket, r.message.type = .connect →
        (∀ r' ∈ w.dequeued socket ++ (w.sockets socket).recvBuffer, r'.origin = r.origin →
          r'.message.type ≠ .disconnect) →
        (w.sockets socket).sessions.lookup r.message.sid = some r.origin ∧
          ∀ message body, message.sid = r.message.sid → message.body = some body →
            ∃ sent, Transport.ws.send (w.sockets socket) message = .ok sent ∧
              sent.handed = some (r.origin, body) :=
  ⟨_, rfl, rfl, announced_connection_found .ws .little secondStays _ rfl⟩

end World
end PlaySocket
