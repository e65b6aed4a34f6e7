import PlaySocket.StreamSocket.ReceiveQueue

/-!
# Where replies go

A reply is sent to the sid of a message that was received, and an sid is a native
handle.  The registry maps a handle to the connection that has it now, and
nothing in a reply says which holder it is meant for.  So a reply goes to the
connection it answers, or to nobody, or to a later connection that was given the
same handle.
-/

namespace PlaySocket
namespace World

open Connection StreamParser

variable {native : Endian} {w w' : World} {event : Event}

/-! ## Whose messages are queued -/

/-- A message came from an open connection of the socket, which has its sid. -/
def CameFrom (w : World) (socket : SocketId) (r : Received) : Prop :=
  r.origin ∈ w.opened ∧ (w.connections r.origin).server = socket ∧
    (w.connections r.origin).handle = r.message.sid

def Origins (w : World) : Prop :=
  ∀ socket, ∀ r ∈ w.dequeued socket ++ (w.sockets socket).recvBuffer, CameFrom w socket r

theorem Move.opened_prefix (hmove : Move native w event w') : w.opened <+: w'.opened := by
  cases hmove with
  | connect k c' => exact List.prefix_append _ _
  | accept k socket hphase => exact List.prefix_rfl
  | callback k c' hready hcontinues => exact List.prefix_rfl
  | effect k e rest hpending => exact List.prefix_rfl
  | recv socket received rest hqueue => exact List.prefix_rfl
  | send socket message inReplyTo session body hmay hfound => exact List.prefix_rfl
  | still crash hstill => exact List.prefix_rfl

theorem Move.cameFrom (hmove : Move native w event w') (h : Orderly native w) {socket : SocketId}
    {r : Received} (hr : CameFrom w socket r) : CameFrom w' socket r := by
  obtain ⟨hopened, hserver, hhandle⟩ := hr
  obtain ⟨hserver', hhandle', _⟩ := hmove.frame h hopened
  exact ⟨hmove.opened_prefix.subset hopened, hserver'.trans hserver, hhandle'.trans hhandle⟩

theorem Orderly.queuedBy_cameFrom (h : Orderly native w) {k : ConnectionId} {e : Effect}
    {rest : List Effect} (hpending : (w.connections k).pending = e :: rest) {socket : SocketId}
    {r : Received} (hr : r ∈ queuedBy k socket e) : CameFrom w socket r := by
  cases e with
  | push target message =>
    obtain ⟨htarget, hsid⟩ := h.push_own hpending
    rw [queuedBy] at hr
    by_cases hsocket : target = socket
    · rw [if_pos hsocket] at hr
      rw [List.mem_singleton.mp hr]
      exact ⟨h.mem_of_pending hpending, htarget.symm.trans hsocket, hsid.symm⟩
    · rw [if_neg hsocket] at hr
      cases hr
  | addSession target sid session => cases hr
  | removeSession target sid => cases hr
  | disconnect => cases hr

theorem Move.origins (hmove : Move native w event w') (h : Orderly native w)
    (horigins : Origins w) : Origins w' := by
  intro socket r hr
  have hold : r ∈ w.dequeued socket ++ (w.sockets socket).recvBuffer → CameFrom w' socket r :=
    fun hmem => hmove.cameFrom h (horigins socket r hmem)
  cases hmove with
  | accept k place hphase => exact hold hr
  | connect k c' => exact hold hr
  | callback k c' hready hcontinues => exact hold hr
  | send place message inReplyTo session body hmay hfound => exact hold hr
  | still crash hstill => exact hold hr
  | effect k e rest hpending =>
    change r ∈ w.dequeued socket ++ (carryOut .tcp k w.sockets e socket).recvBuffer at hr
    rw [carryOut_recvBuffer, ← List.append_assoc] at hr
    rcases List.mem_append.mp hr with hmem | hnew
    · exact hold hmem
    · exact (Move.effect k e rest hpending).cameFrom h (h.queuedBy_cameFrom hpending hnew)
  | recv place received rest hqueue =>
    apply hold
    change r ∈ Function.update w.dequeued place (w.dequeued place ++ [received]) socket ++
      (Function.update w.sockets place
        { w.sockets place with recvBuffer := rest } socket).recvBuffer at hr
    rwa [dequeue_pushed hqueue] at hr

/-! ## Who is registered -/

/-- The registry finds only open connections of the socket under their own
handles, and none that has been removed. -/
def Registered (w : World) : Prop :=
  ∀ socket sid k, (w.sockets socket).sessions.lookup sid = some k →
    k ∈ w.holders socket sid ∧ Staying (w.connections k)

/-- What the registry of `socket` finds under `sid` after an effect, where it found
`found` before. -/
def foundAfter (socket : SocketId) (sid : Int64) (found : Option ConnectionId) :
    Effect → Option ConnectionId
  | .addSession target sid' session =>
    if target = socket ∧ sid' = sid then some (found.getD session) else found
  | .removeSession target sid' => if target = socket ∧ sid' = sid then none else found
  | .push _ _ => found
  | .disconnect => found

theorem carryOut_lookup (k : ConnectionId) (sockets : SocketId → StreamSocket) (e : Effect)
    (socket : SocketId) (sid : Int64) :
    (carryOut .tcp k sockets e socket).sessions.lookup sid =
      foundAfter socket sid ((sockets socket).sessions.lookup sid) e := by
  cases e with
  | addSession target sid' session =>
    rw [carryOut, foundAfter, Transport.addSession]
    by_cases heq : socket = target
    · rw [heq, Function.update_self, StreamSocket.lookup_addSession]
      by_cases hsid : sid = sid'
      · rw [if_pos hsid, if_pos ⟨rfl, hsid.symm⟩, hsid]
      · rw [if_neg hsid, if_neg fun h => hsid h.2.symm]
    · rw [Function.update_of_ne heq, if_neg fun h => heq h.1.symm]
  | removeSession target sid' =>
    rw [carryOut, foundAfter, Transport.removeSession]
    by_cases heq : socket = target
    · rw [heq, Function.update_self, StreamSocket.lookup_removeSession]
      by_cases hsid : sid = sid'
      · rw [if_pos hsid, if_pos ⟨rfl, hsid.symm⟩]
      · rw [if_neg hsid, if_neg fun h => hsid h.2.symm]
    · rw [Function.update_of_ne heq, if_neg fun h => heq h.1.symm]
  | push target message =>
    rw [carryOut, foundAfter]
    by_cases heq : socket = target
    · rw [heq, Function.update_self]
      rfl
    · rw [Function.update_of_ne heq]
  | disconnect => rfl

/-- What is found was found before, unless the effect added it. -/
theorem found_before {socket : SocketId} {sid : Int64} {found : Option ConnectionId} {e : Effect}
    {j : ConnectionId} (h : foundAfter socket sid found e = some j) :
    found = some j ∧ e ≠ .removeSession socket sid ∨ e = .addSession socket sid j := by
  cases e with
  | addSession target sid' session =>
    rw [foundAfter] at h
    by_cases haimed : target = socket ∧ sid' = sid
    · rw [if_pos haimed] at h
      obtain ⟨rfl, rfl⟩ := haimed
      cases found with
      | none =>
        cases h
        exact .inr rfl
      | some old => exact .inl ⟨h, Effect.noConfusion⟩
    · rw [if_neg haimed] at h
      exact .inl ⟨h, Effect.noConfusion⟩
  | removeSession target sid' =>
    rw [foundAfter] at h
    by_cases haimed : target = socket ∧ sid' = sid
    · rw [if_pos haimed] at h
      cases h
    · rw [if_neg haimed] at h
      exact .inl ⟨h, fun hremove => haimed (Effect.removeSession.inj hremove)⟩
  | push target message => exact .inl ⟨h, Effect.noConfusion⟩
  | disconnect => exact .inl ⟨h, Effect.noConfusion⟩

theorem Move.mem_holders (hmove : Move native w event w') (h : Orderly native w) {k : ConnectionId}
    {socket : SocketId} {sid : Int64} (hk : k ∈ w.holders socket sid) :
    k ∈ w'.holders socket sid := by
  obtain ⟨hopened, hserver, hhandle⟩ := World.mem_holders.mp hk
  obtain ⟨hserver', hhandle', _⟩ := hmove.frame h hopened
  exact World.mem_holders.mpr ⟨hmove.opened_prefix.subset hopened, hserver'.trans hserver,
    hhandle'.trans hhandle⟩

/-- An added session is its own connection, which is connected. -/
theorem Orderly.addSession_own (h : Orderly native w) {k j : ConnectionId} {socket : SocketId}
    {sid : Int64} {rest : List Effect}
    (hpending : (w.connections k).pending = .addSession socket sid j :: rest) :
    j = k ∧ k ∈ w.holders socket sid ∧ (w.connections k).phase = .connected := by
  rcases ((h.shape k).head hpending).2 with hc | hd
  · obtain ⟨hphase, hserver, hhandle, hsession⟩ := hc
    exact ⟨hsession, World.mem_holders.mpr ⟨h.mem_of_pending hpending, hserver.symm, hhandle.symm⟩,
      hphase⟩
  · rcases hd.2 with hpush | hremove
    · cases hpush
    · cases hremove.1

theorem Move.registered (hmove : Move native w event w') (h : Orderly native w)
    (hregistered : Registered w) : Registered w' := by
  intro socket sid j hfound
  cases hmove with
  | accept k place hphase =>
    obtain ⟨hj, hstaying⟩ := hregistered socket sid j hfound
    have hne : j ≠ k := fun heq =>
      h.not_mem_of_phase hphase (by decide) (heq ▸ (World.mem_holders.mp hj).1)
    refine ⟨(Move.accept k place hphase).mem_holders h hj, ?_⟩
    rwa [setConnection_ne w hne]
  | connect k c' hphase hserver hphase' hshape' hstream hexclusive hgreeting =>
    obtain ⟨hj, hstaying⟩ := hregistered socket sid j hfound
    have hne : j ≠ k := fun heq =>
      h.not_mem_of_phase hphase (by decide) (heq ▸ (World.mem_holders.mp hj).1)
    have hmove' := Move.connect k c' hphase hserver hphase' hshape' hstream hexclusive hgreeting
    refine ⟨hmove'.mem_holders h hj, ?_⟩
    rwa [setConnection_ne _ hne]
  | callback k c' hready hcontinues hcalls =>
    obtain ⟨hj, hstaying⟩ := hregistered socket sid j hfound
    refine ⟨(Move.callback k c' hready hcontinues hcalls).mem_holders h hj, ?_⟩
    by_cases heq : j = k
    · rw [heq, setConnection_self]
      exact hcontinues.staying
    · rwa [setConnection_ne w heq]
  | recv place received rest hqueue =>
    change (Function.update w.sockets place
      { w.sockets place with recvBuffer := rest } socket).sessions.lookup sid = some j at hfound
    rw [update_recvBuffer_sessions] at hfound
    exact hregistered socket sid j hfound
  | send place message inReplyTo session body hmay hfound' => exact hregistered socket sid j hfound
  | still crash hstill => exact hregistered socket sid j hfound
  | effect k e rest hpending =>
    have hmove' : Move native w _ _ := Move.effect k e rest hpending
    change (carryOut .tcp k w.sockets e socket).sessions.lookup sid = some j at hfound
    rw [carryOut_lookup] at hfound
    rcases found_before hfound with hold | hadded
    · obtain ⟨hlookup, hne⟩ := hold
      obtain ⟨hj, hstaying⟩ := hregistered socket sid j hlookup
      refine ⟨hmove'.mem_holders h hj, ?_⟩
      show Staying ((w.setConnection k { w.connections k with pending := rest }).connections j)
      by_cases heq : j = k
      · rw [heq] at hj hstaying ⊢
        rw [setConnection_self]
        obtain ⟨_, hserver, hhandle⟩ := World.mem_holders.mp hj
        rcases hstaying with hphase | hremove
        · exact .inl hphase
        · rw [hpending, hserver, hhandle] at hremove
          rcases List.mem_cons.mp hremove with hhead | htail
          · exact absurd hhead.symm hne
          · refine .inr ?_
            show Effect.removeSession (w.connections k).server (w.connections k).handle ∈ rest
            rw [hserver, hhandle]
            exact htail
      · rwa [setConnection_ne w heq]
    · subst hadded
      obtain ⟨rfl, hk, hphase⟩ := h.addSession_own hpending
      refine ⟨hmove'.mem_holders h hk, ?_⟩
      show Staying ((w.setConnection j { w.connections j with pending := rest }).connections j)
      rw [setConnection_self]
      exact .inl hphase

/-! ## Where replies end up -/

/-- A body that answers a message of connection `r.origin` went to that
connection, or to one that had its handle after it. -/
def Answered (w : World) (d : Delivery) : Prop :=
  ∀ r, d.inReplyTo = some r → d.session = r.origin ∨
    (w.connections r.origin).Done ∧
      (w.connections d.session).server = (w.connections r.origin).server ∧
      (w.connections d.session).handle = (w.connections r.origin).handle ∧
      List.Sublist [r.origin, d.session] w.opened

theorem Move.answered (hmove : Move native w event w') (h : Orderly native w) {d : Delivery}
    (hd : Answered w d) : Answered w' d := by
  intro r hr
  rcases hd r hr with hsame | hlater
  · exact .inl hsame
  · obtain ⟨hdone, hserver, hhandle, horder⟩ := hlater
    have horigin : r.origin ∈ w.opened := horder.subset List.mem_cons_self
    have hsession : d.session ∈ w.opened :=
      horder.subset (List.mem_cons_of_mem _ (List.mem_singleton_self _))
    obtain ⟨hserver₁, hhandle₁, hkept⟩ := hmove.frame h horigin
    obtain ⟨hserver₂, hhandle₂, _⟩ := hmove.frame h hsession
    refine .inr ⟨?_, ?_, ?_, horder.trans hmove.opened_prefix.sublist⟩
    · rw [hkept hdone]
      exact hdone
    · rw [hserver₁, hserver₂, hserver]
    · rw [hhandle₁, hhandle₂, hhandle]

/-- The registered session is the last holder, and the connection answered is a
holder too. -/
theorem Orderly.send_answered (h : Orderly native w) (horigins : Origins w)
    (hregistered : Registered w) {socket : SocketId} {message : ClientMessage}
    {inReplyTo : Option Received} {session : ConnectionId} {body : MessageT}
    (hmay : w.MayReply socket message inReplyTo)
    (hfound : (w.sockets socket).sessions.lookup message.sid = some session) :
    Answered w { inReplyTo := inReplyTo, session := session, body := body } := by
  intro r hr
  obtain ⟨hdequeued, hsid⟩ := hmay r hr
  obtain ⟨hopened, hserver, hhandle⟩ := horigins socket r (List.mem_append_left _ hdequeued)
  obtain ⟨hsession, hstaying⟩ := hregistered socket message.sid session hfound
  have horigin : r.origin ∈ w.holders socket message.sid :=
    mem_holders.mpr ⟨hopened, hserver, hhandle.trans hsid.symm⟩
  by_cases heq : session = r.origin
  · exact .inl heq
  · obtain ⟨front, hfront, hdone⟩ := h.last_holder hsession hstaying.not_done
    rw [hfront] at horigin
    have hearlier : r.origin ∈ front := by
      rcases List.mem_append.mp horigin with hmem | hlast
      · exact hmem
      · exact absurd (List.mem_singleton.mp hlast).symm heq
    have horder : List.Sublist [r.origin, session] (w.holders socket message.sid) := by
      rw [hfront]
      exact (List.singleton_sublist.mpr hearlier).append (List.Sublist.refl [session])
    obtain ⟨_, hserver', hhandle'⟩ := mem_holders.mp hsession
    exact .inr ⟨hdone r.origin hearlier, hserver'.trans hserver.symm,
      hhandle'.trans (hhandle.trans hsid.symm).symm, horder.trans List.filter_sublist⟩

structure Replying (native : Endian) (w : World) : Prop where
  orderly : Orderly native w
  origins : Origins w
  registered : Registered w
  answered : ∀ d ∈ w.delivered, Answered w d

theorem init_replying (native : Endian) : Replying native init where
  orderly := init_orderly native
  origins _ _ hr := nomatch hr
  registered _ _ _ hfound := nomatch hfound
  answered _ hd := nomatch hd

theorem Move.replying (hmove : Move native w event w') (h : Replying native w) :
    Replying native w' := by
  have hkept : ∀ d ∈ w.delivered, Answered w' d := fun d hd =>
    hmove.answered h.orderly (h.answered d hd)
  refine ⟨hmove.orderly h.orderly, hmove.origins h.orderly h.origins,
    hmove.registered h.orderly h.registered, fun d hd => ?_⟩
  cases hmove with
  | send socket message inReplyTo session body hmay hfound =>
    rcases List.mem_append.mp hd with hold | hnew
    · exact hkept d hold
    · rw [List.mem_singleton.mp hnew]
      exact h.orderly.send_answered h.origins h.registered hmay hfound
  | accept k place hphase => exact hkept d hd
  | connect k c' => exact hkept d hd
  | callback k c' hready hcontinues => exact hkept d hd
  | effect k e rest hpending => exact hkept d hd
  | recv place received rest hqueue => exact hkept d hd
  | still crash hstill => exact hkept d hd

theorem replies_reach_handle (t : Transport) (native : Endian) (events : List Event) (w : World)
    (hrun : (exclusiveMachine t native).run events = some w) :
    ∀ d ∈ w.delivered, ∀ r, d.inReplyTo = some r →
      d.session = r.origin ∨
        (w.connections r.origin).Done ∧
          (w.connections d.session).server = (w.connections r.origin).server ∧
          (w.connections d.session).handle = (w.connections r.origin).handle ∧
          List.Sublist [r.origin, d.session] w.opened := by
  have hreplying : Replying native w :=
    Machine.invariant (init_replying native)
      (fun _ _ _ h hstep => (step_move h.orderly.shape hstep).replying h) hrun
  exact hreplying.answered

/-- A client is greeted, and the consumer answers at once. -/
def promptReply : List Event :=
  [.accept 0 0, .connected 0 5, .effect 0, .effect 0, .recv 0, .send 0
    (ClientMessage.ofBody 5 { serviceId := 1, msgId := 2, msgSeq := 3, stageIndex := 4 }
      (some (MessageT.ofSize 1)))
    (some { message := ClientMessage.ofType 5 .connect, origin := 0 })]

theorem replies_reach_handle_promptReply :
    ∃ w, (exclusiveMachine .tcp .little).run promptReply = some w ∧ w.delivered.length = 1 ∧
      ∀ d ∈ w.delivered, ∀ r, d.inReplyTo = some r →
        d.session = r.origin ∨
          (w.connections r.origin).Done ∧
            (w.connections d.session).server = (w.connections r.origin).server ∧
            (w.connections d.session).handle = (w.connections r.origin).handle ∧
            List.Sublist [r.origin, d.session] w.opened :=
  ⟨_, rfl, rfl, replies_reach_handle .tcp .little promptReply _ rfl⟩

/-! ## A reply that comes late -/

def reply : ClientMessage :=
  ClientMessage.ofBody 5 { serviceId := 1, msgId := 2, msgSeq := 3, stageIndex := 4 }
    (some (MessageT.ofSize 1))

def requestReceived : Received := { message := palindrome.received 5, origin := 0 }

/-- The consumer receives what the first client sent, and answers when that
client has left and another one has its handle. -/
def afterRequest : List Event :=
  [.effect 0, .recv 0, .recv 0, .disconnected 0, .effect 0, .effect 0, .accept 1 0,
    .connected 1 5, .effect 1, .send 0 reply (some requestReceived)]

def lateReply : List Event := beforeRequest ++ .received 0 palindrome.bytes :: afterRequest

theorem lateReply_run (t : Transport) :
    ∃ w, (exclusiveMachine t .little).run lateReply = some w ∧
      ∃ d ∈ w.delivered, ∃ r, d.inReplyTo = some r ∧ r.message.type = .normal ∧
        d.session ≠ r.origin := by
  obtain ⟨parser, hrun⟩ := request_run t
  rw [lateReply, hrun]
  have hother : (1 : ConnectionId) ≠ requestReceived.origin := by decide
  cases t with
  | tcp => exact ⟨_, rfl, _, List.mem_singleton_self _, requestReceived, rfl, rfl, hother⟩
  | ws => exact ⟨_, rfl, _, List.mem_singleton_self _, requestReceived, rfl, rfl, hother⟩

/-- The reply to the first client goes to the second. -/
theorem lateReply_reaches_another_client :
    (∃ w, (exclusiveMachine .tcp .little).run lateReply = some w ∧
      ∃ d ∈ w.delivered, ∃ r, d.inReplyTo = some r ∧ r.message.type = .normal ∧
        d.session ≠ r.origin) ∧
    ∃ w, (exclusiveMachine .ws .little).run lateReply = some w ∧
      ∃ d ∈ w.delivered, ∃ r, d.inReplyTo = some r ∧ r.message.type = .normal ∧
        d.session ≠ r.origin :=
  ⟨lateReply_run .tcp, lateReply_run .ws⟩

end World
end PlaySocket
