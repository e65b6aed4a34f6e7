import PlaySocket.StreamSocket.Intake

/-!
# The registry, exactly

After any number of steps the registry of a socket finds under an sid the one
connection that has registered under it and is still to be removed.  It holds
nothing else, so it is never larger than the number of connections that are not
done, and empty when all of them are.

A `send` that finds such a connection follows the body of its message.  Nothing
else in the wired server follows a null pointer.
-/

namespace PlaySocket
namespace World

open Connection

variable {native : Endian} {w w' : World} {event : Event}

/-- The connection is in the registry of its socket. -/
def Enrolled (w : World) (k : ConnectionId) : Prop :=
  ¬Registering (w.connections k) ∧ Staying (w.connections k)

/-- What the registry finds has registered. -/
def Added (w : World) : Prop :=
  ∀ socket sid k, (w.sockets socket).sessions.lookup sid = some k →
    ¬Registering (w.connections k)

theorem Move.added (hmove : Move native w event w') (h : Announcing native w)
    (hadded : Added w) : Added w' := by
  have horderly := h.replying.orderly
  intro socket sid k hfound
  have hopened : (w.sockets socket).sessions.lookup sid = some k → k ∈ w.opened := fun hold =>
    (World.mem_holders.mp (h.replying.registered socket sid k hold).1).1
  cases hmove with
  | accept j place hphase =>
    have hne : k ≠ j := fun heq =>
      horderly.not_mem_of_phase hphase (by decide) (heq ▸ hopened hfound)
    rw [setConnection_ne w hne]
    exact hadded socket sid k hfound
  | connect j c' hphase hserver hphase' hshape' hstream hexclusive =>
    have hne : k ≠ j := fun heq =>
      horderly.not_mem_of_phase hphase (by decide) (heq ▸ hopened hfound)
    rw [setConnection_ne _ hne]
    exact hadded socket sid k hfound
  | callback j c' hready hcontinues =>
    by_cases heq : k = j
    · rw [heq, setConnection_self]
      exact hcontinues.not_registering
    · rw [setConnection_ne w heq]
      exact hadded socket sid k hfound
  | effect j e rest hpending =>
    change (carryOut .tcp j w.sockets e socket).sessions.lookup sid = some k at hfound
    rw [carryOut_lookup] at hfound
    show ¬Registering ((w.setConnection j { w.connections j with pending := rest }).connections k)
    by_cases heq : k = j
    · rw [heq, setConnection_self]
      by_cases hadd : Registering (w.connections j)
      · exact not_registering_rest hpending (h.greeted j hadd).1
      · exact fun hrest => hadd (registering_of_rest hpending hrest)
    · rw [setConnection_ne w heq]
      rcases found_before hfound with ⟨hlookup, _⟩ | rfl
      · exact hadded socket sid k hlookup
      · exact absurd (horderly.addSession_own hpending).1 heq
  | recv place received rest hqueue =>
    change (Function.update w.sockets place
      { w.sockets place with recvBuffer := rest } socket).sessions.lookup sid = some k at hfound
    rw [update_recvBuffer_sessions] at hfound
    exact hadded socket sid k hfound
  | send place message inReplyTo session body hmay hfound' => exact hadded socket sid k hfound
  | still crash hstill => exact hadded socket sid k hfound

theorem init_added : Added init := by
  intro socket sid k hfound
  cases hfound

theorem run_added {t : Transport} {events : List Event}
    (hrun : (exclusiveMachine t native).run events = some w) : Added w := by
  have hboth : Announcing native w ∧ Added w := by
    refine Machine.invariant (P := fun w => Announcing native w ∧ Added w)
      ⟨init_announcing native, init_added⟩ ?_ hrun
    intro w e w' h hstep
    have hmove := step_move h.1.replying.orderly.shape hstep
    exact ⟨step_announcing h.1 hstep, hmove.added h.1 h.2⟩
  exact hboth.2

theorem lookup_iff {t : Transport} {events : List Event}
    (hrun : (exclusiveMachine t native).run events = some w) (socket : SocketId) (sid : Int64)
    (k : ConnectionId) :
    (w.sockets socket).sessions.lookup sid = some k ↔
      k ∈ w.holders socket sid ∧ Enrolled w k := by
  have h := run_announcing hrun
  constructor
  · intro hfound
    obtain ⟨hk, hstaying⟩ := h.replying.registered socket sid k hfound
    exact ⟨hk, run_added hrun socket sid k hfound, hstaying⟩
  · rintro ⟨hk, hadded, hstaying⟩
    obtain ⟨hopened, hserver, hhandle⟩ := mem_holders.mp hk
    rw [← hserver, ← hhandle]
    exact h.findable k hopened hadded hstaying

/-- The connections of a socket that are not done. -/
def remaining (w : World) (socket : SocketId) : List ConnectionId :=
  w.opened.filter fun k => decide ((w.connections k).server = socket ∧ ¬(w.connections k).Done)

/-- The connection found under an sid. -/
def foundUnder (w : World) (socket : SocketId) (sid : Int64) : ConnectionId :=
  ((w.sockets socket).sessions.lookup sid).getD 0

theorem foundUnder_eq {socket : SocketId} {sid : Int64} {k : ConnectionId}
    (h : (w.sockets socket).sessions.lookup sid = some k) : w.foundUnder socket sid = k := by
  rw [foundUnder, h, Option.getD_some]

theorem foundUnder_enrolled {t : Transport} {events : List Event}
    (hrun : (exclusiveMachine t native).run events = some w) (socket : SocketId) (sid : Int64)
    (hmem : sid ∈ (w.sockets socket).sessions.keys) :
    w.foundUnder socket sid ∈ w.holders socket sid ∧ Enrolled w (w.foundUnder socket sid) := by
  obtain ⟨k, hk⟩ := Option.isSome_iff_exists.mp (AList.lookup_isSome.mpr hmem)
  rw [foundUnder_eq hk]
  exact (lookup_iff hrun socket sid k).mp hk

/-- Each sid goes to the connection found under it, and no two to the same one. -/
theorem keys_length_le {t : Transport} {events : List Event}
    (hrun : (exclusiveMachine t native).run events = some w) (socket : SocketId) :
    (w.sockets socket).sessions.keys.length ≤ (w.remaining socket).length := by
  have hfound := foundUnder_enrolled hrun socket
  have hnodup : ((w.sockets socket).sessions.keys.map (w.foundUnder socket)).Nodup := by
    refine List.Nodup.map_on ?_ (w.sockets socket).sessions.nodupKeys
    intro sid hsid sid' hsid' heq
    obtain ⟨_, _, hhandle⟩ := mem_holders.mp (hfound sid hsid).1
    obtain ⟨_, _, hhandle'⟩ := mem_holders.mp (hfound sid' hsid').1
    rw [← hhandle, heq, hhandle']
  have hsubset : (w.sockets socket).sessions.keys.map (w.foundUnder socket) ⊆
      w.remaining socket := by
    intro k hk
    obtain ⟨sid, hsid, rfl⟩ := List.mem_map.mp hk
    obtain ⟨hholder, _, hstaying⟩ := hfound sid hsid
    obtain ⟨hopened, hserver, _⟩ := mem_holders.mp hholder
    exact List.mem_filter.mpr ⟨hopened, decide_eq_true ⟨hserver, hstaying.not_done⟩⟩
  have hle := (List.subperm_of_subset hnodup hsubset).length_le
  rwa [List.length_map] at hle

/-- In every state a run reaches, the registry of a socket maps the sid of each
enrolled connection to it and has no other entry, hence at most one for each
connection that is not done. -/
theorem registry_exact (t : Transport) (native : Endian) (events : List Event) (w : World)
    (hrun : (exclusiveMachine t native).run events = some w) (socket : SocketId) :
    (∀ sid k, (w.sockets socket).sessions.lookup sid = some k ↔
      k ∈ w.opened ∧ (w.connections k).server = socket ∧ (w.connections k).handle = sid ∧
        Enrolled w k) ∧
      (w.sockets socket).sessions.keys.length ≤ (w.remaining socket).length := by
  refine ⟨fun sid k => ?_, keys_length_le hrun socket⟩
  rw [lookup_iff hrun socket, mem_holders, and_assoc, and_assoc]

theorem registry_exact_secondStays :
    ∃ w, (exclusiveMachine .ws .little).run secondStays = some w ∧
      (w.sockets 0).sessions.keys = [5] ∧ w.remaining 0 = [1] ∧
      (∀ sid k, (w.sockets 0).sessions.lookup sid = some k ↔
        k ∈ w.opened ∧ (w.connections k).server = 0 ∧ (w.connections k).handle = sid ∧
          Enrolled w k) ∧
        (w.sockets 0).sessions.keys.length ≤ (w.remaining 0).length :=
  ⟨_, rfl, rfl, rfl, registry_exact .ws .little secondStays _ rfl 0⟩

/-! ## What brings the server down -/

/-- Of all moves only a `send` that finds a connection follows a pointer of its
message. -/
theorem Move.crash_ne_iff (hmove : Move native w event w') (hcrash : w.crash = none) :
    w'.crash ≠ none ↔ ∃ socket message inReplyTo k, event = .send socket message inReplyTo ∧
      message.body = none ∧ (w.sockets socket).sessions.lookup message.sid = some k := by
  constructor
  · intro hdown
    cases hmove with
    | accept | connect | callback | effect | recv | send => exact absurd hcrash hdown
    | still crash hstill =>
      cases hstill with
      | nothingQueued | nobodyFound => exact absurd hcrash hdown
      | bodyMissing socket message inReplyTo session hfound hbody =>
        exact ⟨socket, message, inReplyTo, session, rfl, hbody, hfound⟩
  · rintro ⟨socket, message, inReplyTo, k, rfl, hbody, hfound⟩
    cases hmove with
    | callback j c' hready hcontinues hcalls => cases hcalls
    | send _ _ _ session body hmay hfound' hsome =>
      rw [hbody] at hsome
      cases hsome
    | still crash hstill =>
      cases hstill with
      | nobodyFound _ _ _ hnone =>
        rw [hfound] at hnone
        cases hnone
      | bodyMissing => exact Option.some_ne_none _

/-- The wired server goes down exactly when the consumer sends a message without
a body, such as a CONNECT it has received, to the sid of an enrolled
connection. -/
theorem crashed_iff (t : Transport) (native : Endian) (events : List Event) (w : World)
    (hrun : (exclusiveMachine t native).run events = some w) :
    w.crash ≠ none ↔ ∃ front socket message inReplyTo v k,
      events = front ++ [.send socket message inReplyTo] ∧
      (exclusiveMachine t native).run front = some v ∧ message.body = none ∧
      k ∈ v.holders socket message.sid ∧ Enrolled v k := by
  rcases List.eq_nil_or_concat events with rfl | ⟨front, e, rfl⟩
  · cases hrun
    constructor
    · exact fun hcrash => absurd rfl hcrash
    · rintro ⟨front, _, _, _, _, _, hnil, _⟩
      exact absurd hnil.symm (List.concat_ne_nil _ _)
  · rw [List.concat_eq_append] at hrun ⊢
    obtain ⟨v, hv, hstep⟩ := Machine.run_concat.mp hrun
    have hnone := crash_of_step (Machine.step_of_restrict hstep).2
    have hmove := step_move (run_orderly hv).shape hstep
    rw [hmove.crash_ne_iff hnone]
    constructor
    · rintro ⟨socket, message, inReplyTo, k, rfl, hbody, hfound⟩
      exact ⟨front, socket, message, inReplyTo, v, k, rfl, hv, hbody,
        (lookup_iff hv socket message.sid k).mp hfound⟩
    · rintro ⟨front', socket, message, inReplyTo, v', k, heq, hv', hbody, henrolled⟩
      obtain ⟨rfl, hlast⟩ := List.append_inj' heq rfl
      rw [hv] at hv'
      cases hv'
      exact ⟨socket, message, inReplyTo, k, (List.cons.inj hlast).1, hbody,
        (lookup_iff hv socket message.sid k).mpr henrolled⟩

/-- The consumer sends back the CONNECT it has received. -/
def connectSentBack : List Event :=
  beforeRequest ++ [.recv 0, .send 0 (ClientMessage.ofType 5 .connect)
    (some { message := ClientMessage.ofType 5 .connect, origin := 0 })]

theorem crashed_iff_connectSentBack :
    ∃ w, (exclusiveMachine .tcp .little).run connectSentBack = some w ∧ w.crash ≠ none ∧
      (w.crash ≠ none ↔ ∃ front socket message inReplyTo v k,
        connectSentBack = front ++ [.send socket message inReplyTo] ∧
        (exclusiveMachine .tcp .little).run front = some v ∧ message.body = none ∧
        k ∈ v.holders socket message.sid ∧ Enrolled v k) :=
  ⟨_, rfl, Option.some_ne_none _, crashed_iff .tcp .little connectSentBack _ rfl⟩

end World
end PlaySocket
