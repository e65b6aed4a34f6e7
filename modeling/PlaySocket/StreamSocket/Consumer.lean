import PlaySocket.StreamSocket.Progress

/-!
# What a consumer may rely on

A consumer of `recv` keeps a table of its clients by their sids.  It enters a
client at its CONNECT, drops it at its DISCONNECT, and takes a message only from a
client it has entered.  `consumer` is that protocol: a message that comes out of
turn has no step.

For one sid the holders of the handle come one after another, and each is done
before the next is announced.  So the consumer never meets a message out of turn,
and once nothing is pending or queued its table is the clients that are connected.
-/

namespace PlaySocket

open Exec StreamParser

/-- The turn of one client. -/
def client : Machine Bool ClientMessage where
  init := false
  step here message :=
    match message.type with
    | .connect => if here then none else some true
    | .normal => if here then some true else none
    | .disconnect => if here then some false else none

def consumer : Machine (Int64 → Bool) ClientMessage := client.keyed ClientMessage.sid

namespace World

open Connection

variable {native : Endian} {w : World} {socket : SocketId} {sid : Int64}

theorem parsed_normal {chunks : List (List UInt8)} {message : ClientMessage}
    (h : message ∈ parsed native sid chunks) : message.type = .normal := by
  obtain ⟨f, _, rfl⟩ := List.mem_map.mp ((parsed_of_stream native sid chunks).subset h)
  rfl

theorem client_normal {messages : List ClientMessage}
    (h : ∀ message ∈ messages, message.type = .normal) :
    client.runFrom true messages = some true := by
  induction messages with
  | nil => rfl
  | cons message messages ih =>
    have hstep : client.step true message = some true := by
      simp only [client, h message List.mem_cons_self, if_true]
    rw [Machine.runFrom, hstep, Option.bind_some]
    exact ih fun m hm => h m (List.mem_cons_of_mem message hm)

/-- The stream of a connection is one turn, over if the connection is closed. -/
theorem client_stream (native : Endian) (c : Connection) :
    client.runFrom false (c.stream native) = some (decide (c.phase ≠ .disconnected)) := by
  rw [Connection.stream, List.cons_append, Machine.runFrom]
  show client.runFrom true _ = _
  rw [Machine.runFrom_append, client_normal fun message => parsed_normal, Option.bind_some]
  by_cases hphase : c.phase = .disconnected
  · rw [if_pos hphase, decide_eq_false (not_not_intro hphase)]
    rfl
  · rw [if_neg hphase, decide_eq_true hphase]
    rfl

/-- Turns of connections that are done, and one more. -/
theorem client_streams (native : Endian) {holders : List ConnectionId}
    (h : holders.Pairwise fun j _ => (w.connections j).Done) :
    client.runFrom false (holders.flatMap fun k => (w.connections k).stream native) =
      some (decide (∃ k ∈ holders, (w.connections k).phase ≠ .disconnected)) := by
  induction holders with
  | nil => rfl
  | cons k holders ih =>
    obtain ⟨hdone, hrest⟩ := List.pairwise_cons.mp h
    rw [List.flatMap_cons, Machine.runFrom_append, client_stream, Option.bind_some]
    cases holders with
    | nil => simp [Machine.runFrom]
    | cons j holders =>
      have hphase := (hdone j List.mem_cons_self).1
      rw [decide_eq_false (not_not_intro hphase), ih hrest]
      simp [hphase]

theorem ofSid_eq_filter (sid : Int64) (entries : List Received) :
    ofSid sid entries =
      (entries.map Received.message).filter fun message => decide (message.sid = sid) := by
  rw [List.filter_map]
  rfl

theorem Drained.waiting_eq (h : Drained w) (socket : SocketId) (sid : Int64) :
    waiting w socket sid = [] :=
  List.flatMap_eq_nil_iff.mpr fun k _ => by rw [h.1 k]; rfl

/-- Nothing that `recv` returns is out of turn.  A client is announced once before
it is heard, and heard no more once it has left, until another one is announced
under its sid.  When nothing is pending or queued the clients in the table are
those that are connected. -/
theorem consumer_in_turn (t : Transport) (native : Endian) (events : List Event) (w : World)
    (hrun : (exclusiveMachine t native).run events = some w) (socket : SocketId) :
    ∃ table, consumer.run ((w.dequeued socket).map Received.message) = some table ∧
      (Drained w → ∀ sid, table sid = true ↔ ∃ k ∈ w.opened,
        (w.connections k).server = socket ∧ (w.connections k).handle = sid ∧
          (w.connections k).phase = .connected) := by
  have horderly := run_orderly hrun
  have hlaw := run_accounts hrun socket
  have hstreams := fun sid => client_streams native (horderly.holders_pairwise socket sid)
  have hturn : ∀ sid, ∃ here, client.runFrom false (ofSid sid (w.dequeued socket)) = some here := by
    intro sid
    have hrun := hstreams sid
    rw [← streams, hlaw sid, Machine.runFrom_append] at hrun
    obtain ⟨here, hfront, _⟩ := Option.bind_eq_some_iff.mp hrun
    exact ⟨here, hfront⟩
  choose table htable using hturn
  refine ⟨table, ?_, fun hdrained sid => ?_⟩
  · refine (Machine.runFrom_keyed_iff client ClientMessage.sid _ _ _).mpr fun sid => ?_
    rw [← ofSid_eq_filter]
    exact htable sid
  · have hall := hstreams sid
    rw [← streams, hlaw sid, hdrained.2, hdrained.waiting_eq] at hall
    change client.runFrom false (ofSid sid (w.dequeued socket) ++ []) = _ at hall
    rw [List.append_nil, htable sid] at hall
    rw [Option.some.inj hall, decide_eq_true_iff]
    constructor
    · rintro ⟨k, hk, hphase⟩
      obtain ⟨hopened, hserver, hhandle⟩ := mem_holders.mp hk
      exact ⟨k, hopened, hserver, hhandle, (horderly.phase_cases hopened).resolve_right hphase⟩
    · rintro ⟨k, hopened, hserver, hhandle, hphase⟩
      refine ⟨k, mem_holders.mpr ⟨hopened, hserver, hhandle⟩, ?_⟩
      rw [hphase]
      decide

/-- The second holder of a handle is the client in the table. -/
theorem consumer_in_turn_secondStays :
    ∃ w, (exclusiveMachine .ws .little).run secondStays = some w ∧ (w.dequeued 0).length = 3 ∧
      ∃ table, consumer.run ((w.dequeued 0).map Received.message) = some table ∧
        (Drained w → ∀ sid, table sid = true ↔ ∃ k ∈ w.opened,
          (w.connections k).server = 0 ∧ (w.connections k).handle = sid ∧
            (w.connections k).phase = .connected) :=
  ⟨_, rfl, rfl, consumer_in_turn .ws .little secondStays _ rfl 0⟩

end World
end PlaySocket
