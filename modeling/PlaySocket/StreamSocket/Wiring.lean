import PlaySocket.StreamSocket.Machine

/-!
# Sessions without a socket

`createSession` calls the constructor that `Session` inherits from the framework
and not the one that takes the socket.  The session it makes has a null socket
pointer, and `onConnected` follows it.  So the server works as long as nobody
connects.
-/

namespace PlaySocket
namespace World

open Exec

/-- No callback has followed a null pointer, and whatever was pushed on the
queue of a socket came from a connection its own server accepted. -/
def WellWired (w : World) : Prop :=
  (∀ fault, w.crash ≠ some (.callback fault)) ∧
    ∀ socket, ∀ r ∈ w.dequeued socket ++ (w.sockets socket).recvBuffer,
      (w.connections r.origin).server = socket

/-- A world in which no callback has run. -/
structure Quiet (w : World) : Prop where
  phase : ∀ k, (w.connections k).phase = .absent ∨ (w.connections k).phase = .accepted
  socket_null : ∀ k, (w.connections k).session.socket = none
  pending_nil : ∀ k, (w.connections k).pending = []
  sockets_new : ∀ socket, w.sockets socket = StreamSocket.new
  dequeued_nil : ∀ socket, w.dequeued socket = []
  crash_none : w.crash = none

theorem init_quiet : Quiet init where
  phase _ := .inl rfl
  socket_null _ := rfl
  pending_nil _ := rfl
  sockets_new _ := rfl
  dequeued_nil _ := rfl
  crash_none := rfl

theorem Quiet.wellWired {w : World} (h : Quiet w) : WellWired w := by
  constructor
  · intro fault hcrash
    rw [h.crash_none] at hcrash
    cases hcrash
  · intro socket r hr
    rw [h.dequeued_nil, h.sockets_new] at hr
    cases hr

theorem Quiet.not_ready {w : World} (h : Quiet w) (k : ConnectionId) : ¬w.Ready k := by
  intro hready
  rcases h.phase k with hphase | hphase
  · rw [hready.1] at hphase
    cases hphase
  · rw [hready.1] at hphase
    cases hphase

/-- The only callback that can start is `onConnected`, and it crashes. -/
theorem Quiet.step {t : Transport} {native : Endian} {w w' : World} {e : Event} (h : Quiet w)
    (hstep : World.step t native t.createSession w e = some w') :
    (Quiet w' ∧ ∀ k nativeHandle, e ≠ .connected k nativeHandle) ∨
      w'.crash = some (.callback .nullPointer) ∧
        ∃ k nativeHandle, e = .connected k nativeHandle := by
  rw [World.step, h.crash_none] at hstep
  cases e with
  | accept k socket =>
    simp only [perform] at hstep
    split at hstep
    · cases hstep
      refine .inl ⟨?_, fun _ _ he => by cases he⟩
      refine { h with phase := fun j => ?_, socket_null := fun j => ?_, pending_nil := fun j => ?_ }
      · by_cases hj : j = k
        · rw [hj, setConnection_self]; exact .inr rfl
        · rw [setConnection_ne w hj]; exact h.phase j
      · by_cases hj : j = k
        · rw [hj, setConnection_self, t.createSession_eq]; rfl
        · rw [setConnection_ne w hj]; exact h.socket_null j
      · by_cases hj : j = k
        · rw [hj, setConnection_self]; rfl
        · rw [setConnection_ne w hj]; exact h.pending_nil j
    · cases hstep
  | connected k nativeHandle =>
    simp only [perform] at hstep
    split at hstep
    · cases hstep
      refine .inr ⟨?_, k, nativeHandle, rfl⟩
      simp only [start, t.onConnected_null (h.socket_null k) nativeHandle k]
    · cases hstep
  | received k buffer => simp only [perform, if_neg (h.not_ready k)] at hstep; cases hstep
  | error k => simp only [perform, if_neg (h.not_ready k)] at hstep; cases hstep
  | disconnected k => simp only [perform, if_neg (h.not_ready k)] at hstep; cases hstep
  | effect k => simp only [perform, h.pending_nil k] at hstep; cases hstep
  | recv socket =>
    simp only [perform, t.recv_eq, h.sockets_new, StreamSocket.recv, StreamSocket.new] at hstep
    cases hstep
    exact .inl ⟨h, fun _ _ he => by cases he⟩
  | send socket message inReplyTo =>
    simp only [perform, t.send_eq, h.sockets_new, StreamSocket.send, StreamSocket.new,
      AList.lookup_empty] at hstep
    split at hstep
    · cases hstep
      exact .inl ⟨{ h with }, fun _ _ he => by cases he⟩
    · cases hstep

/-- A run keeps every callback from null pointers and every message on the queue
of its own server exactly if no connection is ever announced to its session. -/
theorem wellWired_iff_nobody_connects (t : Transport) (native : Endian) (events : List Event)
    (w : World) (hrun : (serverMachine t native).run events = some w) :
    WellWired w ↔ ∀ k nativeHandle, Event.connected k nativeHandle ∉ events := by
  have hcases : (Quiet w ∧ ∀ k nativeHandle, Event.connected k nativeHandle ∉ events) ∨
      w.crash = some (.callback .nullPointer) ∧
        ∃ k nativeHandle, Event.connected k nativeHandle ∈ events := by
    refine Machine.run_induction (P := fun events w =>
      (Quiet w ∧ ∀ k nativeHandle, Event.connected k nativeHandle ∉ events) ∨
        w.crash = some (.callback .nullPointer) ∧
          ∃ k nativeHandle, Event.connected k nativeHandle ∈ events) ?_ ?_ hrun
    · exact .inl ⟨init_quiet, fun _ _ => List.not_mem_nil⟩
    · intro past w e w' hpast hstep
      rcases hpast with ⟨hquiet, hnone⟩ | ⟨hcrash, _⟩
      · rcases hquiet.step hstep with ⟨hquiet', hne⟩ | ⟨hcrash', k, nativeHandle, rfl⟩
        · refine .inl ⟨hquiet', fun k nativeHandle hmem => ?_⟩
          rcases List.mem_append.mp hmem with hold | hnew
          · exact hnone k nativeHandle hold
          · exact hne k nativeHandle (List.mem_singleton.mp hnew).symm
        · exact .inr ⟨hcrash', k, nativeHandle, List.mem_append_right _ (List.mem_singleton_self _)⟩
      · change World.step t native t.createSession w e = some w' at hstep
        rw [World.step, hcrash] at hstep
        cases hstep
  rcases hcases with ⟨hquiet, hnone⟩ | ⟨hcrash, k, nativeHandle, hmem⟩
  · exact ⟨fun _ => hnone, fun _ => hquiet.wellWired⟩
  · constructor
    · intro hwired
      exact absurd hcrash (hwired.1 .nullPointer)
    · intro hnone
      exact absurd hmem (hnone k nativeHandle)

theorem wellWired_iff_nobody_connects_accepted :
    ∃ w, (serverMachine .ws .little).run [.accept 0 0, .accept 1 0, .recv 0] = some w ∧
      (WellWired w ↔ ∀ k nativeHandle,
        Event.connected k nativeHandle ∉ [.accept 0 0, .accept 1 0, .recv 0]) :=
  ⟨_, rfl, wellWired_iff_nobody_connects .ws .little _ _ rfl⟩

/-- The first client brings the server down. -/
theorem first_connection_crashes :
    (∃ w, (serverMachine .tcp .little).run [.accept 0 0, .connected 0 5] = some w ∧
      w.crash = some (.callback .nullPointer) ∧ ¬WellWired w) ∧
    ∃ w, (serverMachine .ws .little).run [.accept 0 0, .connected 0 5] = some w ∧
      w.crash = some (.callback .nullPointer) ∧ ¬WellWired w :=
  ⟨⟨_, rfl, rfl, fun h => h.1 .nullPointer rfl⟩, ⟨_, rfl, rfl, fun h => h.1 .nullPointer rfl⟩⟩

end World
end PlaySocket
