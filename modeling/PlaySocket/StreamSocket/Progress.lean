import Mathlib.Algebra.BigOperators.Group.List.Basic
import PlaySocket.StreamSocket.Registry

/-!
# Nothing is left behind

What a callback leaves pending is carried out one effect at a time, and what is
queued is taken out one entry at a time.  `due` counts the steps that are owed to
a connection: one for an effect, one more if it is a push, for its entry is still
to be dequeued, and one for each entry in the queue.

Every such step lowers the count by one.  So with no new callbacks the effects and
the `recv` calls come to an end after the same number of steps in every order, and
then the consumer has the whole stream of every connection.
-/

namespace PlaySocket
namespace World

open Connection

variable {t : Transport} {native : Endian} {w w' : World}

/-- The steps that finish what was begun. -/
def finishing (w : World) : Event → Bool
  | .effect _ => true
  | .recv socket => decide ((w.sockets socket).recvBuffer ≠ [])
  | _ => false

end World

/-- The wired server when nothing new comes in. -/
def drainMachine (t : Transport) (native : Endian) : Machine World Event :=
  (exclusiveMachine t native).restrict World.finishing

namespace World

open Connection

variable {t : Transport} {native : Endian} {w w' : World}

def due (w : World) (k : ConnectionId) : Nat :=
  (w.connections k).pending.length + (pushes (w.connections k).pending).length +
    (sentBy k (w.sockets (w.connections k).server).recvBuffer).length

def backlog (w : World) : Nat := (w.opened.map w.due).sum

def Drained (w : World) : Prop :=
  (∀ k, (w.connections k).pending = []) ∧ ∀ socket, (w.sockets socket).recvBuffer = []

theorem backlog_lowered (hopened : w'.opened = w.opened) (hnodup : w.opened.Nodup)
    {k : ConnectionId} (hk : k ∈ w.opened) (hself : w'.due k + 1 = w.due k)
    (hother : ∀ j ∈ w.opened, j ≠ k → w'.due j = w.due j) : w'.backlog + 1 = w.backlog := by
  have hrest : (w.opened.erase k).map w'.due = (w.opened.erase k).map w.due := by
    refine List.map_congr_left fun j hj => ?_
    obtain ⟨hne, hmem⟩ := hnodup.mem_erase_iff.mp hj
    exact hother j hmem hne
  rw [backlog, backlog, hopened, ← List.sum_map_erase w'.due hk, ← List.sum_map_erase w.due hk,
    hrest]
  omega

/-- What a finishing step does. -/
inductive Finish (w : World) : World → Prop where
  | effect (k : ConnectionId) (e : Effect) (rest : List Effect)
      (hpending : (w.connections k).pending = e :: rest) :
      Finish w { w.setConnection k { w.connections k with pending := rest } with
        sockets := carryOut .tcp k w.sockets e }
  | recv (socket : SocketId) (received : Received) (rest : List Received)
      (hqueue : (w.sockets socket).recvBuffer = received :: rest) :
      Finish w { w with
        sockets := Function.update w.sockets socket { w.sockets socket with recvBuffer := rest }
        dequeued := Function.update w.dequeued socket (w.dequeued socket ++ [received]) }

theorem finishing_of_calls {e : Event} {k : ConnectionId} (h : calls e = some k) :
    w.finishing e = false := by
  cases e with
  | received | error | disconnected => rfl
  | accept | connected | effect | recv | send => cases h

theorem step_finish {e : Event} (hshape : InShape native w)
    (hstep : (drainMachine t native).step w e = some w') : Finish w w' ∧ w.crash = none := by
  obtain ⟨hfinishing, hstep⟩ := Machine.step_of_restrict hstep
  refine ⟨?_, crash_of_step (Machine.step_of_restrict hstep).2⟩
  cases step_move hshape hstep with
  | effect k e rest hpending => exact .effect k e rest hpending
  | recv socket received rest hqueue => exact .recv socket received rest hqueue
  | accept | connect | send => cases hfinishing
  | callback k c' hready hcontinues hcalls =>
    rw [finishing_of_calls hcalls] at hfinishing
    cases hfinishing
  | still crash hstill =>
    cases hstill with
    | nothingQueued socket hqueue => exact absurd hqueue (of_decide_eq_true hfinishing)
    | nobodyFound | bodyMissing => cases hfinishing

theorem Finish.stream (native : Endian) (h : Finish w w') (k : ConnectionId) :
    (w'.connections k).stream native = (w.connections k).stream native ∧
      (w'.connections k).server = (w.connections k).server := by
  cases h with
  | effect j e rest hpending =>
    show ((w.setConnection j _).connections k).stream native = _ ∧
      ((w.setConnection j _).connections k).server = _
    by_cases heq : k = j
    · rw [heq, setConnection_self]
      exact ⟨rfl, rfl⟩
    · rw [setConnection_ne w heq]
      exact ⟨rfl, rfl⟩
  | recv socket received rest hqueue => exact ⟨rfl, rfl⟩

theorem Finish.opened_eq (h : Finish w w') : w'.opened = w.opened := by
  cases h <;> rfl

theorem Finish.lowers (h : Finish w w') (hann : Announcing native w) :
    w'.backlog + 1 = w.backlog := by
  have horderly := hann.replying.orderly
  cases h with
  | effect k e rest hpending =>
    refine backlog_lowered rfl horderly.nodup (horderly.mem_of_pending hpending) ?_ ?_
    · show ((w.setConnection k _).connections k).pending.length +
        (pushes ((w.setConnection k _).connections k).pending).length +
        (sentBy k (carryOut .tcp k w.sockets e
          ((w.setConnection k _).connections k).server).recvBuffer).length + 1 = _
      rw [setConnection_self, carryOut_recvBuffer, sentBy_append, List.length_append, due,
        hpending, pushes_cons, List.length_append, List.length_cons]
      change rest.length + (pushes rest).length +
        ((sentBy k (w.sockets (w.connections k).server).recvBuffer).length +
          (sentBy k (queuedBy k (w.connections k).server e)).length) + 1 = _
      rw [horderly.sentBy_queuedBy hpending]
      omega
    · intro j hj hne
      show ((w.setConnection k _).connections j).pending.length +
        (pushes ((w.setConnection k _).connections j).pending).length +
        (sentBy j (carryOut .tcp k w.sockets e
          ((w.setConnection k _).connections j).server).recvBuffer).length = _
      have hnone : sentBy j (queuedBy k (w.connections j).server e) = [] :=
        sentBy_eq_nil fun r hr horigin => hne (horigin.symm.trans (origin_of_queuedBy hr))
      rw [setConnection_ne w hne, carryOut_recvBuffer, sentBy_append, hnone, List.append_nil]
      rfl
  | recv socket received rest hqueue =>
    have hmem : received ∈ w.dequeued socket ++ (w.sockets socket).recvBuffer := by
      rw [hqueue]
      exact List.mem_append_right _ List.mem_cons_self
    obtain ⟨hk, hserver, _⟩ := hann.replying.origins socket received hmem
    have hsplit : ∀ j, sentBy j (received :: rest) = sentBy j [received] ++ sentBy j rest :=
      fun j => sentBy_append j [received] rest
    refine backlog_lowered rfl horderly.nodup hk ?_ ?_
    · show (w.connections received.origin).pending.length +
        (pushes (w.connections received.origin).pending).length +
        (sentBy received.origin (Function.update w.sockets socket
          { w.sockets socket with recvBuffer := rest }
          (w.connections received.origin).server).recvBuffer).length + 1 = _
      have hone : sentBy received.origin [received] = [received.message] := by
        rw [sentBy, List.filter_singleton, decide_eq_true rfl]
        rfl
      rw [due, hserver, Function.update_self, hqueue, hsplit, hone, List.length_append,
        List.length_singleton]
      change _ + (sentBy received.origin rest).length + 1 = _
      omega
    · intro j hj hne
      show (w.connections j).pending.length + _ + (sentBy j (Function.update w.sockets socket _
        (w.connections j).server).recvBuffer).length = _
      rw [due]
      by_cases heq : (w.connections j).server = socket
      · have hnone : sentBy j [received] = [] :=
          sentBy_eq_nil fun r hr horigin => by
            rw [List.mem_singleton.mp hr] at horigin
            exact hne horigin.symm
        rw [heq, Function.update_self, hqueue, hsplit, hnone, List.nil_append]
      · rw [Function.update_of_ne heq]

/-- Who is owed a step can be given it. -/
theorem exists_finishing (t : Transport) (native : Endian) (hcrash : w.crash = none)
    (hbacklog : w.backlog ≠ 0) : ∃ e w', (drainMachine t native).step w e = some w' := by
  have hstep : ∀ e, w.finishing e = true → w.exclusive e = true →
      (drainMachine t native).step w e = w.perform t native t.sessionOfSocket e := by
    intro e hfinishing hexclusive
    rw [drainMachine, Machine.step_restrict hfinishing, exclusiveMachine,
      Machine.step_restrict hexclusive]
    show World.step t native t.sessionOfSocket w e = _
    rw [World.step, hcrash]
  by_cases hpending : ∃ k, (w.connections k).pending ≠ []
  · obtain ⟨k, hk⟩ := hpending
    obtain ⟨e, rest, hcons⟩ := List.exists_cons_of_ne_nil hk
    refine ⟨.effect k, ?_⟩
    rw [hstep (.effect k) rfl rfl]
    simp only [perform, hcons]
    exact ⟨_, rfl⟩
  · by_cases hqueue : ∃ socket, (w.sockets socket).recvBuffer ≠ []
    · obtain ⟨socket, hsocket⟩ := hqueue
      obtain ⟨received, rest, hcons⟩ := List.exists_cons_of_ne_nil hsocket
      refine ⟨.recv socket, ?_⟩
      rw [hstep (.recv socket) (decide_eq_true hsocket) rfl]
      simp only [perform, t.recv_eq, StreamSocket.recv, hcons]
      exact ⟨_, rfl⟩
    · refine absurd (List.sum_eq_zero fun n hn => ?_) hbacklog
      obtain ⟨k, _, rfl⟩ := List.mem_map.mp hn
      have hk : (w.connections k).pending = [] := by
        by_contra hne
        exact hpending ⟨k, hne⟩
      have hq : (w.sockets (w.connections k).server).recvBuffer = [] := by
        by_contra hne
        exact hqueue ⟨_, hne⟩
      rw [due, hk, hq]
      rfl

/-- A world that owes nothing to an open connection owes nothing at all. -/
theorem Announcing.drained (h : Announcing native w) (hzero : w.backlog = 0) : Drained w := by
  have horderly := h.replying.orderly
  have hdue : ∀ k ∈ w.opened, w.due k = 0 := fun k hk =>
    List.sum_eq_zero_iff_forall_eq_nat.mp hzero (w.due k) (List.mem_map_of_mem hk)
  refine ⟨fun k => ?_, fun socket => ?_⟩
  · cases hpending : (w.connections k).pending with
    | nil => rfl
    | cons e rest =>
      have hk := hdue k (horderly.mem_of_pending hpending)
      rw [due, hpending, List.length_cons] at hk
      omega
  · cases hqueue : (w.sockets socket).recvBuffer with
    | nil => rfl
    | cons received rest =>
      obtain ⟨hopened, hserver, _⟩ := h.replying.origins socket received (by
        rw [hqueue]
        exact List.mem_append_right _ List.mem_cons_self)
      have hk := hdue received.origin hopened
      have hmem : received.message ∈
          sentBy received.origin (w.sockets (w.connections received.origin).server).recvBuffer :=
        mem_sentBy.mpr ⟨received, by rw [hserver, hqueue]; exact List.mem_cons_self, rfl, rfl⟩
      have hpos := List.length_pos_of_mem hmem
      rw [due] at hk
      omega

theorem Drained.backlog_eq (h : Drained w) : w.backlog = 0 := by
  refine List.sum_eq_zero fun n hn => ?_
  obtain ⟨k, _, rfl⟩ := List.mem_map.mp hn
  rw [due, h.1 k, h.2]
  rfl

/-- The backlog is the number of finishing steps that are left. -/
theorem drainMachine_ranked (t : Transport) (native : Endian) :
    (drainMachine t native).Ranked (fun w => Announcing native w ∧ w.crash = none) backlog where
  keeps h hstep := by
    obtain ⟨_, hexclusive⟩ := Machine.step_of_restrict hstep
    refine ⟨step_announcing h.1 hexclusive, ?_⟩
    obtain ⟨hfinish, hcrash⟩ := step_finish h.1.replying.orderly.shape hstep
    cases hfinish <;> exact hcrash
  lowers h hstep := (step_finish h.1.replying.orderly.shape hstep).1.lowers h.1
  moves h hrank := exists_finishing t native h.2 hrank

theorem runFrom_stream {events : List Event} :
    ∀ {w w' : World}, Announcing native w → (drainMachine t native).runFrom w events = some w' →
      w'.opened = w.opened ∧ ∀ k, (w'.connections k).stream native =
        (w.connections k).stream native ∧ (w'.connections k).server = (w.connections k).server := by
  induction events with
  | nil =>
    intro w w' _ hrun
    cases hrun
    exact ⟨rfl, fun k => ⟨rfl, rfl⟩⟩
  | cons e events ih =>
    intro w w' h hrun
    obtain ⟨w₁, hstep, hrest⟩ := Option.bind_eq_some_iff.mp hrun
    have hfinish := (step_finish h.replying.orderly.shape hstep).1
    obtain ⟨hopened, hstreams⟩ :=
      ih (step_announcing h (Machine.step_of_restrict hstep).2) hrest
    refine ⟨hopened.trans hfinish.opened_eq, fun k => ?_⟩
    obtain ⟨hstream, hserver⟩ := hfinish.stream native k
    exact ⟨(hstreams k).1.trans hstream, (hstreams k).2.trans hserver⟩

/-- From every state a run reaches without a crash, the effects and the `recv`
calls alone can be run to an end.  In whatever order they come they make at most
`backlog` steps, after fewer there is always another one, and after as many
nothing is pending or queued and the consumer has the whole stream of every
connection. -/
theorem backlog_drains (t : Transport) (native : Endian) (events : List Event) (w : World)
    (hrun : (exclusiveMachine t native).run events = some w) (hcrash : w.crash = none) :
    (∃ more w', (drainMachine t native).runFrom w more = some w' ∧ Drained w') ∧
      ∀ more w', (drainMachine t native).runFrom w more = some w' →
        more.length ≤ w.backlog ∧
        (more.length < w.backlog → ∃ e w'', (drainMachine t native).step w' e = some w'') ∧
        (more.length = w.backlog ↔ Drained w') ∧
        (Drained w' → ∀ k ∈ w.opened,
          sentBy k (w'.dequeued (w.connections k).server) = (w.connections k).stream native) := by
  have hranked := drainMachine_ranked t native
  have hstart : Announcing native w ∧ w.crash = none := ⟨run_announcing hrun, hcrash⟩
  constructor
  · obtain ⟨more, w', hmore, hzero⟩ := hranked.exhausts hstart
    exact ⟨more, w', hmore, (hranked.runFrom more hstart hmore).1.1.drained hzero⟩
  · intro more w' hmore
    obtain ⟨hend, hlength⟩ := hranked.runFrom more hstart hmore
    refine ⟨by omega, fun hlt => hranked.moves hend (by omega), ⟨fun heq => ?_, fun h => ?_⟩,
      fun hdrained k hk => ?_⟩
    · exact hend.1.drained (by omega)
    · have hzero := h.backlog_eq
      omega
    obtain ⟨hopened, hstreams⟩ := runFrom_stream hstart.1 hmore
    have hlaw := hend.1.published k (hopened ▸ hk)
    rw [published, hdrained.2, hdrained.1, List.append_nil, (hstreams k).1, (hstreams k).2] at hlaw
    exact (hlaw.trans (List.append_nil _)).symm

/-- A connection that was announced and closed before the consumer looked. -/
def closedEarly : List Event :=
  [.accept 0 0, .connected 0 5, .effect 0, .effect 0, .disconnected 0]

theorem backlog_drains_closedEarly :
    ∃ w, (exclusiveMachine .tcp .little).run closedEarly = some w ∧ w.backlog = 4 ∧
      (∃ more w', (drainMachine .tcp .little).runFrom w more = some w' ∧ Drained w') ∧
      ∀ more w', (drainMachine .tcp .little).runFrom w more = some w' →
        more.length ≤ w.backlog ∧
        (more.length < w.backlog → ∃ e w'', (drainMachine .tcp .little).step w' e = some w'') ∧
        (more.length = w.backlog ↔ Drained w') ∧
        (Drained w' → ∀ k ∈ w.opened,
          sentBy k (w'.dequeued (w.connections k).server) =
            (w.connections k).stream .little) :=
  ⟨_, rfl, rfl, backlog_drains .tcp .little closedEarly _ rfl rfl⟩

end World
end PlaySocket
