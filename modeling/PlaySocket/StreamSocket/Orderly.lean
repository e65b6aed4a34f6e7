import PlaySocket.StreamSocket.Moves

/-!
# The order of the connections

Connections that share a native handle come one after another.  In the order of
their `onConnected`, every one but the last is done.  So a connection that is not
done is the last holder of its handle.
-/

namespace PlaySocket
namespace World

open Connection

variable {native : Endian} {w w' : World} {event : Event}

structure Orderly (native : Endian) (w : World) : Prop where
  shape : InShape native w
  mem_opened : ∀ k, k ∈ w.opened ↔
    (w.connections k).phase = .connected ∨ (w.connections k).phase = .disconnected
  nodup : w.opened.Nodup
  exclusive : w.opened.Pairwise fun j k =>
    (w.connections j).handle = (w.connections k).handle → (w.connections j).Done
  crash_ne : ∀ fault, w.crash ≠ some (.callback fault)

theorem init_orderly (native : Endian) : Orderly native init where
  shape _ := .absent rfl rfl
  mem_opened k := by
    constructor
    · intro h
      cases h
    · intro h
      rcases h with h | h
      · cases h
      · cases h
  nodup := List.nodup_nil
  exclusive := List.Pairwise.nil
  crash_ne _ h := nomatch h

theorem Orderly.phase_cases (h : Orderly native w) {k : ConnectionId} (hk : k ∈ w.opened) :
    (w.connections k).phase = .connected ∨ (w.connections k).phase = .disconnected :=
  (h.mem_opened k).mp hk

theorem Orderly.mem_of_ready (h : Orderly native w) {k : ConnectionId} (hready : w.Ready k) :
    k ∈ w.opened :=
  (h.mem_opened k).mpr (.inl hready.1)

theorem Orderly.not_mem_of_phase (h : Orderly native w) {k : ConnectionId} {phase : Phase}
    (hphase : (w.connections k).phase = phase)
    (hclosed : ¬(phase = .connected ∨ phase = .disconnected)) : k ∉ w.opened := by
  intro hk
  apply hclosed
  rw [← hphase]
  exact h.phase_cases hk

/-- Only an open connection has effects pending. -/
theorem Orderly.mem_of_pending (h : Orderly native w) {k : ConnectionId} {e : Effect}
    {rest : List Effect} (hpending : (w.connections k).pending = e :: rest) : k ∈ w.opened := by
  rcases ((h.shape k).head hpending).2 with hc | hd
  · exact (h.mem_opened k).mpr (.inl hc.1)
  · exact (h.mem_opened k).mpr (.inr hd.1)

theorem not_done_of_ready {k : ConnectionId} (h : w.Ready k) : ¬(w.connections k).Done := by
  intro hdone
  have hphase := hdone.1
  rw [h.1] at hphase
  cases hphase

theorem not_done_of_pending {k : ConnectionId} {e : Effect} {rest : List Effect}
    (h : (w.connections k).pending = e :: rest) : ¬(w.connections k).Done := by
  intro hdone
  rw [hdone.2] at h
  cases h

/-! ## What a step leaves alone -/

/-- An open connection keeps its server and its handle, and a done one stays as
it is. -/
theorem Change.frame {k : ConnectionId} {c c' : Connection} (h : Change native k c c')
    (hc : c.phase = .connected ∨ c.phase = .disconnected) :
    c'.server = c.server ∧ c'.handle = c.handle ∧ (c.Done → c' = c) := by
  cases h with
  | same => exact ⟨rfl, rfl, fun _ => rfl⟩
  | accept socket hphase =>
    rw [hphase] at hc
    exact absurd hc (by decide)
  | connect _ hphase =>
    rw [hphase] at hc
    exact absurd hc (by decide)
  | callback _ hpending hphase hcontinues =>
    refine ⟨hcontinues.server, hcontinues.handle, fun hdone => ?_⟩
    rw [hdone.1] at hphase
    cases hphase
  | effect e rest hpending =>
    refine ⟨rfl, rfl, fun hdone => ?_⟩
    rw [hdone.2] at hpending
    cases hpending

theorem Change.shape {k : ConnectionId} {c c' : Connection} (h : Change native k c c')
    (hc : Shape native k c) : Shape native k c' := by
  cases h with
  | same => exact hc
  | accept socket hphase => exact .accepted rfl rfl rfl rfl
  | connect _ hphase hshape => exact hshape
  | callback _ hpending hphase hcontinues => exact hcontinues.shape
  | effect e rest hpending => exact (hc.head hpending).1

theorem Move.frame (hmove : Move native w event w') (h : Orderly native w) {j : ConnectionId}
    (hj : j ∈ w.opened) :
    (w'.connections j).server = (w.connections j).server ∧
      (w'.connections j).handle = (w.connections j).handle ∧
      ((w.connections j).Done → w'.connections j = w.connections j) :=
  (hmove.change j).frame (h.phase_cases hj)

theorem Move.shape (hmove : Move native w event w') (h : InShape native w) : InShape native w' :=
  fun j => (hmove.change j).shape (h j)

theorem Move.orderly (hmove : Move native w event w') (h : Orderly native w) :
    Orderly native w' := by
  have hshape := hmove.shape h.shape
  have hpairwise : w.opened.Pairwise fun j k =>
      (w'.connections j).handle = (w'.connections k).handle → (w'.connections j).Done := by
    refine h.exclusive.imp_of_mem fun hj hk hdone heq => ?_
    obtain ⟨_, hhandle, hsame⟩ := hmove.frame h hj
    obtain ⟨_, hhandle', _⟩ := hmove.frame h hk
    have hd := hdone (hhandle.symm.trans (heq.trans hhandle'))
    rw [hsame hd]
    exact hd
  cases hmove with
  | accept k socket hphase =>
    refine ⟨hshape, fun j => ?_, h.nodup, hpairwise, h.crash_ne⟩
    by_cases heq : j = k
    · rw [heq, setConnection_self]
      refine ⟨fun hk => absurd hk (h.not_mem_of_phase hphase (by decide)), fun hc => ?_⟩
      rcases hc with hc | hc
      · cases hc
      · cases hc
    · rw [setConnection_ne w heq]
      exact h.mem_opened j
  | connect k c' hphase hserver hphase' hshape' hstream hexclusive =>
    have hk := h.not_mem_of_phase hphase (by decide)
    refine ⟨hshape, fun j => ?_, ?_, ?_, h.crash_ne⟩
    · show j ∈ w.opened ++ [k] ↔ _
      rw [List.mem_append, List.mem_singleton]
      by_cases heq : j = k
      · rw [heq, setConnection_self]
        exact ⟨fun _ => .inl hphase', fun _ => .inr rfl⟩
      · rw [setConnection_ne _ heq]
        exact ⟨fun hj => (h.mem_opened j).mp (hj.resolve_right heq),
          fun hj => .inl ((h.mem_opened j).mpr hj)⟩
    · show (w.opened ++ [k]).Nodup
      rw [List.nodup_append]
      refine ⟨h.nodup, List.nodup_singleton k, fun j hj j' hj' heq => ?_⟩
      rw [List.mem_singleton.mp hj'] at heq
      exact hk (heq ▸ hj)
    · show (w.opened ++ [k]).Pairwise _
      rw [List.pairwise_append]
      refine ⟨hpairwise, List.pairwise_singleton _ k, fun j hj j' hj' heq => ?_⟩
      rw [List.mem_singleton.mp hj'] at heq
      have hne : j ≠ k := fun hjk => hk (hjk ▸ hj)
      rw [setConnection_self, setConnection_ne _ hne] at heq
      rw [setConnection_ne _ hne]
      exact hexclusive j hj heq
  | callback k c' hready hcontinues =>
    refine ⟨hshape, fun j => ?_, h.nodup, hpairwise, h.crash_ne⟩
    by_cases heq : j = k
    · rw [heq, setConnection_self]
      exact ⟨fun _ => hcontinues.phase, fun _ => h.mem_of_ready hready⟩
    · rw [setConnection_ne w heq]
      exact h.mem_opened j
  | effect k e rest hpending =>
    refine ⟨hshape, fun j => ?_, h.nodup, hpairwise, h.crash_ne⟩
    show j ∈ w.opened ↔ ((w.setConnection k _).connections j).phase = _ ∨
      ((w.setConnection k _).connections j).phase = _
    by_cases heq : j = k
    · rw [heq, setConnection_self]
      exact h.mem_opened k
    · rw [setConnection_ne w heq]
      exact h.mem_opened j
  | recv socket received rest hqueue =>
    exact ⟨hshape, h.mem_opened, h.nodup, hpairwise, h.crash_ne⟩
  | send socket message inReplyTo session body hmay hfound =>
    exact ⟨hshape, h.mem_opened, h.nodup, hpairwise, h.crash_ne⟩
  | still crash hstill =>
    refine ⟨hshape, h.mem_opened, h.nodup, hpairwise, fun fault heq => ?_⟩
    cases hstill with
    | nothingQueued | nobodyFound => exact h.crash_ne fault heq
    | bodyMissing => cases heq

/-- Every run of the wired server under exclusive handles is orderly. -/
theorem run_orderly {t : Transport} {events : List Event}
    (hrun : (exclusiveMachine t native).run events = some w) : Orderly native w :=
  Machine.invariant (init_orderly native)
    (fun _ _ _ h hstep => (step_move h.shape hstep).orderly h) hrun

end World
end PlaySocket
