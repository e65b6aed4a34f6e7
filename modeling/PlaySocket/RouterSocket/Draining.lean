import Mathlib.Data.List.Dedup
import PlaySocket.RouterSocket.Network

/-!
# A router that keeps receiving

`recv` returns null for a multipart that is no message, as it does when there is
none, and the next call goes on behind it.  So a peer that calls `recv` often
enough gets every message that is on its way to it, whatever else is.
-/

namespace PlaySocket

open Exec

/-- A call returns what is on its way to the socket, if anything is. -/
def ZmqNetwork.Prompt {ε σ : Type} (net : ZmqNetwork ε σ) : Prop :=
  ∀ {b s a}, net.inFlight s a b ≠ [] →
    ∃ frames t, (net.socket b).recvMultipart.run s = .ok (some frames) t

namespace Routers

variable {ε σ : Type} {net : ZmqNetwork ε σ} {peers : List MessageT}

/-- The multiparts on their way to a peer from others. -/
def waiting (net : ZmqNetwork ε σ) (peers : List MessageT) (zmq : σ) (target : MessageT) : Nat :=
  (peers.map fun a => (net.inFlight zmq a target).length).sum

theorem sum_map_indicator {α : Type} [DecidableEq α] (x : α) (f : α → Nat) (xs : List α) :
    (xs.map fun a => (if x = a then 1 else 0) + f a).sum = xs.count x + (xs.map f).sum := by
  induction xs with
  | nil => rfl
  | cons y xs ih =>
    rw [List.map_cons, List.sum_cons, ih, List.map_cons, List.sum_cons]
    by_cases h : x = y
    · rw [if_pos h, h, List.count_cons_self]
      omega
    · rw [if_neg h, List.count_cons_of_ne fun heq => h heq.symm]
      omega

theorem waiting_taken (hnodup : peers.Nodup) {s t : σ} {sender target : MessageT}
    {rest : List MessageT} (hsender : sender ∈ peers) (h : net.Taken sender target rest s t) :
    waiting net peers s target = waiting net peers t target + 1 := by
  have hlength : ∀ a, (net.inFlight s a target).length =
      (if sender = a then 1 else 0) + (net.inFlight t a target).length := by
    intro a
    rw [h a target, List.length_append]
    by_cases ha : sender = a
    · rw [if_pos ⟨ha, rfl⟩, if_pos ha]
      rfl
    · rw [if_neg fun hboth => ha hboth.1, if_neg ha]
      rfl
  rw [waiting, waiting, List.map_congr_left fun a _ => hlength a, sum_map_indicator,
    List.count_eq_one_of_mem hnodup hsender]
  exact Nat.add_comm _ _

theorem quiet_of_waiting {zmq : σ} {target : MessageT}
    (hothers : ∀ a, a ∉ peers → net.inFlight zmq a target = [])
    (h : waiting net peers zmq target = 0) (a : MessageT) : net.inFlight zmq a target = [] := by
  by_cases ha : a ∈ peers
  · exact List.eq_nil_of_length_eq_zero
      (List.sum_eq_zero_iff_forall_eq_nat.mp h _ (List.mem_map_of_mem ha))
  · exact hothers a ha

/-- Only a peer that has acted has anything on its way. -/
theorem run_senders (hroutes : net.Routes) {zmq : σ} (hquiet : ∀ a b, net.inFlight zmq a b = [])
    {events : List RouterEvent} {s : Routers σ} (hrun : (machine net zmq).run events = some s) :
    ∀ a b, a ∉ events.map RouterEvent.peer → net.inFlight s.zmq a b = [] := by
  refine Machine.run_induction (P := fun events s =>
    ∀ a b, a ∉ events.map RouterEvent.peer → net.inFlight s.zmq a b = []) ?_ ?_ hrun
  · intro a b _
    exact hquiet a b
  · intro events s e t h hstep a b hnone
    rw [List.map_append, List.mem_append, not_or] at hnone
    have hbefore := h a b hnone.1
    cases step_effect hroutes hstep with
    | nothing hsame => exact (hsame a b).trans hbefore
    | routed hrouted =>
      rw [hrouted a b, hbefore, if_neg]
      · rfl
      · intro heq
        exact hnone.2 (List.mem_singleton.mpr heq.1.symm)
    | dropped _ hsame => exact (hsame a b).trans hbefore
    | taken htaken =>
      rw [htaken a b] at hbefore
      exact (List.append_eq_nil_iff.mp hbefore).2
    | severed peer other =>
      exact List.sublist_nil.mp (hbefore ▸ hroutes.sever_sublist peer other s.zmq a b)

/-- The step lemma: while anything is on its way to a peer, `recv` takes some of it. -/
theorem step_recv (hroutes : net.Routes) (hprompt : net.Prompt) {s : Routers σ}
    {a target : MessageT} (h : net.inFlight s.zmq a target ≠ []) :
    ∃ t sender rest, step net s (.recv target) = some t ∧ t.accepted = s.accepted ∧
      net.Taken sender target rest s.zmq t.zmq := by
  obtain ⟨frames, z, hcall⟩ := hprompt h
  obtain ⟨sender, rest, rfl, htaken⟩ := hroutes.recv_ok hcall
  rw [step, RouterSocket.recv_run, hcall]
  exact ⟨_, sender, rest, rfl, rfl, htaken⟩

theorem drain_run (hroutes : net.Routes) (hprompt : net.Prompt) (hnodup : peers.Nodup) (zmq : σ)
    (target : MessageT) (n : Nat) :
    ∀ s : Routers σ, (∀ a, a ∉ peers → net.inFlight s.zmq a target = []) →
      waiting net peers s.zmq target = n →
      ∃ t, (machine net zmq).runFrom s (List.replicate n (.recv target)) = some t ∧
        t.accepted = s.accepted ∧ ∀ a, net.inFlight t.zmq a target = [] := by
  induction n with
  | zero =>
    intro s hothers hwaiting
    exact ⟨s, rfl, rfl, quiet_of_waiting hothers hwaiting⟩
  | succ n ih =>
    intro s hothers hwaiting
    have hsome : ∃ a, net.inFlight s.zmq a target ≠ [] := by
      by_contra hnone
      push Not at hnone
      have hzero : waiting net peers s.zmq target = 0 := by
        refine List.sum_eq_zero_iff_forall_eq_nat.mpr fun n hmem => ?_
        obtain ⟨a, _, rfl⟩ := List.mem_map.mp hmem
        rw [hnone a]
        rfl
      omega
    obtain ⟨a, ha⟩ := hsome
    obtain ⟨s₁, sender, rest, hstep, haccepted, htaken⟩ := step_recv hroutes hprompt ha
    have hsender : sender ∈ peers := by
      by_contra hnone
      have hnil := hothers sender hnone
      rw [htaken sender target, if_pos ⟨rfl, rfl⟩] at hnil
      cases hnil
    have hothers₁ : ∀ a, a ∉ peers → net.inFlight s₁.zmq a target = [] := by
      intro a hnone
      have hnil := hothers a hnone
      rw [htaken a target] at hnil
      exact (List.append_eq_nil_iff.mp hnil).2
    have hlowered := waiting_taken hnodup hsender htaken
    obtain ⟨t, hrun, haccepted', hquiet⟩ := ih s₁ hothers₁ (by omega)
    refine ⟨t, ?_, haccepted'.trans haccepted, hquiet⟩
    rw [List.replicate_succ, Machine.runFrom]
    show (step net s (.recv target)).bind _ = _
    rw [hstep, Option.bind_some, hrun]

/-- After any run, as many calls of `recv` as there are multiparts on their way to
a peer leave none, and the peer has every message of each mandatory peer that its
connection with has never broken. -/
theorem routers_drain (hroutes : net.Routes) (hprompt : net.Prompt) (zmq : σ)
    (hquiet : ∀ a b, net.inFlight zmq a b = []) (events : List RouterEvent) (s : Routers σ)
    (hrun : (machine net zmq).run events = some s) (b : MessageT) :
    ∃ n t, (machine net zmq).runFrom s (List.replicate n (.recv b)) = some t ∧
      n = waiting net (events.map RouterEvent.peer).dedup s.zmq b ∧
      t.accepted = s.accepted ∧ (∀ a, net.inFlight t.zmq a b = []) ∧
      ∀ a, net.mandatory a = true → .sever a b ∉ events → .sever b a ∉ events →
        parcels t.received b a = parcels s.accepted a b := by
  have hothers : ∀ a, a ∉ (events.map RouterEvent.peer).dedup → net.inFlight s.zmq a b = [] := by
    intro a hnone
    exact run_senders hroutes hquiet hrun a b (mt List.mem_dedup.mpr hnone)
  obtain ⟨t, hdrain, haccepted, hnothing⟩ := drain_run hroutes hprompt (List.nodup_dedup _) zmq b
    _ s hothers rfl
  refine ⟨_, t, hdrain, rfl, haccepted, hnothing, fun a hmandatory hout hback => ?_⟩
  have hall : (machine net zmq).run
      (events ++ List.replicate (waiting net (events.map RouterEvent.peer).dedup s.zmq b)
        (.recv b)) = some t := by
    rw [Machine.run, Machine.runFrom_append]
    rw [Machine.run] at hrun
    rw [hrun, Option.bind_some, hdrain]
  have hcarries := run_carries hroutes hquiet hall a b
  have hkept : ∀ {x y}, .sever x y ∉ events → .sever x y ∉ events ++
      List.replicate (waiting net (events.map RouterEvent.peer).dedup s.zmq b) (.recv b) := by
    intro x y hnone hmem
    rcases List.mem_append.mp hmem with hold | hnew
    · exact hnone hold
    · cases List.eq_of_mem_replicate hnew
  have hexact := hcarries.complete ⟨hmandatory, hkept hout, hkept hback⟩
  rw [underway, hnothing a, List.filterMap_nil, List.append_nil, haccepted] at hexact
  exact hexact

theorem postOffice_prompt : postOffice.Prompt := by
  intro peer letters a h
  obtain ⟨l, hmem⟩ := List.exists_mem_of_ne_nil _ fun hnil =>
    h (List.map_eq_nil_iff.mpr hnil)
  obtain ⟨hmem, hbetween⟩ := List.mem_filter.mp hmem
  have hfor : l.isFor peer = true := decide_eq_true (Letter.isBetween_iff.mp hbetween).2
  rw [postOffice_recv]
  cases hfind : letters.find? (Letter.isFor peer) with
  | none => exact absurd hfor (List.find?_eq_none.mp hfind l hmem)
  | some l' => exact ⟨_, _, rfl⟩

/-- One more call after the two requests. -/
theorem routers_drain_twoRequests :
    ∃ n t, (machine postOffice []).runFrom afterTwoRequests
        (List.replicate n (.recv (address 1))) = some t ∧ n = 1 ∧
      t.accepted = afterTwoRequests.accepted ∧
      (∀ a, postOffice.inFlight t.zmq a (address 1) = []) ∧
      parcels t.received (address 1) (address 2) =
        parcels afterTwoRequests.accepted (address 2) (address 1) := by
  obtain ⟨n, t, hrun, hn, haccepted, hempty, hall⟩ :=
    routers_drain postOffice_routes postOffice_prompt [] (fun _ _ => rfl) twoRequests
      afterTwoRequests rfl (address 1)
  refine ⟨n, t, hrun, hn.trans (by decide +kernel), haccepted, hempty,
    hall (address 2) rfl ?_ ?_⟩
  · decide
  · decide

end Routers

end PlaySocket
