import PlaySocket.RingBuffer.Calls

/-!
# Calling `resizeBuffer` from outside

`push` only ever doubles, and the member function it calls is public.  Called
with more cells than there are bytes it keeps the queue.  Called with as many, it
leaves the header index one past the end, where the next byte will be stored.
Called with fewer, it stores past the end of the new vector.  It checks for none
of this, only for the maximum.
-/

namespace PlaySocket

open Exec Doubling

/-- A call from outside, on any public member function that may change the ring. -/
inductive PublicCall where
  | member (call : RingCall)
  | resizeBuffer (newCapacity : Nat)

namespace PublicCall

def exec : PublicCall → RingExec RingResult
  | member call => call.exec
  | resizeBuffer newCapacity => do
    RingBuffer.resizeBuffer newCapacity
    pure (.value .unit)

/-- A resize asks for more than the maximum, or for more than the bytes held. -/
def Roomy (s : RingBuffer) : PublicCall → Prop
  | member _ => True
  | resizeBuffer newCapacity => s.maxCapacity < newCapacity ∨ s.size < newCapacity

/-- Every resize of the run asks so of the ring it finds. -/
def AllRoomy : List PublicCall → RingBuffer → Prop
  | [], _ => True
  | call :: calls, s =>
    Roomy s call ∧ ∀ result t, outcome (call.exec.run s) = some (result, t) → AllRoomy calls t

end PublicCall

namespace RingBuffer

variable {s s' : RingBuffer} {c m : Nat} {items : List UInt8}

/-- A ring in working order, whatever was asked of it before. -/
def Usable (m : Nat) (s : RingBuffer) : Prop := ∃ c items, Holds s c m items

theorem resize_roomy (h : Holds s c m items) {newCapacity : Nat}
    (hroomy : m < newCapacity ∨ items.length < newCapacity) :
    (resizeBuffer newCapacity).run s = .thrown fullError s ∨
      ∃ t, (resizeBuffer newCapacity).run s = .ok () t ∧ Holds t newCapacity m items := by
  by_cases hover : m < newCapacity
  · exact .inl (resizeBuffer_over (h.maxCapacity_eq ▸ hover))
  · exact .inr (resizeBuffer_holds h (by omega) (by omega))

/-- The step lemma. -/
theorem roomy_usable (h : Usable m s) {call : PublicCall} (hroomy : call.Roomy s) :
    ∃ result t, outcome (call.exec.run s) = some (result, t) ∧ Usable m t := by
  obtain ⟨c, items, h⟩ := h
  cases call with
  | member call =>
    rcases exec_cases h call with hret | hthrown
    · obtain ⟨t, hrun, c', h', _⟩ := hret
      exact ⟨_, t, by rw [PublicCall.exec, hrun, outcome], c', _, h'⟩
    · obtain ⟨e, t, hrun, _, _, c', h', _⟩ := hthrown
      exact ⟨_, t, by rw [PublicCall.exec, hrun, outcome], c', _, h'⟩
  | resizeBuffer newCapacity =>
    rw [PublicCall.Roomy, h.maxCapacity_eq, h.size_eq] at hroomy
    rw [PublicCall.exec, run_bind]
    rcases resize_roomy h hroomy with hthrown | hret
    · rw [hthrown]
      exact ⟨_, s, rfl, c, items, h⟩
    · obtain ⟨t, hrun, h'⟩ := hret
      rw [hrun]
      exact ⟨_, t, rfl, _, items, h'⟩

theorem run_usable (calls : List PublicCall) :
    ∀ {s : RingBuffer}, Usable m s → PublicCall.AllRoomy calls s →
      ∃ results t, runAll (calls.map PublicCall.exec) s = some (results, t) ∧ Usable m t := by
  induction calls with
  | nil => intro s h _; exact ⟨[], s, rfl, h⟩
  | cons call calls ih =>
    intro s h hroomy
    obtain ⟨result, t, hcall, ht⟩ := roomy_usable h hroomy.1
    obtain ⟨results, t', hrun, ht'⟩ := ih ht (hroomy.2 result t hcall)
    refine ⟨result :: results, t', ?_, ht'⟩
    rw [List.map_cons, runAll_cons, hcall, Option.bind_some, hrun, Option.map_some]

/-! ## One resize -/

/-- The resize throws and changes nothing, or it keeps the queue, with indices
that fit the new vector, and whatever follows is a run of the queue. -/
def ResizeKeeps (m : Nat) (s : RingBuffer) (newCapacity : Nat) : Prop :=
  (∃ e, (resizeBuffer newCapacity).run s = .thrown e s) ∨
    ∃ t, (resizeBuffer newCapacity).run s = .ok () t ∧ t.capacity = newCapacity ∧
      t.contents = s.contents ∧ t.size = s.size ∧ t.readerIndex < newCapacity ∧
      t.headerIndex = (t.readerIndex + t.size) % newCapacity ∧
      ∀ ops : List RingOp, ∃ results t', runAll (ops.map RingOp.exec) t = some (results, t') ∧
        Valid t' ∧ runAll (ops.map (Fifo.exec (limit newCapacity m))) s.contents =
          some (results, t'.contents)

theorem resizeKeeps_of_roomy (h : Holds s c m items) {newCapacity : Nat}
    (hroomy : m < newCapacity ∨ items.length < newCapacity) : ResizeKeeps m s newCapacity := by
  rcases resize_roomy h hroomy with hthrown | hret
  · exact .inl ⟨_, hthrown⟩
  · obtain ⟨t, hrun, h'⟩ := hret
    have hcapacity := h'.capacity_eq
    have hreader := h'.readerIndex_lt
    have hheader := h'.headerIndex_eq
    rw [hcapacity] at hreader hheader
    refine .inr ⟨t, hrun, hcapacity, h'.contents_eq.trans h.contents_eq.symm,
      h'.size_eq.trans h.size_eq.symm, hreader, hheader, fun ops => ?_⟩
    obtain ⟨results, t', items', hring, hqueue, hstep⟩ :=
      Sim.runAll (fun op => exec_inStep (m := m) op) ops t items ⟨newCapacity, h', rfl⟩
    obtain ⟨hvalid, _, hcontents⟩ := hstep.valid
    rw [h.contents_eq]
    exact ⟨results, t', hring, hvalid, by rw [hcontents]; exact hqueue⟩

theorem resizeKeeps_iff (h : Holds s c m items) (newCapacity : Nat) :
    ResizeKeeps m s newCapacity ↔ m < newCapacity ∨ items.length < newCapacity := by
  refine ⟨fun hkeeps => ?_, resizeKeeps_of_roomy h⟩
  by_contra hnot
  have hle : newCapacity ≤ m := by omega
  have hshort : newCapacity ≤ items.length := by omega
  rcases Nat.lt_or_eq_of_le hshort with hlt | heq
  · have hfault := resizeBuffer_short h hlt hle
    rcases hkeeps with hthrown | hret
    · obtain ⟨e, hthrown⟩ := hthrown
      rw [hfault] at hthrown
      cases hthrown
    · obtain ⟨t, hret, _⟩ := hret
      rw [hfault] at hret
      cases hret
  · obtain ⟨buffer, hrun, _⟩ := resizeBuffer_copies h (Nat.le_of_eq heq.symm) hle
    rcases hkeeps with hthrown | hret
    · obtain ⟨e, hthrown⟩ := hthrown
      rw [hrun] at hthrown
      cases hthrown
    · obtain ⟨t, hret, _, _, _, hreader, hheader, _⟩ := hret
      rw [hrun] at hret
      cases hret
      -- The header index is the number of cells, which no remainder is.
      have hindex : s.size = (0 + s.size) % newCapacity := hheader
      have hmod := Nat.mod_lt (0 + s.size) (Nat.lt_of_le_of_lt (Nat.zero_le _) hreader)
      rw [← hindex, h.size_eq, heq] at hmod
      exact Nat.lt_irrefl _ hmod

/-- In every state that calls from outside reach, as long as each resize among them
asks for more than the maximum or for more cells than there are bytes, a resize
keeps the queue exactly if it asks so too. -/
theorem resizeBuffer_keeps_iff (hpos : 1 ≤ c) (hle : c ≤ m) {calls : List PublicCall}
    (hroomy : PublicCall.AllRoomy calls (init c m)) :
    ∃ ring results s', construct c m = .ok ring ∧
      runAll (calls.map PublicCall.exec) ring = some (results, s') ∧ Valid s' ∧
      s'.maxCapacity = m ∧
      ∀ newCapacity, ResizeKeeps m s' newCapacity ↔
        s'.maxCapacity < newCapacity ∨ s'.size < newCapacity := by
  obtain ⟨results, s', hrun, c', items, h⟩ :=
    run_usable calls ⟨c, [], init_holds hpos hle⟩ hroomy
  refine ⟨init c m, results, s', construct_eq hle, hrun, h.toValid, h.maxCapacity_eq, ?_⟩
  rw [h.maxCapacity_eq, h.size_eq]
  exact resizeKeeps_iff h

theorem resizeBuffer_keeps_iff_two_eight :
    ∃ ring results s', construct 2 8 = .ok ring ∧
      runAll ([PublicCall.member (.operation (.push 1)), .resizeBuffer 3].map PublicCall.exec)
        ring = some (results, s') ∧ Valid s' ∧ s'.maxCapacity = 8 ∧
      ∀ newCapacity, ResizeKeeps 8 s' newCapacity ↔
        s'.maxCapacity < newCapacity ∨ s'.size < newCapacity := by
  have hroomy : PublicCall.AllRoomy [.member (.operation (.push 1)), .resizeBuffer 3]
      (init 2 8) := by
    refine ⟨trivial, fun result t hpush => ?_⟩
    cases hpush
    exact ⟨.inr (by decide), fun _ _ _ => trivial⟩
  exact resizeBuffer_keeps_iff (c := 2) (m := 8) (by decide) (by decide) hroomy

/-- Resized to its two bytes a ring stores the next one outside, and resized to
one cell it stores outside at once. -/
theorem resizeBuffer_two_outside :
    ∃ s' t, runAll ([PublicCall.member (.operation (.pushVector [1, 2]))].map PublicCall.exec)
        (init 2 8) = some ([.ok (.value .unit)], s') ∧
      s'.contents = [1, 2] ∧ (resizeBuffer 2).run s' = .ok () t ∧ t.headerIndex = 2 ∧
      runAll ([RingOp.pop, .push 3].map RingOp.exec) t = none ∧
      (resizeBuffer 1).run s' = .fault .outOfBounds :=
  ⟨_, _, rfl, rfl, rfl, rfl, rfl, rfl⟩

end RingBuffer
end PlaySocket
