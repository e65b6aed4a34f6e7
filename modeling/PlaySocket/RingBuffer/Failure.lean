import PlaySocket.RingBuffer.Calls

/-!
# When a call throws, and what it leaves behind

An integer can be read when its bytes are held, but for one case.  On a ring with
no free cell the header index has come round to the reader index, and
`isReadIndexValid` takes the ring for empty.

A read that throws has taken nothing.  A write looks for room one byte at a time,
so one that finds room for some of its bytes and not for all leaves those it
stored behind.
-/

namespace PlaySocket
namespace RingBuffer

open Exec Doubling

variable {s : RingBuffer} {c m : Nat} {items : List UInt8} {α : Type}

/-! ## Reading integers -/

/-- Throwing agrees with holding too few bytes unless the ring is full of enough. -/
theorem readable_iff (h : Holds s c m items) {x : RingExec α} {width : Nat}
    (hok : width ≤ items.length → items.length < c → ∃ a s', x.run s = .ok a s')
    (hthrown : items.length < width ∨ items.length = c → x.run s = .thrown indexError s) :
    (ThrowsAt x s ↔ s.size < width) ↔ (s.size ≠ s.capacity ∨ s.size < width) := by
  rw [h.size_eq, h.capacity_eq]
  rcases integer_cases h width with hlong | hshort
  · obtain ⟨a, s', hrun⟩ := hok hlong.1 hlong.2
    have hnot : ¬ThrowsAt x s := not_throwsAt_of_ok hrun
    exact ⟨fun _ => .inl (Nat.ne_of_lt hlong.2),
      fun _ => ⟨fun hthrows => absurd hthrows hnot, fun hlt => by omega⟩⟩
  · have hthrows : ThrowsAt x s := throwsAt_of_thrown (hthrown hshort)
    constructor
    · intro hiff
      exact .inr (hiff.mp hthrows)
    · intro hcase
      refine ⟨fun _ => ?_, fun _ => hthrows⟩
      omega

/-- In every state a run reaches, the integer reads throw for want of bytes alone
exactly if the ring is not full, or is too small to hold the integer. -/
theorem integers_readable_iff (hpos : 1 ≤ c) (hle : c ≤ m) (calls : List RingCall) :
    ∃ ring results s', construct c m = .ok ring ∧
      runAll (calls.map RingCall.exec) ring = some (results, s') ∧
      ((ThrowsAt peekInt16 s' ↔ s'.size < 2) ↔ (s'.size ≠ s'.capacity ∨ s'.size < 2)) ∧
      ((ThrowsAt readInt16 s' ↔ s'.size < 2) ↔ (s'.size ≠ s'.capacity ∨ s'.size < 2)) ∧
      ((ThrowsAt peekInt32 s' ↔ s'.size < 4) ↔ (s'.size ≠ s'.capacity ∨ s'.size < 4)) ∧
      ((ThrowsAt readInt32 s' ↔ s'.size < 4) ↔ (s'.size ≠ s'.capacity ∨ s'.size < 4)) := by
  obtain ⟨results, s', hrun, c', items, h, _⟩ := run_sound hpos hle calls
  refine ⟨init c m, results, s', construct_eq hle, hrun, ?_, ?_, ?_, ?_⟩
  · exact readable_iff h (fun hlong hroom => ⟨_, _, peekInt16_ok h hlong hroom⟩)
      (peekInt16_thrown h)
  · refine readable_iff h (fun hlong hroom => ?_) (readInt16_thrown h)
    obtain ⟨s₁, hread, _⟩ := readInt16_ok h hlong hroom
    exact ⟨_, s₁, hread⟩
  · exact readable_iff h (fun hlong hroom => ⟨_, _, peekInt32_ok h hlong hroom⟩)
      (peekInt32_thrown h)
  · refine readable_iff h (fun hlong hroom => ?_) (readInt32_thrown h)
    obtain ⟨s₁, hread, _⟩ := readInt32_ok h hlong hroom
    exact ⟨_, s₁, hread⟩

theorem integers_readable_iff_two_two :
    ∃ ring results s', construct 2 2 = .ok ring ∧
      runAll ([RingCall.operation (.push 1)].map RingCall.exec) ring = some (results, s') ∧
      ((ThrowsAt peekInt16 s' ↔ s'.size < 2) ↔ (s'.size ≠ s'.capacity ∨ s'.size < 2)) ∧
      ((ThrowsAt readInt16 s' ↔ s'.size < 2) ↔ (s'.size ≠ s'.capacity ∨ s'.size < 2)) ∧
      ((ThrowsAt peekInt32 s' ↔ s'.size < 4) ↔ (s'.size ≠ s'.capacity ∨ s'.size < 4)) ∧
      ((ThrowsAt readInt32 s' ↔ s'.size < 4) ↔ (s'.size ≠ s'.capacity ∨ s'.size < 4)) :=
  integers_readable_iff (by decide) (by decide) _

/-- An integer that fills its ring is held and cannot be read. -/
theorem full_ring_unreadable :
    ∃ ring results s', construct 2 2 = .ok ring ∧
      runAll ([RingCall.operation (.writeU16 258)].map RingCall.exec) ring = some (results, s') ∧
      s'.contents = [1, 2] ∧ ThrowsAt peekInt16 s' ∧ ThrowsAt readInt16 s' ∧ ¬s'.size < 2 :=
  ⟨init 2 2, _, _, rfl, rfl, by decide, ⟨_, _, rfl⟩, ⟨_, _, rfl⟩, by decide⟩

/-! ## What is left behind -/

/-- A throwing call leaves the queue as it was exactly if the ring was full
already or there was room for all the call offers. -/
theorem thrown_unchanged_iff (h : Holds s c m items) (call : RingCall) :
    (∀ e s', call.exec.run s = .thrown e s' → s'.contents = s.contents ∧ s'.size = s.size) ↔
      s.size = limit c m ∨ s.size + call.offers.length ≤ limit c m := by
  rw [h.contents_eq, h.size_eq]
  have hle := h.length_le_limit
  rcases exec_cases h call with hret | hthrown
  · obtain ⟨s', hrun, h'⟩ := hret
    refine ⟨fun _ => .inr ?_, fun _ e s'' hthrown => ?_⟩
    · by_cases hnil : call.offers = []
      · rw [hnil]
        exact hle
      · have hlength := h'.length_le_limit h.pos
        rwa [takes_of_offers hnil, List.drop_zero, List.length_append] at hlength
    · rw [hrun] at hthrown
      cases hthrown
  · obtain ⟨e, s', hrun, _, hover, h'⟩ := hthrown
    have hstored : (∀ e₁ s₁, call.exec.run s = .thrown e₁ s₁ → s₁.contents = items ∧
        s₁.size = items.length) ↔ call.offers.take (limit c m - items.length) = [] := by
      constructor
      · intro hunchanged
        have hcontents := (hunchanged e s' hrun).1
        rw [h'.contents_eq] at hcontents
        exact List.append_right_eq_self.mp hcontents
      · intro hnil e₁ s₁ hrun₁
        rw [hrun] at hrun₁
        cases hrun₁
        rw [h'.contents_eq, h'.size_eq, hnil, List.append_nil]
        exact ⟨rfl, rfl⟩
    rw [hstored, List.take_eq_nil_iff]
    constructor
    · rintro (hfull | hnil)
      · exact .inl (by omega)
      · exact .inr (by rw [hnil]; exact hle)
    · rintro (hfull | hfits)
      · exact .inl (by omega)
      · rcases hover with hnil | hlt
        · exact .inr hnil
        · omega

/-- In every state a run reaches, a call that throws leaves the queue as it was
exactly if there was room for nothing or for everything it offers. -/
theorem failed_call_atomic_iff (hpos : 1 ≤ c) (hle : c ≤ m) (calls : List RingCall) :
    ∃ ring results s', construct c m = .ok ring ∧
      runAll (calls.map RingCall.exec) ring = some (results, s') ∧
      ∀ call : RingCall,
        (∀ e t, call.exec.run s' = .thrown e t → t.contents = s'.contents ∧ t.size = s'.size) ↔
          s'.size = limit c m ∨ s'.size + call.offers.length ≤ limit c m := by
  obtain ⟨results, s', hrun, c', items, h, hdoubles⟩ := run_sound hpos hle calls
  refine ⟨init c m, results, s', construct_eq hle, hrun, fun call => ?_⟩
  rw [← hdoubles.limit_eq hpos h.le_max]
  exact thrown_unchanged_iff h call

theorem failed_call_atomic_iff_two_three :
    ∃ ring results s', construct 2 3 = .ok ring ∧
      runAll ([RingCall.operation (.push 1)].map RingCall.exec) ring = some (results, s') ∧
      ∀ call : RingCall,
        (∀ e t, call.exec.run s' = .thrown e t → t.contents = s'.contents ∧ t.size = s'.size) ↔
          s'.size = limit 2 3 ∨ s'.size + call.offers.length ≤ limit 2 3 :=
  failed_call_atomic_iff (by decide) (by decide) _

/-- Half an integer stays in the stream. -/
theorem failed_write_leaves_half :
    ∃ ring results s' t, construct 2 3 = .ok ring ∧
      runAll ([RingCall.operation (.push 7)].map RingCall.exec) ring = some (results, s') ∧
      (RingCall.operation (.writeU16 258)).exec.run s' = .thrown fullError t ∧
      s'.contents = [7] ∧ t.contents = [7, 1] :=
  ⟨init 2 3, _, _, _, rfl, rfl, rfl, by decide, by decide⟩

end RingBuffer
end PlaySocket
