import PlaySocket.RingBuffer.Calls

/-!
# How far a ring grows

The capacity of a ring remembers one number of its past, the largest size it ever
had, and is the first doubling of the initial capacity that takes as many bytes.
It never shrinks, and a push throws exactly when the ring is full and the next
doubling would exceed the maximum.
-/

namespace PlaySocket
namespace RingBuffer

open Exec Doubling

variable {s s' : RingBuffer} {c c' m : Nat} {items : List UInt8}

/-- The largest size between the calls of a run.  Inside a call the size moves
one way only, so no larger one is hidden there. -/
def highWater : List RingCall → RingBuffer → Nat
  | [], s => s.size
  | call :: calls, s =>
    match outcome (call.exec.run s) with
    | some (_, t) => max s.size (highWater calls t)
    | none => s.size

theorem size_le_highWater (calls : List RingCall) (s : RingBuffer) :
    s.size ≤ highWater calls s := by
  cases calls with
  | nil => exact Nat.le_refl _
  | cons call calls =>
    rw [highWater]
    cases outcome (call.exec.run s) with
    | none => exact Nat.le_refl _
    | some r => exact Nat.le_max_left _ _

theorem exec_reaches (h : Holds s c m items) (call : RingCall)
    {result : Except StdException RingResult}
    (hrun : outcome (call.exec.run s) = some (result, s')) :
    ∃ items', Reaches c m s' items' := by
  cases result with
  | ok value => exact ⟨_, (exec_returned h (outcome_ok hrun)).2⟩
  | error e => exact ⟨_, (exec_thrown h (outcome_error hrun)).2⟩

/-- Of capacity `c` at first, the ring has grown for `peak` bytes and takes them. -/
structure GrownFor (c m peak : Nat) (s : RingBuffer) : Prop where
  holds : Holds s s.capacity m s.contents
  grows : Grows c s.capacity peak
  size_le : s.size ≤ peak
  le_capacity : peak ≤ s.capacity

/-- The step lemma: a call raises the peak to the size it leaves, if at all. -/
theorem GrownFor.exec {peak : Nat} (h : GrownFor c m peak s) (call : RingCall)
    {result : Except StdException RingResult}
    (hrun : outcome (call.exec.run s) = some (result, s')) :
    GrownFor c m (max peak s'.size) s' := by
  obtain ⟨items', c', h', hgrows⟩ := exec_reaches h.holds call hrun
  obtain rfl := h'.capacity_eq
  obtain rfl := h'.contents_eq
  rw [← h'.size_eq] at hgrows
  have hle := hgrows.doubles.le
  have hpeak := h.le_capacity
  exact {
    holds := h'
    grows := (h.grows.mono (Nat.le_max_left _ _)).trans
      (hgrows.mono (Nat.le_max_right _ _)) (Nat.le_refl _)
    size_le := Nat.le_max_right _ _
    le_capacity := Nat.max_le.mpr ⟨Nat.le_trans hpeak hle, h'.size_le⟩ }

theorem GrownFor.run (calls : List RingCall) :
    ∀ {peak : Nat} {s s' : RingBuffer} {results : List (Except StdException RingResult)},
      GrownFor c m peak s → runAll (calls.map RingCall.exec) s = some (results, s') →
      GrownFor c m (max peak (highWater calls s)) s' := by
  induction calls with
  | nil =>
    intro peak s s' results h hrun
    cases hrun
    rw [highWater, Nat.max_eq_left h.size_le]
    exact h
  | cons call calls ih =>
    intro peak s s' results h hrun
    obtain ⟨result, s₁, rest, hcall, rfl, hrest⟩ := runAll_cons_cases hrun
    have h' := ih (h.exec call hcall) hrest
    have hsize := h.size_le
    have hwater := size_le_highWater calls s₁
    rw [highWater, hcall]
    have hmax : max peak (max s.size (highWater calls s₁)) =
        max (max peak s₁.size) (highWater calls s₁) := by omega
    rw [hmax]
    exact h'

theorem init_grownFor (hpos : 1 ≤ c) (hle : c ≤ m) : GrownFor c m 0 (init c m) := by
  have h := init_holds hpos hle
  have hcapacity : (init c m).capacity = c := h.capacity_eq
  refine ⟨?_, ?_, Nat.le_refl 0, Nat.zero_le _⟩
  · rw [hcapacity, h.contents_eq]
    exact h
  · rw [hcapacity]
    exact Grows.refl c 0

/-! ## The limit -/

theorem push_throws_iff (h : Holds s c m items) (item : UInt8) :
    ThrowsAt (push item) s ↔ s.size = s.capacity ∧ m < 2 * s.capacity := by
  rw [h.size_eq, h.capacity_eq]
  have hle := h.length_le_limit
  by_cases hlt : items.length < limit c m
  · obtain ⟨s', c', hpush, _⟩ := push_ok h hlt item
    refine ⟨fun hthrows => absurd hthrows (not_throwsAt_of_ok hpush), fun hfull => ?_⟩
    rw [limit_eq_self hfull.2] at hlt
    omega
  · have heq : items.length = limit c m := by omega
    refine ⟨fun _ => ?_, fun _ => throwsAt_of_thrown (push_thrown h heq item)⟩
    have hdouble : 2 * c ≤ m ↔ c < limit c m := double_le_iff h.pos
    have hlength := h.length_le
    have hcapacity := le_limit c m
    omega

/-- From every state pushes reach the limit. -/
theorem fill (h : Holds s c m items) :
    ∃ (more : List RingCall) (results : List (Except StdException RingResult)) (t : RingBuffer),
      runAll (more.map RingCall.exec) s = some (results, t) ∧
      t.size = limit c m := by
  have hle := h.length_le_limit
  have hlength : (List.replicate (limit c m - items.length) (0 : UInt8)).length =
      limit c m - items.length := List.length_replicate
  obtain ⟨t, c', hpush, h', _⟩ :=
    pushVector_ok h (List.replicate (limit c m - items.length) 0) (by omega)
  refine ⟨[.operation (.pushVector (List.replicate (limit c m - items.length) 0))],
    [.ok (.value .unit)], t, ?_, ?_⟩
  · have hexec : (RingCall.operation (.pushVector
        (List.replicate (limit c m - items.length) 0))).exec.run s = .ok (.value .unit) t := by
      simp only [RingCall.exec, RingOp.exec, run_bind, hpush, Exit.andThen_ok, run_pure]
    rw [List.map_singleton, runAll, hexec]
    rfl
  · rw [h'.size_eq, List.length_append, hlength]
    omega

/-- In every state a run reaches the capacity is the first doubling of the initial
one that takes the largest size so far, a push throws exactly when no doubling is
left, and the largest size any run reaches, and every run can be continued to, is
the last doubling below the maximum. -/
theorem growth_law (hpos : 1 ≤ c) (hle : c ≤ m) (calls : List RingCall) :
    ∃ ring results s', construct c m = .ok ring ∧
      runAll (calls.map RingCall.exec) ring = some (results, s') ∧
      (∃ k, s'.capacity = c * 2 ^ k ∧ highWater calls ring ≤ c * 2 ^ k ∧
        ∀ j, highWater calls ring ≤ c * 2 ^ j → k ≤ j) ∧
      (∀ item, ThrowsAt (push item) s' ↔ s'.size = s'.capacity ∧ m < 2 * s'.capacity) ∧
      highWater calls ring ≤ c * 2 ^ Nat.log 2 (m / c) ∧
      ∃ more results' t, runAll ((calls ++ more).map RingCall.exec) ring = some (results', t) ∧
        t.size = c * 2 ^ Nat.log 2 (m / c) := by
  obtain ⟨results, s', hrun, _⟩ := run_sound hpos hle calls
  have h := (init_grownFor hpos hle).run calls hrun
  rw [Nat.zero_max] at h
  have hlimit : limit s'.capacity m = limit c m :=
    h.grows.doubles.limit_eq hpos h.holds.le_max
  obtain ⟨more, results', t, hmore, hsize⟩ := fill h.holds
  refine ⟨init c m, results, s', construct_eq hle, hrun, h.grows.least h.le_capacity,
    push_throws_iff h.holds, ?_, more, results ++ results', t, ?_, hsize.trans hlimit⟩
  · exact Nat.le_trans h.le_capacity (Nat.le_trans (le_limit _ m) (Nat.le_of_eq hlimit))
  · rw [List.map_append]
    exact runAll_append_some hrun hmore

/-- Four bytes written and cleared away. -/
def filledOnce : List RingCall := [.operation (.writeU32 1), .operation .clear]

theorem growth_law_three_ten :
    ∃ ring results s', construct 3 10 = .ok ring ∧
      runAll (filledOnce.map RingCall.exec) ring = some (results, s') ∧
      (∃ k, s'.capacity = 3 * 2 ^ k ∧ highWater filledOnce ring ≤ 3 * 2 ^ k ∧
        ∀ j, highWater filledOnce ring ≤ 3 * 2 ^ j → k ≤ j) ∧
      (∀ item, ThrowsAt (push item) s' ↔ s'.size = s'.capacity ∧ 10 < 2 * s'.capacity) ∧
      highWater filledOnce ring ≤ 3 * 2 ^ Nat.log 2 (10 / 3) ∧
      ∃ more results' t, runAll ((filledOnce ++ more).map RingCall.exec) ring = some (results', t) ∧
        t.size = 3 * 2 ^ Nat.log 2 (10 / 3) :=
  growth_law (by decide) (by decide) filledOnce

/-- A ring of a fixed capacity keeps it in every run, and refuses a byte exactly
when it is full. -/
theorem constructFixed_bounded (hpos : 1 ≤ c) (calls : List RingCall) :
    ∃ ring results s', constructFixed c = .ok ring ∧
      runAll (calls.map RingCall.exec) ring = some (results, s') ∧ s'.capacity = c ∧
      ∀ item, ThrowsAt (push item) s' ↔ s'.size = c := by
  obtain ⟨results, s', hrun, c', items, h, hdoubles⟩ := run_sound hpos (Nat.le_refl c) calls
  have hsame : c' = c := Nat.le_antisymm h.le_max hdoubles.le
  refine ⟨init c c, results, s', construct_eq (Nat.le_refl c), hrun, h.capacity_eq.trans hsame,
    fun item => ?_⟩
  rw [push_throws_iff h item, h.capacity_eq, hsame]
  exact and_iff_left (by omega)

end RingBuffer
end PlaySocket
