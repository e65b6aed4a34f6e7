import PlaySocket.RingBuffer.Calls

/-!
# Which rings are safe to use

The constructor compares its two arguments and looks no further, so it accepts a
capacity of zero.  Such a ring is full while it is empty, doubling zero cells
makes none, and the first byte offered to it is stored outside.  Until then every
call returns or throws and leaves it as it was.
-/

namespace PlaySocket
namespace RingBuffer

open Exec Doubling

variable {c m : Nat}

/-! ## No cells -/

theorem push_hollow (m : Nat) (item : UInt8) :
    (push item).run (init 0 m) = .fault .outOfBounds := rfl

theorem pushVector_hollow (m : Nat) {data : List UInt8} (h : data ≠ []) :
    (pushVector data).run (init 0 m) = .fault .outOfBounds := by
  cases data with
  | nil => exact absurd rfl h
  | cons item rest =>
    rw [pushVector, forEach, run_bind, push_hollow, Exit.andThen_fault]

/-- A call that offers a byte stores it outside. -/
theorem exec_hollow_fault (m : Nat) {call : RingCall} (h : call.offers ≠ []) :
    call.exec.run (init 0 m) = .fault .outOfBounds := by
  cases call with
  | operation op =>
    have hoffers : op.offers ≠ [] := h
    rw [RingCall.exec, run_bind, exec_store (stores_of_offers hoffers), run_bind,
      pushVector_hollow m hoffers, Exit.andThen_fault, Exit.andThen_fault]
  | _ => exact absurd rfl h

theorem store_hollow_keeps (m : Nat) {op : RingOp} (hstores : op.Stores) (h : op.offers = []) :
    (RingCall.operation op).exec.run (init 0 m) = .ok (.value .unit) (init 0 m) := by
  rw [RingCall.exec, run_bind, exec_store hstores, h]
  rfl

/-- A call that offers none returns or throws, and changes nothing. -/
theorem exec_hollow_keeps (m : Nat) {call : RingCall} (h : call.offers = []) :
    KeepsRaising (· = init 0 m) (· ∈ memberErrors) call.exec := by
  rintro s rfl
  cases call with
  | operation op =>
    cases op with
    | push _ | pushVector _ | write _ _ _ _ | writeSpan _ | writeU16 _ | writeU32 _ | writeI16 _
    | writeI32 _ | writeU8 _ | writeI8 _ =>
      exact .inl ⟨_, _, store_hollow_keeps m trivial h, rfl⟩
    | pop => exact .inr ⟨_, _, rfl, emptyError_mem, rfl⟩
    | peek => exact .inr ⟨_, _, rfl, emptyError_mem, rfl⟩
    | clear => exact .inl ⟨_, _, rfl, rfl⟩
    | clearCount count =>
      cases count with
      | zero => exact .inl ⟨_, _, rfl, rfl⟩
      | succ count => exact .inr ⟨_, _, rfl, countError_mem, rfl⟩
    | read offset count =>
      cases count with
      | zero => exact .inl ⟨_, _, rfl, rfl⟩
      | succ count => exact .inl ⟨_, _, rfl, rfl⟩
  | readInt8 => exact .inr ⟨_, _, rfl, emptyError_mem, rfl⟩
  | readInt16 | readInt32 | peekInt16 | peekInt32 =>
    exact .inr ⟨_, _, rfl, indexError_mem, rfl⟩

theorem run_hollow (m : Nat) {calls : List RingCall} (h : ∀ call ∈ calls, call.offers = []) :
    ∃ results s', runAll (calls.map RingCall.exec) (init 0 m) = some (results, s') ∧
      ∀ e, .error e ∈ results → e ∈ memberErrors := by
  have hkeeps : ∀ x ∈ calls.map RingCall.exec,
      KeepsRaising (· = init 0 m) (· ∈ memberErrors) x := by
    intro x hx
    obtain ⟨call, hmem, rfl⟩ := List.mem_map.mp hx
    exact exec_hollow_keeps m (h call hmem)
  obtain ⟨results, s', hrun, _, herrors⟩ := KeepsRaising.runAll hkeeps (init 0 m) rfl
  exact ⟨results, s', hrun, herrors⟩

/-- A run that ends well has offered nothing. -/
theorem offers_of_run_hollow (m : Nat) (calls : List RingCall) :
    ∀ {results : List (Except StdException RingResult)} {s' : RingBuffer},
      runAll (calls.map RingCall.exec) (init 0 m) = some (results, s') →
      ∀ call ∈ calls, call.offers = [] := by
  induction calls with
  | nil => intro _ _ _ call hmem; cases hmem
  | cons call calls ih =>
    intro results s' hrun
    obtain ⟨result, s₁, rest, hcall, rfl, hrest⟩ := runAll_cons_cases hrun
    have hoffers : call.offers = [] := by
      by_contra hne
      rw [exec_hollow_fault m hne] at hcall
      cases hcall
    have hsame : s₁ = init 0 m := by
      rcases exec_hollow_keeps m hoffers (init 0 m) rfl with hret | hthrown
      · obtain ⟨a, t, hexec, ht⟩ := hret
        rw [hexec] at hcall
        cases hcall
        exact ht
      · obtain ⟨e, t, hexec, _, ht⟩ := hthrown
        rw [hexec] at hcall
        cases hcall
        exact ht
    intro other hmem
    rcases List.mem_cons.mp hmem with heq | hmem
    · rw [heq]
      exact hoffers
    · rw [hsame] at hrest
      exact ih hrest other hmem

/-! ## Every ring the constructor makes -/

/-- A run on a ring just made ends without a fault, throwing what is written in
the class alone, exactly if the ring has a cell or no byte is offered to it. -/
theorem construct_safe_iff {ring : RingBuffer} (hnew : construct c m = .ok ring)
    (calls : List RingCall) :
    (∃ results s', runAll (calls.map RingCall.exec) ring = some (results, s') ∧
        ∀ e, .error e ∈ results → e ∈ memberErrors) ↔
      (1 ≤ c ∨ ∀ call ∈ calls, call.offers = []) := by
  have hle : c ≤ m := by
    by_contra hgt
    rw [construct, if_pos (Nat.lt_of_not_le hgt)] at hnew
    cases hnew
  rw [construct_eq hle] at hnew
  cases hnew
  rcases Nat.eq_zero_or_pos c with hzero | hpos
  · subst hzero
    constructor
    · intro hrun
      obtain ⟨results, s', hrun, _⟩ := hrun
      exact .inr (offers_of_run_hollow m calls hrun)
    · rintro (hpos | hoffers)
      · exact absurd hpos (by decide)
      · exact run_hollow m hoffers
  · refine ⟨fun _ => .inl hpos, fun _ => ?_⟩
    obtain ⟨results, s', hrun, _, herrors⟩ := run_raises hpos hle calls
    exact ⟨results, s', hrun, herrors⟩

theorem construct_safe_iff_two_five :
    (∃ results s', runAll ([RingCall.operation (.push 1), .readInt16].map RingCall.exec)
        (init 2 5) = some (results, s') ∧ ∀ e, .error e ∈ results → e ∈ memberErrors) ↔
      (1 ≤ 2 ∨ ∀ call ∈ [RingCall.operation (.push 1), .readInt16], call.offers = []) :=
  construct_safe_iff (c := 2) (m := 5) rfl [.operation (.push 1), .readInt16]

/-- The constructor accepts a ring without cells, and a push goes outside it. -/
theorem push_outside :
    construct 0 5 = .ok (init 0 5) ∧
      runAll ([RingCall.operation (.push 1)].map RingCall.exec) (init 0 5) = none ∧
      (push 1).run (init 0 5) = .fault .outOfBounds :=
  ⟨rfl, rfl, rfl⟩

end RingBuffer
end PlaySocket
