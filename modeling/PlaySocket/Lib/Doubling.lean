import Mathlib.Data.Nat.Log
import Mathlib.Tactic.Ring

/-!
# Growth by doubling

A container that starts with `capacity` cells and doubles as long as the result
stays within `bound` can reach `limit capacity bound` cells and no more.
-/

namespace Doubling

def limit (capacity bound : Nat) : Nat := capacity * 2 ^ Nat.log 2 (bound / capacity)

theorem le_limit (capacity bound : Nat) : capacity ≤ limit capacity bound :=
  Nat.le_mul_of_pos_right capacity (Nat.two_pow_pos _)

/-- One doubling leaves the limit where it was. -/
theorem limit_double {capacity bound : Nat} (hpos : 0 < capacity) (hle : 2 * capacity ≤ bound) :
    limit (2 * capacity) bound = limit capacity bound := by
  have hdiv : 2 ≤ bound / capacity := (Nat.le_div_iff_mul_le hpos).mpr hle
  rw [limit, limit, Nat.mul_comm 2, ← Nat.div_div_eq_div_mul, Nat.log_of_one_lt_of_le
    Nat.one_lt_two hdiv, Nat.pow_succ, Nat.mul_assoc, Nat.mul_comm 2]

/-- No doubling is left exactly when the limit is reached. -/
theorem limit_eq_self {capacity bound : Nat} (h : bound < 2 * capacity) :
    limit capacity bound = capacity := by
  have hdiv : bound / capacity < 2 := Nat.div_lt_of_lt_mul (by omega)
  rw [limit, Nat.log_of_lt hdiv, Nat.pow_zero, Nat.mul_one]

theorem double_le_iff {capacity bound : Nat} (hpos : 0 < capacity) :
    2 * capacity ≤ bound ↔ capacity < limit capacity bound := by
  constructor
  · intro h
    have := le_limit (2 * capacity) bound
    rw [limit_double hpos h] at this
    omega
  · intro h
    by_contra hlt
    rw [limit_eq_self (by omega)] at h
    exact Nat.lt_irrefl _ h

/-- `c'` is reached from `c` by doublings. -/
def Doubles (c c' : Nat) : Prop := ∃ k, c' = c * 2 ^ k

theorem Doubles.refl (c : Nat) : Doubles c c := ⟨0, by rw [Nat.pow_zero, Nat.mul_one]⟩

theorem Doubles.double (c : Nat) : Doubles c (2 * c) := ⟨1, by rw [Nat.pow_one, Nat.mul_comm]⟩

theorem Doubles.trans {c c' c'' : Nat} (h : Doubles c c') (h' : Doubles c' c'') :
    Doubles c c'' := by
  obtain ⟨k, rfl⟩ := h
  obtain ⟨k', rfl⟩ := h'
  exact ⟨k + k', by rw [Nat.pow_add, Nat.mul_assoc]⟩

theorem Doubles.limit_eq {c c' bound : Nat} (h : Doubles c c') (hpos : 0 < c)
    (hle : c' ≤ bound) : limit c' bound = limit c bound := by
  obtain ⟨k, rfl⟩ := h
  induction k with
  | zero => rw [Nat.pow_zero, Nat.mul_one]
  | succ k ih =>
    have hstep : c * 2 ^ (k + 1) = 2 * (c * 2 ^ k) := by rw [Nat.pow_succ]; ring
    rw [hstep] at hle ⊢
    rw [limit_double (Nat.mul_pos hpos (Nat.two_pow_pos k)) hle, ih (by omega)]

/-! ## Growing when needed

Doubling only when an item finds no room leaves no capacity twice as large as
needed. -/

/-- `c'` is reached from `c` by doublings, the last of which `n` items needed. -/
structure Grows (c c' n : Nat) : Prop where
  doubles : Doubles c c'
  needed : c' = c ∨ c' < 2 * n

theorem Grows.refl (c n : Nat) : Grows c c n := ⟨Doubles.refl c, .inl rfl⟩

theorem Grows.trans {c c' c'' n n' : Nat} (h : Grows c c' n) (h' : Grows c' c'' n')
    (hle : n ≤ n') : Grows c c'' n' := by
  refine ⟨h.doubles.trans h'.doubles, ?_⟩
  rcases h'.needed with heq | hlt
  · rw [heq]
    rcases h.needed with heq' | hlt'
    · exact .inl heq'
    · exact .inr (by omega)
  · exact .inr hlt

theorem Doubles.le {c c' : Nat} (h : Doubles c c') : c ≤ c' := by
  obtain ⟨k, rfl⟩ := h
  exact Nat.le_mul_of_pos_right c (Nat.two_pow_pos k)

theorem Grows.mono {c c' n n' : Nat} (h : Grows c c' n) (hle : n ≤ n') : Grows c c' n' := by
  refine ⟨h.doubles, ?_⟩
  rcases h.needed with heq | hlt
  · exact .inl heq
  · exact .inr (by omega)

/-- What was grown for some items is the first doubling that takes them. -/
theorem Grows.least {c c' n : Nat} (h : Grows c c' n) (hle : n ≤ c') :
    ∃ k, c' = c * 2 ^ k ∧ n ≤ c * 2 ^ k ∧ ∀ j, n ≤ c * 2 ^ j → k ≤ j := by
  rcases h.needed with heq | hlt
  · subst heq
    refine ⟨0, ?_, ?_, fun j _ => Nat.zero_le j⟩
    · rw [Nat.pow_zero, Nat.mul_one]
    · rwa [Nat.pow_zero, Nat.mul_one]
  · obtain ⟨k, rfl⟩ := h.doubles
    refine ⟨k, rfl, hle, fun j hj => ?_⟩
    by_contra hlt'
    have hpow : c * 2 ^ (j + 1) ≤ c * 2 ^ k :=
      Nat.mul_le_mul_left c (Nat.pow_le_pow_right Nat.two_pos (by omega))
    have hsplit : c * 2 ^ (j + 1) = 2 * (c * 2 ^ j) := by rw [Nat.pow_succ]; ring
    omega

/-- What already fits needs no growth. -/
theorem Grows.eq_self {c c' n : Nat} (h : Grows c c' n) (hle : n ≤ c) : c' = c := by
  rcases h.needed with heq | hlt
  · exact heq
  · obtain ⟨k, hk⟩ := h.doubles
    cases k with
    | zero => rw [hk, Nat.pow_zero, Nat.mul_one]
    | succ k =>
      have hpow := Nat.two_pow_pos k
      have hmul : c * 1 ≤ c * 2 ^ k := Nat.mul_le_mul_left c hpow
      have hsplit : c * 2 ^ (k + 1) = 2 * (c * 2 ^ k) := by rw [Nat.pow_succ]; ring
      omega

/-- The items fill what was grown for them exactly if their number is a doubling
of the old capacity. -/
theorem Grows.full_iff {c c' n : Nat} (h : Grows c c' n) (hle : n ≤ c') :
    n = c' ↔ ∃ k, n = c * 2 ^ k := by
  constructor
  · intro hfull
    rw [hfull]
    exact h.doubles
  · intro hdoubling
    obtain ⟨k, hk⟩ := hdoubling
    rcases h.needed with heq | hlt
    · have hmul : c * 1 ≤ c * 2 ^ k := Nat.mul_le_mul_left c (Nat.two_pow_pos k)
      omega
    · obtain ⟨j, hj⟩ := h.doubles
      have hless : c * 2 ^ j < c * 2 ^ (k + 1) := by
        rw [← hj, Nat.pow_succ, ← Nat.mul_assoc, ← hk]
        omega
      have hjk : j < k + 1 :=
        (Nat.pow_lt_pow_iff_right Nat.one_lt_two).mp (Nat.lt_of_mul_lt_mul_left hless)
      have hmul : c * 2 ^ j ≤ c * 2 ^ k :=
        Nat.mul_le_mul_left c (Nat.pow_le_pow_right Nat.two_pos (Nat.le_of_lt_succ hjk))
      omega

end Doubling
