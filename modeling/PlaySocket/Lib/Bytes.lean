import Mathlib.Tactic.Ring

/-!
# Big-endian byte strings

`toBE w n` is the `w`-byte big-endian representation of `n`, most significant
byte first, and `ofBE` reads a byte string of any length back.  The two are
inverse to one another between the byte strings of length `w` and the numbers
below `256 ^ w`.
-/

namespace Bytes

def toBE : Nat → Nat → List UInt8
  | 0, _ => []
  | w + 1, n => UInt8.ofNat (n / 256 ^ w) :: toBE w n

def ofBE : List UInt8 → Nat
  | [] => 0
  | b :: bs => b.toNat * 256 ^ bs.length + ofBE bs

@[simp] theorem length_toBE (w n : Nat) : (toBE w n).length = w := by
  induction w with
  | zero => rfl
  | succ w ih => rw [toBE, List.length_cons, ih]

theorem ofBE_lt (bs : List UInt8) : ofBE bs < 256 ^ bs.length := by
  induction bs with
  | nil => exact Nat.one_pos
  | cons b bs ih =>
    have hb : b.toNat + 1 ≤ 256 := b.toNat_lt
    calc ofBE (b :: bs) < b.toNat * 256 ^ bs.length + 256 ^ bs.length := by
          rw [ofBE]; exact Nat.add_lt_add_left ih _
      _ = (b.toNat + 1) * 256 ^ bs.length := by ring
      _ ≤ 256 * 256 ^ bs.length := Nat.mul_le_mul_right _ hb
      _ = 256 ^ (b :: bs).length := by rw [List.length_cons, Nat.pow_succ, Nat.mul_comm]

/-- Writing and reading back keeps the low `w` bytes. -/
theorem ofBE_toBE (w n : Nat) : ofBE (toBE w n) = n % 256 ^ w := by
  induction w with
  | zero => rw [toBE, ofBE, Nat.pow_zero, Nat.mod_one]
  | succ w ih =>
    have hbyte : (UInt8.ofNat (n / 256 ^ w)).toNat = n / 256 ^ w % 256 := UInt8.toNat_ofNat'
    rw [toBE, ofBE, ih, length_toBE, hbyte, Nat.pow_succ, Nat.mod_mul, Nat.add_comm,
      Nat.mul_comm (256 ^ w)]

theorem toBE_inj {w n m : Nat} (hn : n < 256 ^ w) (hm : m < 256 ^ w)
    (h : toBE w n = toBE w m) : n = m := by
  have h' := congrArg ofBE h
  rwa [ofBE_toBE, ofBE_toBE, Nat.mod_eq_of_lt hn, Nat.mod_eq_of_lt hm] at h'

/-- The low `w` bytes do not depend on what is above them. -/
theorem toBE_add_mul (w k n : Nat) : toBE w (k * 256 ^ w + n) = toBE w n := by
  induction w generalizing k with
  | zero => rfl
  | succ w ih =>
    have hmul : k * 256 ^ (w + 1) = k * 256 * 256 ^ w := by ring
    have hdiv : (k * 256 * 256 ^ w + n) / 256 ^ w = k * 256 + n / 256 ^ w := by
      rw [Nat.add_comm, Nat.add_mul_div_right _ _ (Nat.pow_pos (by decide)), Nat.add_comm]
    rw [toBE, toBE, hmul, hdiv, ih]
    congr 1
    refine UInt8.toNat_inj.mp ?_
    rw [UInt8.toNat_ofNat', UInt8.toNat_ofNat']
    omega

theorem toBE_ofBE (bs : List UInt8) : toBE bs.length (ofBE bs) = bs := by
  induction bs with
  | nil => rfl
  | cons b bs ih =>
    have hdiv : (b.toNat * 256 ^ bs.length + ofBE bs) / 256 ^ bs.length = b.toNat := by
      rw [Nat.add_comm, Nat.add_mul_div_right _ _ (Nat.pow_pos (by decide)),
        Nat.div_eq_of_lt (ofBE_lt bs), Nat.zero_add]
    rw [List.length_cons, ofBE, toBE, hdiv, toBE_add_mul, ih, UInt8.ofNat_toNat]

theorem ofBE_take_lt {bs : List UInt8} {w : Nat} (h : w ≤ bs.length) :
    ofBE (bs.take w) < 256 ^ w := by
  have hlt := ofBE_lt (bs.take w)
  rwa [List.length_take_of_le h] at hlt

theorem toBE_ofBE_take {bs : List UInt8} {w : Nat} (h : w ≤ bs.length) :
    toBE w (ofBE (bs.take w)) = bs.take w := by
  have hback := toBE_ofBE (bs.take w)
  rwa [List.length_take_of_le h] at hback

/-! ## Bytes inside a machine word

Masks and shifts on words are products and quotients by powers of two, and an
or of words with no common bit is their sum. -/

theorem and_byteMask (n k : Nat) : n &&& (255 <<< k) = n / 2 ^ k % 256 * 2 ^ k := by
  refine Nat.eq_of_testBit_eq (fun i => ?_)
  rw [← Nat.shiftLeft_eq, Nat.testBit_and, Nat.testBit_shiftLeft, Nat.testBit_shiftLeft,
    show (255 : Nat) = 2 ^ 8 - 1 from rfl, show (256 : Nat) = 2 ^ 8 from rfl,
    Nat.testBit_two_pow_sub_one, Nat.testBit_mod_two_pow, Nat.testBit_div_two_pow]
  by_cases h : k ≤ i
  · have hi : i - k + k = i := by omega
    simp [h, hi, Bool.and_comm]
  · simp [h]

theorem and_255 (n : Nat) : n &&& 255 = n % 256 := Nat.and_two_pow_sub_one_eq_mod n 8

theorem or_eq_add {a b k : Nat} (hb : b < 2 ^ k) : a * 2 ^ k ||| b = a * 2 ^ k + b := by
  rw [← Nat.shiftLeft_eq]
  exact (Nat.shiftLeft_add_eq_or_of_lt hb a).symm

/-- Putting a byte behind others. -/
theorem or_byte (x k : Nat) {b : Nat} (hb : b < 2 ^ 8) :
    x * 2 ^ (k + 8) ||| b * 2 ^ k = (x * 256 + b) * 2 ^ k := by
  have hlt : b * 2 ^ k < 2 ^ (k + 8) := by
    rw [Nat.pow_add, Nat.mul_comm (2 ^ k)]
    exact Nat.mul_lt_mul_of_pos_right hb (Nat.two_pow_pos k)
  rw [or_eq_add hlt]
  ring

/-- Every two-byte number is the reading of two bytes. -/
theorem exists_ofBE_two {n : Nat} (h : n < 2 ^ 16) : ∃ a b, n = ofBE [a, b] := by
  refine ⟨UInt8.ofNat (n / 256), UInt8.ofNat n, ?_⟩
  simp only [ofBE, UInt8.toNat_ofNat', List.length_cons, List.length_nil]
  omega

theorem exists_ofBE_four {n : Nat} (h : n < 2 ^ 32) : ∃ a b c d, n = ofBE [a, b, c, d] := by
  refine ⟨UInt8.ofNat (n / 256 ^ 3), UInt8.ofNat (n / 256 ^ 2), UInt8.ofNat (n / 256),
    UInt8.ofNat n, ?_⟩
  simp only [ofBE, UInt8.toNat_ofNat', List.length_cons, List.length_nil]
  omega

theorem exists_ofBE_eight {n : Nat} (h : n < 2 ^ 64) :
    ∃ a b c d e f g i, n = ofBE [a, b, c, d, e, f, g, i] := by
  have hbytes : ofBE (toBE 8 n) = n := (ofBE_toBE 8 n).trans (Nat.mod_eq_of_lt h)
  exact ⟨_, _, _, _, _, _, _, _, hbytes.symm⟩

end Bytes
