import PlaySocket.Lib.Bytes
import PlaySocket.RingBuffer.Operations

/-!
# Integers in the ring

The typed writes push the big-endian bytes of their value, and the typed reads
assemble them again.  A read is possible on a ring that holds enough bytes and
has a free cell.  On a ring with no free cell `isReadIndexValid` meets the
header at its first step, as it does on an empty one, and the read throws.
-/

namespace PlaySocket
namespace RingBuffer

open Exec Bytes

variable {s : RingBuffer} {c m : Nat} {items : List UInt8}

/-! ## Writes -/

theorem forEach_pair (a b : UInt8) (s : RingBuffer) :
    (pushVector [a, b]).run s = (do push a; push b : RingExec Unit).run s := by
  simp only [pushVector, forEach, run_bind, run_pure]
  congr 1
  funext _ t
  cases (push b).run t <;> rfl

theorem forEach_quad (a b d e : UInt8) (s : RingBuffer) :
    (pushVector [a, b, d, e]).run s =
      (do push a; push b; push d; push e : RingExec Unit).run s := by
  rw [show pushVector [a, b, d, e] = (do push a; push b; pushVector [d, e]) from rfl]
  simp only [run_bind, forEach_pair]

theorem writeU16_eq (value : UInt16) (s : RingBuffer) :
    (writeU16 value).run s = (pushVector (toBE 2 value.toNat)).run s := by
  have hbytes : toBE 2 value.toNat =
      [((value >>> 8) &&& 0xFF).toUInt8, (value &&& 0xFF).toUInt8] := by
    simp only [toBE, List.cons.injEq, and_true]
    constructor <;> refine UInt8.toNat_inj.mp ?_ <;>
      simp [Nat.shiftRight_eq_div_pow, and_255]
  rw [hbytes, forEach_pair, writeU16]

theorem writeU32_eq (value : UInt32) (s : RingBuffer) :
    (writeU32 value).run s = (pushVector (toBE 4 value.toNat)).run s := by
  have hbytes : toBE 4 value.toNat =
      [((value >>> 24) &&& 0xFF).toUInt8, ((value >>> 16) &&& 0xFF).toUInt8,
        ((value >>> 8) &&& 0xFF).toUInt8, (value &&& 0xFF).toUInt8] := by
    simp only [toBE, List.cons.injEq, and_true]
    refine ⟨?_, ?_, ?_, ?_⟩ <;> refine UInt8.toNat_inj.mp ?_ <;>
      simp [Nat.shiftRight_eq_div_pow, and_255]
  rw [hbytes, forEach_quad, writeU32]

theorem push_eq (item : UInt8) (s : RingBuffer) :
    (push item).run s = (pushVector [item]).run s := by
  simp only [pushVector, forEach, run_bind, run_pure]
  cases (push item).run s <;> rfl

/-! ## Reads

Two readings of the same bytes.  `getInt16` and `getInt32` shift and or their
bytes inside a signed `int`.  `int16OfBE` and `int32OfBE` read the big-endian
number and take it modulo the word. -/

def int16OfBE (bytes : List UInt8) : Int16 := (UInt16.ofNat (ofBE (bytes.take 2))).toInt16

def int32OfBE (bytes : List UInt8) : Int32 := (UInt32.ofNat (ofBE (bytes.take 4))).toInt32

theorem toUInt32_promote (item : UInt8) : (promote item).toUInt32.toNat = item.toNat := by
  rw [promote, UInt32.toUInt32_toInt32, UInt8.toNat_toUInt32]

theorem assemble16 (b0 b1 : UInt8) :
    ((promote b0 <<< 8) ||| promote b1).toInt16 = int16OfBE [b0, b1] := by
  have h0 := b0.toNat_lt
  have h1 := b1.toNat_lt
  have hshift : (promote b0 <<< 8).toUInt32 = (promote b0).toUInt32 <<< 8 :=
    UInt32.toBitVec_inj.mp (by simp)
  have hnarrow : ∀ x : Int32, x.toInt16 = x.toUInt32.toUInt16.toInt16 := fun x =>
    Int16.toBitVec_inj.mp (by simp [BitVec.signExtend_eq_setWidth_of_le])
  rw [hnarrow, int16OfBE, Int32.toUInt32_or, hshift]
  congr 1
  refine UInt16.toNat_inj.mp ?_
  simp only [UInt32.toNat_toUInt16, UInt32.toNat_or, UInt32.toNat_shiftLeft, toUInt32_promote,
    UInt32.toNat_ofNat, Nat.shiftLeft_eq, Nat.reducePow, Nat.reduceMod, UInt16.toNat_ofNat',
    List.take_succ_cons, List.take_zero, ofBE, List.length_cons, List.length_nil]
  rw [show b0.toNat * 256 % 4294967296 = b0.toNat * 2 ^ 8 by omega, or_eq_add h1]
  omega

/-- The words of four shifted bytes share no bit. -/
theorem or_bytes (b0 b1 b2 b3 : UInt8) :
    b0.toNat * 16777216 % 4294967296 ||| b1.toNat * 65536 % 4294967296 |||
        b2.toNat * 256 % 4294967296 ||| b3.toNat = ofBE [b0, b1, b2, b3] := by
  have h0 := b0.toNat_lt
  have h1 := b1.toNat_lt
  have h2 := b2.toNat_lt
  have h3 := b3.toNat_lt
  simp only [ofBE, List.length_cons, List.length_nil]
  rw [show b0.toNat * 16777216 % 4294967296 = b0.toNat * 2 ^ 24 by omega,
    show b1.toNat * 65536 % 4294967296 = b1.toNat * 2 ^ 16 by omega,
    show b2.toNat * 256 % 4294967296 = b2.toNat * 2 ^ 8 by omega,
    or_eq_add (by omega),
    show b0.toNat * 2 ^ 24 + b1.toNat * 2 ^ 16 = (b0.toNat * 256 + b1.toNat) * 2 ^ 16 by omega,
    or_eq_add (by omega),
    show (b0.toNat * 256 + b1.toNat) * 2 ^ 16 + b2.toNat * 2 ^ 8 =
      ((b0.toNat * 256 + b1.toNat) * 256 + b2.toNat) * 2 ^ 8 by omega,
    or_eq_add h3]
  omega

theorem assemble32 (b0 b1 b2 b3 : UInt8) :
    ((promote b0 <<< 24) ||| (promote b1 <<< 16) ||| (promote b2 <<< 8) ||| promote b3) =
      int32OfBE [b0, b1, b2, b3] := by
  have hshift8 : (promote b2 <<< 8).toUInt32 = (promote b2).toUInt32 <<< 8 :=
    UInt32.toBitVec_inj.mp (by simp)
  have hshift16 : (promote b1 <<< 16).toUInt32 = (promote b1).toUInt32 <<< 16 :=
    UInt32.toBitVec_inj.mp (by simp)
  have hshift24 : (promote b0 <<< 24).toUInt32 = (promote b0).toUInt32 <<< 24 :=
    UInt32.toBitVec_inj.mp (by simp)
  have hlt : ofBE [b0, b1, b2, b3] < 2 ^ 32 := Nat.lt_of_lt_of_eq (ofBE_lt _) (by simp)
  have hword : ((promote b0 <<< 24) ||| (promote b1 <<< 16) ||| (promote b2 <<< 8) |||
      promote b3).toUInt32 = UInt32.ofNat (ofBE [b0, b1, b2, b3]) := by
    refine UInt32.toNat_inj.mp ?_
    rw [Int32.toUInt32_or, Int32.toUInt32_or, Int32.toUInt32_or, hshift8, hshift16, hshift24,
      UInt32.toNat_ofNat', Nat.mod_eq_of_lt hlt, ← or_bytes]
    simp only [UInt32.toNat_or, UInt32.toNat_shiftLeft, toUInt32_promote, UInt32.toNat_ofNat,
      Nat.shiftLeft_eq, Nat.reducePow, Nat.reduceMod]
  rw [int32OfBE, List.take_of_length_le (Nat.le_refl 4), ← hword, Int32.toInt32_toUInt32]

/-- On a ring with a free cell the check says whether `size` bytes are held
behind step `i`. -/
theorem isReadIndexValid_room (h : Holds s c m items) (hroom : items.length < c) :
    ∀ (size i : Nat), i ≤ items.length →
      (isReadIndexValid ((s.readerIndex + i) % c) size).run s =
        .ok (decide (i + size ≤ items.length)) s
  | 0, i, hi => by rw [isReadIndexValid, run_pure, Nat.add_zero, decide_eq_true hi]
  | size + 1, i, hi => by
    have hsize := h.size_eq
    have hheader : s.headerIndex = (s.readerIndex + items.length) % c := by
      rw [h.headerIndex_eq, hsize, h.capacity_eq]
    rw [isReadIndexValid, run_bind, run_self, Exit.andThen_ok]
    rcases Nat.lt_or_eq_of_le hi with hlt | heq
    · have hne : ¬((s.readerIndex + i) % c = s.headerIndex ∨ s.size = 0) := by
        rw [hheader]
        rintro (hmod | hzero)
        · exact Cyclic.mod_ne_mod hlt hroom hmod
        · omega
      rw [if_neg hne, run_bind, h.nextIndex_eq, Exit.andThen_ok,
        isReadIndexValid_room h hroom size (i + 1) hlt, Nat.add_assoc i, Nat.add_comm 1]
    · rw [if_pos (Or.inl (by rw [hheader, heq])), run_pure,
        decide_eq_false (by omega : ¬i + (size + 1) ≤ items.length)]

/-- On a ring with no free cell the check fails at its first step. -/
theorem isReadIndexValid_full (h : Holds s c m items) (hfull : items.length = c) (size : Nat) :
    (isReadIndexValid s.readerIndex (size + 1)).run s = .ok false s := by
  have hheader : s.headerIndex = s.readerIndex := by
    rw [h.headerIndex_eq, h.size_eq, h.capacity_eq, hfull, Nat.add_mod_right, ← h.capacity_eq,
      Nat.mod_eq_of_lt h.readerIndex_lt]
  rw [isReadIndexValid, run_bind, run_self, Exit.andThen_ok, if_pos (Or.inl hheader.symm), run_pure]

/-- What a failed integer read throws. -/
def indexError : StdException := .outOfRange "Index out of range"

theorem isReadIndexValid_short (h : Holds s c m items) {size : Nat}
    (hshort : items.length < size + 1 ∨ items.length = c) :
    (isReadIndexValid s.readerIndex (size + 1)).run s = .ok false s := by
  by_cases hfull : items.length = c
  · exact isReadIndexValid_full h hfull size
  · have hvalid := isReadIndexValid_room h (Nat.lt_of_le_of_ne h.length_le hfull) (size + 1) 0
      (Nat.zero_le _)
    rwa [h.reader_eq, decide_eq_false (by omega)] at hvalid

theorem peekInt16_thrown (h : Holds s c m items)
    (hshort : items.length < 2 ∨ items.length = c) :
    peekInt16.run s = .thrown indexError s := by
  simp only [peekInt16, getInt16, run_bind, run_self, Exit.andThen_ok,
    isReadIndexValid_short h hshort, run_when trivial, run_raise, Exit.andThen_thrown,
    indexError]

theorem peekInt32_thrown (h : Holds s c m items)
    (hshort : items.length < 4 ∨ items.length = c) :
    peekInt32.run s = .thrown indexError s := by
  simp only [peekInt32, getInt32, run_bind, run_self, Exit.andThen_ok,
    isReadIndexValid_short h hshort, run_when trivial, run_raise, Exit.andThen_thrown,
    indexError]

theorem peekInt16_ok (h : Holds s c m items) (hlong : 2 ≤ items.length)
    (hroom : items.length < c) : peekInt16.run s = .ok (int16OfBE items) s := by
  match items, hlong with
  | b0 :: b1 :: rest, _ =>
    have hvalid := isReadIndexValid_room h hroom 2 0 (Nat.zero_le _)
    have hload₀ := h.load_eq (i := 0) (by simp)
    have hload₁ := h.load_eq (i := 1) (by simp)
    have hnext := h.nextIndex_eq 0
    rw [decide_eq_true (by simp)] at hvalid
    rw [h.reader_eq] at hvalid hload₀ hnext
    simp only [peekInt16, getInt16, run_bind, run_self, Exit.andThen_ok, hvalid,
      run_when_not (by decide : ¬true = false), hload₀, hnext, hload₁, run_pure,
      List.getElem_cons_zero, List.getElem_cons_succ, assemble16]
    rfl

theorem peekInt32_ok (h : Holds s c m items) (hlong : 4 ≤ items.length)
    (hroom : items.length < c) : peekInt32.run s = .ok (int32OfBE items) s := by
  match items, hlong with
  | b0 :: b1 :: b2 :: b3 :: rest, _ =>
    have hvalid := isReadIndexValid_room h hroom 4 0 (Nat.zero_le _)
    have hload₀ := h.load_eq (i := 0) (by simp)
    have hload₁ := h.load_eq (i := 1) (by simp)
    have hload₂ := h.load_eq (i := 2) (by simp)
    have hload₃ := h.load_eq (i := 3) (by simp)
    have hnext₀ := h.nextIndex_eq 0
    rw [decide_eq_true (by simp)] at hvalid
    rw [h.reader_eq] at hvalid hload₀ hnext₀
    simp only [peekInt32, getInt32, run_bind, run_self, Exit.andThen_ok, hvalid,
      run_when_not (by decide : ¬true = false), hload₀, hnext₀, hload₁, h.nextIndex_eq 1, hload₂,
      h.nextIndex_eq 2, hload₃, run_pure, List.getElem_cons_zero, List.getElem_cons_succ,
      assemble32]
    rfl

theorem readInt16_ok (h : Holds s c m items) (hlong : 2 ≤ items.length)
    (hroom : items.length < c) :
    ∃ s', readInt16.run s = .ok (int16OfBE items) s' ∧ Holds s' c m (items.drop 2) := by
  obtain ⟨s', hclear, h'⟩ := clearCount_ok h hlong
  refine ⟨s', ?_, h'⟩
  simp only [readInt16, run_bind, peekInt16_ok h hlong hroom, Exit.andThen_ok, hclear, run_pure]

theorem readInt32_ok (h : Holds s c m items) (hlong : 4 ≤ items.length)
    (hroom : items.length < c) :
    ∃ s', readInt32.run s = .ok (int32OfBE items) s' ∧ Holds s' c m (items.drop 4) := by
  obtain ⟨s', hclear, h'⟩ := clearCount_ok h hlong
  refine ⟨s', ?_, h'⟩
  simp only [readInt32, run_bind, peekInt32_ok h hlong hroom, Exit.andThen_ok, hclear, run_pure]

theorem readInt16_thrown (h : Holds s c m items)
    (hshort : items.length < 2 ∨ items.length = c) :
    readInt16.run s = .thrown indexError s := by
  rw [readInt16, run_bind, peekInt16_thrown h hshort, Exit.andThen_thrown]

theorem readInt32_thrown (h : Holds s c m items)
    (hshort : items.length < 4 ∨ items.length = c) :
    readInt32.run s = .thrown indexError s := by
  rw [readInt32, run_bind, peekInt32_thrown h hshort, Exit.andThen_thrown]

theorem readInt8_ok {item : UInt8} {rest : List UInt8} (h : Holds s c m (item :: rest)) :
    ∃ s', readInt8.run s = .ok item.toInt8 s' ∧ Holds s' c m rest := by
  obtain ⟨s', hpop, h'⟩ := pop_cons h
  refine ⟨s', ?_, h'⟩
  simp only [readInt8, run_bind, hpop, Exit.andThen_ok, run_pure]

/-! ## The two readings of a written integer agree -/

theorem int16OfBE_toBE (value : Int16) (rest : List UInt8) :
    int16OfBE (toBE 2 value.toUInt16.toNat ++ rest) = value := by
  have hlt : value.toUInt16.toNat < 256 ^ 2 := value.toUInt16.toNat_lt
  rw [int16OfBE, List.take_left' (length_toBE _ _), ofBE_toBE, Nat.mod_eq_of_lt hlt,
    UInt16.ofNat_toNat, Int16.toInt16_toUInt16]

theorem toBE_int16_inj {a b : Int16} (h : toBE 2 a.toUInt16.toNat = toBE 2 b.toUInt16.toNat) :
    a = b := by
  rw [← int16OfBE_toBE a [], h, int16OfBE_toBE]

theorem int32OfBE_toBE (value : Int32) (rest : List UInt8) :
    int32OfBE (toBE 4 value.toUInt32.toNat ++ rest) = value := by
  have hlt : value.toUInt32.toNat < 256 ^ 4 := value.toUInt32.toNat_lt
  rw [int32OfBE, List.take_left' (length_toBE _ _), ofBE_toBE, Nat.mod_eq_of_lt hlt,
    UInt32.ofNat_toNat, Int32.toInt32_toUInt32]

theorem toBE_int32_inj {a b : Int32} (h : toBE 4 a.toUInt32.toNat = toBE 4 b.toUInt32.toNat) :
    a = b := by
  rw [← int32OfBE_toBE a [], h, int32OfBE_toBE]

theorem uint16OfBE_toBE (value : UInt16) (rest : List UInt8) :
    int16OfBE (toBE 2 value.toNat ++ rest) = value.toInt16 := by
  have h := int16OfBE_toBE value.toInt16 rest
  rwa [UInt16.toUInt16_toInt16] at h

end RingBuffer
end PlaySocket
