import PlaySocket.Lib.Bytes

/-!
# BitConverter

`toNetwork` swaps the bytes of a word unless the host is big-endian, and
`toHost` is the same function under its other name.  The overloads for signed
words go through the unsigned word of the same width.
-/

namespace PlaySocket

open Bytes

/-- `std::endian::native`. -/
inductive Endian where
  | little
  | big
deriving DecidableEq, Repr

namespace BitConverter

def toNetworkU16 (native : Endian) (value : UInt16) : UInt16 :=
  match native with
  | .big => value
  | .little => ((value &&& 0x00FF) <<< 8) ||| ((value &&& 0xFF00) >>> 8)

def toNetworkI16 (native : Endian) (value : Int16) : Int16 :=
  (toNetworkU16 native value.toUInt16).toInt16

def toNetworkU32 (native : Endian) (value : UInt32) : UInt32 :=
  match native with
  | .big => value
  | .little =>
    (value <<< 24) ||| ((value <<< 8) &&& (0x00FF0000 : UInt32)) |||
      ((value >>> 8) &&& (0x0000FF00 : UInt32)) ||| (value >>> 24)

def toNetworkI32 (native : Endian) (value : Int32) : Int32 :=
  (toNetworkU32 native value.toUInt32).toInt32

def toNetworkU64 (native : Endian) (value : UInt64) : UInt64 :=
  match native with
  | .big => value
  | .little =>
    (value <<< 56) ||| ((value <<< 40) &&& (0x00FF000000000000 : UInt64)) |||
      ((value <<< 24) &&& (0x0000FF0000000000 : UInt64)) |||
      ((value <<< 8) &&& (0x000000FF00000000 : UInt64)) |||
      ((value >>> 8) &&& (0x00000000FF000000 : UInt64)) |||
      ((value >>> 24) &&& (0x0000000000FF0000 : UInt64)) |||
      ((value >>> 40) &&& (0x000000000000FF00 : UInt64)) ||| (value >>> 56)

def toNetworkI64 (native : Endian) (value : Int64) : Int64 :=
  (toNetworkU64 native value.toUInt64).toInt64

def toHostU16 (native : Endian) (value : UInt16) : UInt16 := toNetworkU16 native value

def toHostI16 (native : Endian) (value : Int16) : Int16 := toNetworkI16 native value

def toHostU32 (native : Endian) (value : UInt32) : UInt32 := toNetworkU32 native value

def toHostI32 (native : Endian) (value : Int32) : Int32 := toNetworkI32 native value

def toHostU64 (native : Endian) (value : UInt64) : UInt64 := toNetworkU64 native value

def toHostI64 (native : Endian) (value : Int64) : Int64 := toNetworkI64 native value

/-! ## The swap reverses bytes -/

theorem toNetworkU16_little {value : UInt16} {a b : UInt8} (h : value.toNat = ofBE [a, b]) :
    (toNetworkU16 .little value).toNat = ofBE [b, a] := by
  have ha := a.toNat_lt
  have hb := b.toNat_lt
  have hlow : value.toNat &&& 255 = value.toNat % 256 := and_255 _
  have hhigh : value.toNat &&& 65280 = value.toNat / 2 ^ 8 % 256 * 2 ^ 8 := and_byteMask _ 8
  simp only [ofBE, List.length_cons, List.length_nil] at h ⊢
  simp only [toNetworkU16, UInt16.toNat_or, UInt16.toNat_shiftLeft, UInt16.toNat_shiftRight,
    UInt16.toNat_and, UInt16.toNat_ofNat, Nat.shiftLeft_eq, Nat.shiftRight_eq_div_pow,
    Nat.reducePow, Nat.reduceMod]
  rw [hlow, hhigh,
    show value.toNat % 256 * 256 % 65536 = b.toNat * 2 ^ 8 by omega,
    show value.toNat / 2 ^ 8 % 256 * 2 ^ 8 / 256 = a.toNat by omega, or_eq_add ha]
  omega

theorem toNetworkU32_little {value : UInt32} {a b c d : UInt8}
    (h : value.toNat = ofBE [a, b, c, d]) :
    (toNetworkU32 .little value).toNat = ofBE [d, c, b, a] := by
  have ha := a.toNat_lt
  have hb := b.toNat_lt
  have hc := c.toNat_lt
  have hd := d.toNat_lt
  have hthird : value.toNat * 256 % 4294967296 &&& 16711680 =
      value.toNat * 256 % 4294967296 / 2 ^ 16 % 256 * 2 ^ 16 := and_byteMask _ 16
  have hsecond : value.toNat / 256 &&& 65280 = value.toNat / 256 / 2 ^ 8 % 256 * 2 ^ 8 :=
    and_byteMask _ 8
  simp only [ofBE, List.length_cons, List.length_nil] at h ⊢
  simp only [toNetworkU32, UInt32.toNat_or, UInt32.toNat_shiftLeft, UInt32.toNat_shiftRight,
    UInt32.toNat_and, UInt32.toNat_ofNat, Nat.shiftLeft_eq, Nat.shiftRight_eq_div_pow,
    Nat.reducePow, Nat.reduceMod]
  rw [hthird, hsecond,
    show value.toNat * 16777216 % 4294967296 = d.toNat * 2 ^ 24 by omega,
    show value.toNat * 256 % 4294967296 / 2 ^ 16 % 256 * 2 ^ 16 = c.toNat * 2 ^ 16 by omega,
    show value.toNat / 256 / 2 ^ 8 % 256 * 2 ^ 8 = b.toNat * 2 ^ 8 by omega,
    show value.toNat / 16777216 = a.toNat by omega,
    or_eq_add (by omega),
    show d.toNat * 2 ^ 24 + c.toNat * 2 ^ 16 = (d.toNat * 256 + c.toNat) * 2 ^ 16 by omega,
    or_eq_add (by omega),
    show (d.toNat * 256 + c.toNat) * 2 ^ 16 + b.toNat * 2 ^ 8 =
      ((d.toNat * 256 + c.toNat) * 256 + b.toNat) * 2 ^ 8 by omega,
    or_eq_add ha]
  omega

theorem toNetworkU64_little {value : UInt64} {a b c d e f g i : UInt8}
    (h : value.toNat = ofBE [a, b, c, d, e, f, g, i]) :
    (toNetworkU64 .little value).toNat = ofBE [i, g, f, e, d, c, b, a] := by
  have ha := a.toNat_lt
  have hb := b.toNat_lt
  have hc := c.toNat_lt
  have hd := d.toNat_lt
  have he := e.toNat_lt
  have hf := f.toNat_lt
  have hg := g.toNat_lt
  have hi := i.toNat_lt
  simp only [ofBE, List.length_cons, List.length_nil] at h ⊢
  simp only [toNetworkU64, UInt64.toNat_or, UInt64.toNat_shiftLeft, UInt64.toNat_shiftRight,
    UInt64.toNat_and, UInt64.toNat_ofNat, Nat.shiftLeft_eq, Nat.shiftRight_eq_div_pow,
    Nat.reducePow, Nat.reduceMod]
  have hfirst : value.toNat * 72057594037927936 % 18446744073709551616 = i.toNat * 2 ^ 56 := by
    omega
  have hsecond : value.toNat * 1099511627776 % 18446744073709551616 &&& 71776119061217280 =
      g.toNat * 2 ^ 48 := (and_byteMask _ 48).trans (by omega)
  have hthird : value.toNat * 16777216 % 18446744073709551616 &&& 280375465082880 =
      f.toNat * 2 ^ 40 := (and_byteMask _ 40).trans (by omega)
  have hfourth : value.toNat * 256 % 18446744073709551616 &&& 1095216660480 =
      e.toNat * 2 ^ 32 := (and_byteMask _ 32).trans (by omega)
  have hfifth : value.toNat / 256 &&& 4278190080 = d.toNat * 2 ^ 24 :=
    (and_byteMask _ 24).trans (by omega)
  have hsixth : value.toNat / 16777216 &&& 16711680 = c.toNat * 2 ^ 16 :=
    (and_byteMask _ 16).trans (by omega)
  have hseventh : value.toNat / 1099511627776 &&& 65280 = b.toNat * 2 ^ 8 :=
    (and_byteMask _ 8).trans (by omega)
  have heighth : value.toNat / 72057594037927936 = a.toNat * 2 ^ 0 := by omega
  rw [hfirst, hsecond, hthird, hfourth, hfifth, hsixth, hseventh, heighth, or_byte _ 48 hg,
    or_byte _ 40 hf, or_byte _ 32 he, or_byte _ 24 hd, or_byte _ 16 hc, or_byte _ 8 hb,
    or_byte _ 0 ha]
  omega

/-! ## Converting twice -/

theorem toNetworkU16_toNetworkU16 (native : Endian) (value : UInt16) :
    toNetworkU16 native (toNetworkU16 native value) = value := by
  cases native with
  | big => rfl
  | little =>
    obtain ⟨a, b, hval⟩ := exists_ofBE_two value.toNat_lt
    refine UInt16.toNat_inj.mp ?_
    rw [toNetworkU16_little (toNetworkU16_little hval), hval]

theorem toNetworkU32_toNetworkU32 (native : Endian) (value : UInt32) :
    toNetworkU32 native (toNetworkU32 native value) = value := by
  cases native with
  | big => rfl
  | little =>
    obtain ⟨a, b, c, d, hval⟩ := exists_ofBE_four value.toNat_lt
    refine UInt32.toNat_inj.mp ?_
    rw [toNetworkU32_little (toNetworkU32_little hval), hval]

theorem toNetworkU64_toNetworkU64 (native : Endian) (value : UInt64) :
    toNetworkU64 native (toNetworkU64 native value) = value := by
  cases native with
  | big => rfl
  | little =>
    obtain ⟨a, b, c, d, e, f, g, i, hval⟩ := exists_ofBE_eight value.toNat_lt
    refine UInt64.toNat_inj.mp ?_
    rw [toNetworkU64_little (toNetworkU64_little hval), hval]

@[simp] theorem toHostI16_toNetworkI16 (native : Endian) (value : Int16) :
    toHostI16 native (toNetworkI16 native value) = value := by
  rw [toHostI16, toNetworkI16, toNetworkI16, UInt16.toUInt16_toInt16,
    toNetworkU16_toNetworkU16, Int16.toInt16_toUInt16]

@[simp] theorem toHostI32_toNetworkI32 (native : Endian) (value : Int32) :
    toHostI32 native (toNetworkI32 native value) = value := by
  rw [toHostI32, toNetworkI32, toNetworkI32, UInt32.toUInt32_toInt32,
    toNetworkU32_toNetworkU32, Int32.toInt32_toUInt32]

theorem toHostI64_toNetworkI64 (native : Endian) (value : Int64) :
    toHostI64 native (toNetworkI64 native value) = value := by
  rw [toHostI64, toNetworkI64, toNetworkI64, UInt64.toUInt64_toInt64,
    toNetworkU64_toNetworkU64, Int64.toInt64_toUInt64]

/-! ## In memory -/

/-- The bytes of a word as they lie in the memory of a host. -/
def inMemory (native : Endian) (width n : Nat) : List UInt8 :=
  match native with
  | .big => toBE width n
  | .little => (toBE width n).reverse

theorem inMemory_little (bs : List UInt8) : inMemory .little bs.length (ofBE bs) = bs.reverse := by
  rw [inMemory, toBE_ofBE]

theorem toNetworkU16_inMemory (native : Endian) (value : UInt16) :
    inMemory native 2 (toNetworkU16 native value).toNat = toBE 2 value.toNat := by
  cases native with
  | big => rfl
  | little =>
    obtain ⟨a, b, hval⟩ := exists_ofBE_two value.toNat_lt
    rw [toNetworkU16_little hval, hval]
    exact (inMemory_little [b, a]).trans (toBE_ofBE [a, b]).symm

theorem toNetworkU32_inMemory (native : Endian) (value : UInt32) :
    inMemory native 4 (toNetworkU32 native value).toNat = toBE 4 value.toNat := by
  cases native with
  | big => rfl
  | little =>
    obtain ⟨a, b, c, d, hval⟩ := exists_ofBE_four value.toNat_lt
    rw [toNetworkU32_little hval, hval]
    exact (inMemory_little [d, c, b, a]).trans (toBE_ofBE [a, b, c, d]).symm

theorem toNetworkU64_inMemory (native : Endian) (value : UInt64) :
    inMemory native 8 (toNetworkU64 native value).toNat = toBE 8 value.toNat := by
  cases native with
  | big => rfl
  | little =>
    obtain ⟨a, b, c, d, e, f, g, i, hval⟩ := exists_ofBE_eight value.toNat_lt
    rw [toNetworkU64_little hval, hval]
    exact (inMemory_little [i, g, f, e, d, c, b, a]).trans
      (toBE_ofBE [a, b, c, d, e, f, g, i]).symm

/-- A word type and the two functions on it. -/
structure Overload where
  Word : Type
  width : Nat
  bits : Word → Nat
  toNetwork : Endian → Word → Word
  toHost : Endian → Word → Word

def overloads : List Overload :=
  [⟨UInt16, 2, UInt16.toNat, toNetworkU16, toHostU16⟩,
    ⟨Int16, 2, fun value => value.toUInt16.toNat, toNetworkI16, toHostI16⟩,
    ⟨UInt32, 4, UInt32.toNat, toNetworkU32, toHostU32⟩,
    ⟨Int32, 4, fun value => value.toUInt32.toNat, toNetworkI32, toHostI32⟩,
    ⟨UInt64, 8, UInt64.toNat, toNetworkU64, toHostU64⟩,
    ⟨Int64, 8, fun value => value.toUInt64.toNat, toNetworkI64, toHostI64⟩]

/-- On either host the bytes of a converted word lie in memory most significant
byte first, and converting it back gives the word. -/
theorem toNetwork_inMemory (o : Overload) (h : o ∈ overloads) (native : Endian) (value : o.Word) :
    inMemory native o.width (o.bits (o.toNetwork native value)) = toBE o.width (o.bits value) ∧
      o.toHost native (o.toNetwork native value) = value := by
  simp only [overloads, List.mem_cons, List.not_mem_nil, or_false] at h
  rcases h with rfl | rfl | rfl | rfl | rfl | rfl
  · exact ⟨toNetworkU16_inMemory native value, toNetworkU16_toNetworkU16 native value⟩
  · refine ⟨?_, toHostI16_toNetworkI16 native value⟩
    show inMemory native 2 (toNetworkI16 native value).toUInt16.toNat = _
    rw [toNetworkI16, UInt16.toUInt16_toInt16]
    exact toNetworkU16_inMemory native value.toUInt16
  · exact ⟨toNetworkU32_inMemory native value, toNetworkU32_toNetworkU32 native value⟩
  · refine ⟨?_, toHostI32_toNetworkI32 native value⟩
    show inMemory native 4 (toNetworkI32 native value).toUInt32.toNat = _
    rw [toNetworkI32, UInt32.toUInt32_toInt32]
    exact toNetworkU32_inMemory native value.toUInt32
  · exact ⟨toNetworkU64_inMemory native value, toNetworkU64_toNetworkU64 native value⟩
  · refine ⟨?_, toHostI64_toNetworkI64 native value⟩
    show inMemory native 8 (toNetworkI64 native value).toUInt64.toNat = _
    rw [toNetworkI64, UInt64.toUInt64_toInt64]
    exact toNetworkU64_inMemory native value.toUInt64

/-- A session id on a little-endian host. -/
theorem toNetwork_inMemory_minusTwo :
    inMemory .little 8 (toNetworkI64 .little (-2)).toUInt64.toNat =
        [255, 255, 255, 255, 255, 255, 255, 254] ∧
      toHostI64 .little (toNetworkI64 .little (-2)) = -2 := by
  have h := toNetwork_inMemory
    ⟨Int64, 8, fun value => value.toUInt64.toNat, toNetworkI64, toHostI64⟩
    (by simp [overloads]) .little (-2 : Int64)
  exact ⟨h.1.trans (by decide), h.2⟩

end BitConverter

end PlaySocket
