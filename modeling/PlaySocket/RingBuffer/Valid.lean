import PlaySocket.Lib.Cyclic
import PlaySocket.Lib.Doubling
import PlaySocket.RingBuffer.Basic

/-!
# What each operation of the ring does

`Valid` is the representation invariant and `contents` the bytes a valid ring
holds, in the order they leave it.  `Holds` names both at once, together with
the capacity and the maximum.

There is one lemma per operation and way of ending.  Everything later cites
these and never opens a member function again.
-/

namespace PlaySocket
namespace RingBuffer

open Exec Cyclic

/-- The representation invariant.  An empty ring and a full one have equal
indices, and only `size` tells them apart. -/
structure Valid (s : RingBuffer) : Prop where
  readerIndex_lt : s.readerIndex < s.capacity
  size_le : s.size ≤ s.capacity
  capacity_le : s.capacity ≤ s.maxCapacity
  headerIndex_eq : s.headerIndex = (s.readerIndex + s.size) % s.capacity

/-- The bytes from `readerIndex` on, cyclically. -/
def contents (s : RingBuffer) : List UInt8 := window s.buffer s.readerIndex s.size

/-- A valid ring of the given capacity and maximum with the given contents. -/
structure Holds (s : RingBuffer) (capacity maxCapacity : Nat) (items : List UInt8) : Prop
    extends Valid s where
  capacity_eq : s.capacity = capacity
  maxCapacity_eq : s.maxCapacity = maxCapacity
  contents_eq : s.contents = items

variable {s : RingBuffer} {c m : Nat} {items : List UInt8}

theorem Valid.holds (h : Valid s) : Holds s s.capacity s.maxCapacity s.contents :=
  { h with capacity_eq := rfl, maxCapacity_eq := rfl, contents_eq := rfl }

theorem Valid.capacity_pos (h : Valid s) : 0 < s.capacity :=
  Nat.lt_of_le_of_lt (Nat.zero_le _) h.readerIndex_lt

theorem Holds.size_eq (h : Holds s c m items) : s.size = items.length := by
  rw [← h.contents_eq, contents, length_window]

theorem Holds.length_le (h : Holds s c m items) : items.length ≤ c := by
  rw [← h.size_eq, ← h.capacity_eq]
  exact h.size_le

theorem Holds.pos (h : Holds s c m items) : 0 < c := h.capacity_eq ▸ h.capacity_pos

theorem Holds.le_max (h : Holds s c m items) : c ≤ m := by
  have := h.capacity_le
  rwa [h.capacity_eq, h.maxCapacity_eq] at this

theorem init_holds {capacity maxCapacity : Nat} (hpos : 0 < capacity)
    (hle : capacity ≤ maxCapacity) :
    Holds (init capacity maxCapacity) capacity maxCapacity [] where
  readerIndex_lt := by simpa [init, RingBuffer.capacity] using hpos
  size_le := Nat.zero_le _
  capacity_le := by simpa [init, RingBuffer.capacity] using hle
  headerIndex_eq := by simp [init]
  capacity_eq := by simp [init, RingBuffer.capacity]
  maxCapacity_eq := rfl
  contents_eq := rfl

/-! ## Indices and cells -/

theorem nextIndex_eq (hpos : 0 < s.capacity) (index : Nat) :
    (nextIndex index).run s = .ok ((index + 1) % s.capacity) s := by
  rw [nextIndex, run_bind, run_self, Exit.andThen_ok, if_neg (by omega), run_pure]

/-- The cell `i` steps behind the reader holds byte `i` of the contents. -/
theorem Holds.load_eq (h : Holds s c m items) {i : Nat} (hi : i < items.length) :
    (load ((s.readerIndex + i) % c)).run s = .ok items[i] s := by
  obtain rfl := h.contents_eq
  obtain rfl := h.capacity_eq
  have hlt : (s.readerIndex + i) % s.capacity < s.buffer.size := Nat.mod_lt _ h.pos
  have hcell : s.contents[i] = s.buffer[(s.readerIndex + i) % s.capacity]! := getElem_window hi
  rw [load, run_bind, run_self, Exit.andThen_ok, Array.getElem?_eq_getElem hlt, hcell,
    getElem!_pos s.buffer _ hlt, run_pure]

theorem Holds.reader_eq (h : Holds s c m items) : (s.readerIndex + 0) % c = s.readerIndex := by
  rw [Nat.add_zero, Nat.mod_eq_of_lt (h.capacity_eq ▸ h.readerIndex_lt)]

theorem Holds.nextIndex_eq (h : Holds s c m items) (i : Nat) :
    (nextIndex ((s.readerIndex + i) % c)).run s = .ok ((s.readerIndex + (i + 1)) % c) s := by
  rw [RingBuffer.nextIndex_eq h.capacity_pos, h.capacity_eq, Nat.mod_add_mod, Nat.add_assoc]

/-- Moving the reader over `k` bytes forgets them. -/
theorem Holds.advance (h : Holds s c m items) {k : Nat} (hk : k ≤ items.length) :
    Holds { s with readerIndex := (s.readerIndex + k) % c, size := s.size - k } c m
      (items.drop k) := by
  have hsize := h.size_eq
  have hle := h.length_le
  obtain rfl := h.capacity_eq
  exact {
    readerIndex_lt := Nat.mod_lt _ h.pos
    size_le := by show s.size - k ≤ s.capacity; omega
    capacity_le := h.capacity_le
    headerIndex_eq := by
      show s.headerIndex = ((s.readerIndex + k) % s.capacity + (s.size - k)) % s.capacity
      rw [Nat.mod_add_mod, h.headerIndex_eq]
      congr 1
      omega
    capacity_eq := rfl
    maxCapacity_eq := h.maxCapacity_eq
    contents_eq := by
      show window s.buffer ((s.readerIndex + k) % s.buffer.size) (s.size - k) = items.drop k
      rw [window_mod, ← drop_window, ← h.contents_eq, contents] }

/-! ## Pushing -/

theorem store_eq {vector : Array UInt8} {index : Nat} (h : index < vector.size) (item : UInt8) :
    (store vector index item).run s = .ok (vector.set index item h) s := by
  rw [store, dif_pos h, run_pure]

/-- The ring with one more byte in the cell behind its last. -/
def extend (s : RingBuffer) (item : UInt8) (h : s.headerIndex < s.buffer.size) : RingBuffer :=
  { s with
    buffer := s.buffer.set s.headerIndex item h
    headerIndex := (s.headerIndex + 1) % s.capacity
    size := s.size + 1 }

theorem capacity_extend (item : UInt8) (h : s.headerIndex < s.buffer.size) :
    (extend s item h).capacity = s.capacity := Array.size_set h

theorem push_extend (hroom : s.size ≠ s.capacity) (item : UInt8)
    (h : s.headerIndex < s.buffer.size) : (push item).run s = .ok () (extend s item h) := by
  have hcapacity : ({ s with buffer := s.buffer.set s.headerIndex item h } : RingBuffer).capacity =
      s.capacity := Array.size_set h
  have hpos : 0 < s.capacity := Nat.lt_of_le_of_lt (Nat.zero_le _) h
  rw [push, run_bind, run_self, Exit.andThen_ok, run_bind, run_when_not hroom, Exit.andThen_ok,
    run_bind, run_self, Exit.andThen_ok, run_bind, store_eq h, Exit.andThen_ok, run_bind,
    run_update, Exit.andThen_ok, run_bind, nextIndex_eq (hcapacity ▸ hpos), hcapacity]
  rfl

/-- A push that finds a free cell. -/
theorem push_room (h : Holds s c m items) (hroom : items.length < c) (item : UInt8) :
    ∃ s', (push item).run s = .ok () s' ∧ Holds s' c m (items ++ [item]) := by
  have hsize := h.size_eq
  obtain rfl := h.capacity_eq
  have hheader : s.headerIndex < s.buffer.size := by
    rw [h.headerIndex_eq]
    exact Nat.mod_lt _ h.pos
  have hcapacity := capacity_extend item hheader
  refine ⟨extend s item hheader, push_extend (by omega) item hheader, ?_⟩
  exact {
    readerIndex_lt := hcapacity ▸ h.readerIndex_lt
    size_le := by rw [hcapacity]; show s.size + 1 ≤ s.capacity; omega
    capacity_le := hcapacity ▸ h.capacity_le
    headerIndex_eq := by
      rw [hcapacity]
      show (s.headerIndex + 1) % s.capacity = (s.readerIndex + (s.size + 1)) % s.capacity
      rw [h.headerIndex_eq, Nat.mod_add_mod, Nat.add_assoc]
    capacity_eq := hcapacity
    maxCapacity_eq := h.maxCapacity_eq
    contents_eq := by
      have hroom' : s.size < s.buffer.size := hsize ▸ hroom
      have hhead : s.headerIndex = (s.readerIndex + s.size) % s.buffer.size := h.headerIndex_eq
      show window (s.buffer.set s.headerIndex item hheader) s.readerIndex (s.size + 1) = _
      rw [← h.contents_eq, contents, ← window_set hroom' (Nat.mod_lt _ h.pos) item]
      simp only [hhead] }

theorem resizeBuffer_over {newCapacity : Nat} (h : s.maxCapacity < newCapacity) :
    (resizeBuffer newCapacity).run s =
      .thrown (.outOfRange "Queue has reached maximum capacity") s := by
  rw [resizeBuffer, run_bind, run_self, Exit.andThen_ok, run_bind, run_when h, run_raise,
    Exit.andThen_thrown]

/-- Before round `i` of the copying loop the first `i` cells of the new vector
hold the first `i` bytes, and `currentIndex` is `i` steps behind the reader. -/
def Copied (s : RingBuffer) (c newCapacity : Nat) (items : List UInt8) (i : Nat)
    (locals : Array UInt8 × Nat) (t : RingBuffer) : Prop :=
  t = s ∧ locals.1.size = newCapacity ∧ locals.2 = (s.readerIndex + i) % c ∧
    ∀ j (hj : j < items.length), j < i → locals.1[j]! = items[j]

theorem copyItem_copied (h : Holds s c m items) {newCapacity i : Nat} (hi : i < items.length)
    (hfit : i < newCapacity) {locals : Array UInt8 × Nat} {t : RingBuffer}
    (hcopied : Copied s c newCapacity items i locals t) :
    ∃ locals' t', (copyItem i locals).run t = .ok locals' t' ∧
      Copied s c newCapacity items (i + 1) locals' t' := by
  obtain ⟨newBuffer, currentIndex⟩ := locals
  obtain ⟨rfl, hnew, rfl, hcells⟩ := hcopied
  have hlt : i < newBuffer.size := by
    have : newBuffer.size = newCapacity := hnew
    omega
  refine ⟨(newBuffer.set i items[i] hlt, (t.readerIndex + (i + 1)) % c), t, ?_, rfl,
    (Array.size_set hlt).trans hnew, rfl, fun j hj hji => ?_⟩
  · simp only [copyItem, run_bind, h.load_eq hi, Exit.andThen_ok, store_eq hlt, h.nextIndex_eq,
      run_pure]
  · show (newBuffer.set i items[i] hlt)[j]! = items[j]
    rw [getElem!_set hlt]
    by_cases hij : i = j
    · subst hij
      rw [if_pos rfl]
    · rw [if_neg hij]
      exact hcells j hj (by omega)

/-- `resizeBuffer` straightens the contents out. -/
theorem resizeBuffer_copies (h : Holds s c m items) {newCapacity : Nat}
    (hfit : items.length ≤ newCapacity) (hle : newCapacity ≤ m) :
    ∃ buffer, (resizeBuffer newCapacity).run s =
        .ok () { s with buffer := buffer, readerIndex := 0, headerIndex := s.size } ∧
      buffer.size = newCapacity ∧ window buffer 0 items.length = items := by
  have hsize := h.size_eq
  have hinit : Copied s c newCapacity items 0
      (Array.replicate newCapacity 0, s.readerIndex) s :=
    ⟨rfl, Array.size_replicate, h.reader_eq.symm, fun j _ hj => absurd hj (Nat.not_lt_zero j)⟩
  obtain ⟨⟨buffer, index⟩, t, hrun, ht, hnew, -, hcells⟩ :=
    forRange_ok (Copied s c newCapacity items) s.size 0 _ s hinit
      (fun j _ _ _ hj hcopied => copyItem_copied h (by omega) (by omega) hcopied)
  subst ht
  replace hnew : buffer.size = newCapacity := hnew
  refine ⟨buffer, ?_, hnew, ?_⟩
  · simp only [resizeBuffer, run_bind, run_self, Exit.andThen_ok, hrun, run_update,
      run_when_not (show ¬newCapacity > t.maxCapacity by rw [h.maxCapacity_eq]; omega)]
  · refine List.ext_getElem (length_window _ _ _) (fun i h₁ h₂ => ?_)
    rw [getElem_window, Nat.zero_add, Nat.mod_eq_of_lt (by omega)]
    exact hcells i h₂ (by omega)

/-- A vector too short for the contents is written past its end. -/
theorem resizeBuffer_short (h : Holds s c m items) {newCapacity : Nat}
    (hshort : newCapacity < items.length) (hle : newCapacity ≤ m) :
    (resizeBuffer newCapacity).run s = .fault .outOfBounds := by
  have hinit : Copied s c newCapacity items 0
      (Array.replicate newCapacity 0, s.readerIndex) s :=
    ⟨rfl, Array.size_replicate, h.reader_eq.symm, fun j _ hj => absurd hj (Nat.not_lt_zero j)⟩
  obtain ⟨⟨buffer, index⟩, t, hrun, ht, hnew, hindex, -⟩ :=
    forRange_ok (Copied s c newCapacity items) newCapacity 0 _ s hinit
      (fun j _ _ _ hj hcopied => copyItem_copied h (by omega) (by omega) hcopied)
  subst ht
  replace hnew : buffer.size = newCapacity := hnew
  rw [Nat.zero_add] at hindex
  replace hindex : index = (t.readerIndex + newCapacity) % c := hindex
  have hnext : (copyItem newCapacity (buffer, index)).run t = .fault .outOfBounds := by
    rw [copyItem, run_bind, hindex, h.load_eq hshort, Exit.andThen_ok, run_bind, store,
      dif_neg (show ¬newCapacity < buffer.size by omega), run_undefined, Exit.andThen_fault]
  obtain ⟨rest, hrest⟩ : ∃ rest, t.size = newCapacity + (rest + 1) :=
    ⟨t.size - newCapacity - 1, by rw [h.size_eq]; omega⟩
  rw [resizeBuffer, run_bind, run_self, Exit.andThen_ok, run_bind,
    run_when_not (show ¬newCapacity > t.maxCapacity by rw [h.maxCapacity_eq]; omega),
    Exit.andThen_ok, run_bind, hrest, forRange_add, hrun, Exit.andThen_ok, Nat.zero_add, forRange,
    run_bind, hnext, Exit.andThen_fault, Exit.andThen_fault]

theorem resizeBuffer_holds (h : Holds s c m items) {newCapacity : Nat}
    (hfit : items.length < newCapacity) (hle : newCapacity ≤ m) :
    ∃ s', (resizeBuffer newCapacity).run s = .ok () s' ∧ Holds s' newCapacity m items := by
  obtain ⟨buffer, hrun, hnew, hwindow⟩ := resizeBuffer_copies h (Nat.le_of_lt hfit) hle
  have hsize := h.size_eq
  refine ⟨_, hrun, ?_⟩
  exact {
    readerIndex_lt := by show 0 < buffer.size; omega
    size_le := by show s.size ≤ buffer.size; omega
    capacity_le := by show buffer.size ≤ s.maxCapacity; rw [h.maxCapacity_eq]; omega
    headerIndex_eq := by
      show s.size = (0 + s.size) % buffer.size
      rw [Nat.zero_add, Nat.mod_eq_of_lt (by omega)]
    capacity_eq := hnew
    maxCapacity_eq := h.maxCapacity_eq
    contents_eq := by
      show window buffer 0 s.size = items
      rw [hsize, hwindow] }

/-- A push on a full ring that may still double. -/
theorem push_grow (h : Holds s c m items) (hfull : items.length = c) (hle : 2 * c ≤ m)
    (item : UInt8) :
    ∃ s', (push item).run s = .ok () s' ∧ Holds s' (2 * c) m (items ++ [item]) := by
  have hpos := h.pos
  have hsize : s.size = s.capacity := by rw [h.size_eq, h.capacity_eq, hfull]
  obtain ⟨s₁, hresize, h₁⟩ := resizeBuffer_holds h (by omega : items.length < 2 * c) hle
  obtain ⟨s₂, hpush, h₂⟩ := push_room h₁ (by omega) item
  refine ⟨s₂, ?_, h₂⟩
  have hne : s₁.size ≠ s₁.capacity := by rw [h₁.size_eq, h₁.capacity_eq]; omega
  have hdouble : s.capacity * 2 = 2 * c := by rw [h.capacity_eq, Nat.mul_comm]
  -- After the growth the rest of `push` is what a push on the grown ring does.
  rw [← hpush]
  simp only [push, run_bind, run_self, Exit.andThen_ok, run_when hsize, run_when_not hne, hdouble,
    hresize]

/-- A push on a full ring that may not double. -/
theorem push_full (h : Holds s c m items) (hfull : items.length = c) (hlt : m < 2 * c)
    (item : UInt8) :
    (push item).run s = .thrown (.outOfRange "Queue has reached maximum capacity") s := by
  have hsize : s.size = s.capacity := by rw [h.size_eq, h.capacity_eq, hfull]
  have hmax : s.maxCapacity < s.capacity * 2 := by rw [h.maxCapacity_eq, h.capacity_eq]; omega
  simp only [push, run_bind, run_self, Exit.andThen_ok, run_when hsize, resizeBuffer_over hmax,
    Exit.andThen_thrown]

end RingBuffer
end PlaySocket
