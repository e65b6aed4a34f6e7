import PlaySocket.RingBuffer.Valid

/-!
# The ring as a queue

`limit c m` is the largest capacity the doublings from `c` can reach below `m`.
Every write stores what fits below that limit and then throws if something is
left over, and every read takes from the front.  Growing keeps the limit, so it
is one number for the whole life of a ring.
-/

namespace PlaySocket
namespace RingBuffer

open Exec Doubling

variable {s : RingBuffer} {c m : Nat} {items : List UInt8}

/-- What a full ring throws. -/
def fullError : StdException := .outOfRange "Queue has reached maximum capacity"

theorem Holds.length_le_limit (h : Holds s c m items) : items.length ≤ limit c m :=
  Nat.le_trans h.length_le (le_limit c m)

theorem push_ok (h : Holds s c m items) (hlt : items.length < limit c m) (item : UInt8) :
    ∃ s' c', (push item).run s = .ok () s' ∧ Holds s' c' m (items ++ [item]) ∧
      Grows c c' (items.length + 1) := by
  by_cases hfull : items.length = c
  · have hle : 2 * c ≤ m := (double_le_iff h.pos).mpr (hfull ▸ hlt)
    obtain ⟨s', hrun, h'⟩ := push_grow h hfull hle item
    exact ⟨s', 2 * c, hrun, h', Doubles.double c, .inr (by omega)⟩
  · obtain ⟨s', hrun, h'⟩ := push_room h (Nat.lt_of_le_of_ne h.length_le hfull) item
    exact ⟨s', c, hrun, h', Grows.refl c _⟩

theorem push_thrown (h : Holds s c m items) (heq : items.length = limit c m) (item : UInt8) :
    (push item).run s = .thrown fullError s := by
  have hc : items.length = c := Nat.le_antisymm h.length_le (heq ▸ le_limit c m)
  have hdouble : ¬2 * c ≤ m := fun hle => by
    have := (double_le_iff h.pos).mp hle
    omega
  exact push_full h hc (by omega) item

/-! ## Blocks -/

theorem pushVector_ok (h : Holds s c m items) (data : List UInt8)
    (hfit : items.length + data.length ≤ limit c m) :
    ∃ s' c', (pushVector data).run s = .ok () s' ∧ Holds s' c' m (items ++ data) ∧
      Grows c c' (items.length + data.length) := by
  induction data generalizing s c items with
  | nil => exact ⟨s, c, rfl, by rwa [List.append_nil], Grows.refl c _⟩
  | cons b bs ih =>
    rw [List.length_cons] at hfit
    obtain ⟨s₁, c₁, hpush, h₁, hd₁⟩ := push_ok h (by omega) b
    have hlimit := hd₁.doubles.limit_eq h.pos h₁.le_max
    obtain ⟨s₂, c₂, hrest, h₂, hd₂⟩ := ih h₁ (by
      rw [hlimit, List.length_append, List.length_singleton]; omega)
    rw [List.length_append, List.length_singleton, Nat.add_assoc, Nat.add_comm 1] at hd₂
    refine ⟨s₂, c₂, ?_, by rwa [List.append_assoc, List.singleton_append] at h₂,
      hd₁.trans hd₂ (by rw [List.length_cons]; omega)⟩
    rw [pushVector, forEach, run_bind, hpush, Exit.andThen_ok]
    exact hrest

theorem pushVector_append (xs ys : List UInt8) (s : RingBuffer) :
    (pushVector (xs ++ ys)).run s =
      ((pushVector xs).run s).andThen fun _ t => (pushVector ys).run t := by
  induction xs generalizing s with
  | nil => rfl
  | cons x xs ih =>
    show ((push x).run s).andThen _ = Exit.andThen (((push x).run s).andThen _) _
    cases (push x).run s with
    | ok _ t => exact ih t
    | thrown e t => rfl
    | fault w => rfl

/-- A block that does not fit is stored up to the limit. -/
theorem pushVector_thrown (h : Holds s c m items) (data : List UInt8)
    (hover : limit c m < items.length + data.length) :
    ∃ s' c', (pushVector data).run s = .thrown fullError s' ∧
      Holds s' c' m (items ++ data.take (limit c m - items.length)) ∧ Doubles c c' := by
  induction data generalizing s c items with
  | nil =>
    have := h.length_le_limit
    rw [List.length_nil] at hover
    omega
  | cons b bs ih =>
    rw [List.length_cons] at hover
    by_cases hlt : items.length < limit c m
    · obtain ⟨s₁, c₁, hpush, h₁, hd₁⟩ := push_ok h hlt b
      have hlimit := hd₁.doubles.limit_eq h.pos h₁.le_max
      obtain ⟨s₂, c₂, hrest, h₂, hd₂⟩ := ih h₁ (by
        rw [hlimit, List.length_append, List.length_singleton]; omega)
      refine ⟨s₂, c₂, ?_, ?_, hd₁.doubles.trans hd₂⟩
      · rw [pushVector, forEach, run_bind, hpush, Exit.andThen_ok]
        exact hrest
      · have hroom : limit c m - items.length = limit c m - (items ++ [b]).length + 1 := by
          rw [List.length_append, List.length_singleton]; omega
        rw [hlimit, List.append_assoc, List.singleton_append] at h₂
        rwa [hroom, List.take_succ_cons]
    · have heq : items.length = limit c m := Nat.le_antisymm h.length_le_limit (by omega)
      refine ⟨s, c, ?_, ?_, Doubles.refl c⟩
      · rw [pushVector, forEach, run_bind, push_thrown h heq, Exit.andThen_thrown]
      · rwa [heq, Nat.sub_self, List.take_zero, List.append_nil]

/-- The part of a caller's memory a call reads. -/
def slice (buffer : List UInt8) (offset count : Nat) : List UInt8 :=
  (buffer.drop offset).take count

theorem write_loop (buffer : List UInt8) (offset : Nat) :
    ∀ (count i : Nat) (s : RingBuffer), offset + i + count ≤ buffer.length →
      (forRange (fun i _ => pushFrom buffer (offset + i)) i count ()).run s =
        (pushVector (slice buffer (offset + i) count)).run s
  | 0, i, s, _ => by rw [slice, List.take_zero]; rfl
  | count + 1, i, s, hfit => by
    have hlt : offset + i < buffer.length := by omega
    have hslice : slice buffer (offset + i) (count + 1) =
        buffer[offset + i] :: slice buffer (offset + (i + 1)) count := by
      rw [slice, slice, List.drop_eq_getElem_cons hlt, List.take_succ_cons, Nat.add_assoc]
    have hderef : (pushFrom buffer (offset + i)).run s = (push buffer[offset + i]).run s := by
      rw [pushFrom, deref, List.getElem?_eq_getElem hlt, run_bind, run_pure, Exit.andThen_ok]
    rw [hslice, pushVector, forEach, forRange, run_bind, run_bind, hderef]
    congr 1
    funext _ t
    exact write_loop buffer offset count (i + 1) t (by omega)

/-- Writing through a pointer is pushing the bytes it points to. -/
theorem write_eq {buffer : List UInt8} {offset count : Nat} (hfit : offset + count ≤ buffer.length)
    (s : RingBuffer) :
    (write buffer offset count).run s = (pushVector (slice buffer offset count)).run s :=
  write_loop buffer offset count 0 s hfit

theorem length_slice {buffer : List UInt8} {offset count : Nat}
    (hfit : offset + count ≤ buffer.length) : (slice buffer offset count).length = count := by
  rw [slice, List.length_take_of_le (by rw [List.length_drop]; omega)]

theorem slice_all (buffer : List UInt8) : slice buffer 0 buffer.length = buffer := by
  rw [slice, List.drop_zero, List.take_length]

/-! ## Taking from the front -/

theorem pop_nil (h : Holds s c m []) :
    pop.run s = .thrown (.runtimeError "Queue is empty") s := by
  rw [pop, run_bind, run_self, Exit.andThen_ok, run_bind,
    run_when (show s.size = 0 from h.size_eq), run_raise, Exit.andThen_thrown]

theorem pop_cons {item : UInt8} {rest : List UInt8} (h : Holds s c m (item :: rest)) :
    ∃ s', pop.run s = .ok item s' ∧ Holds s' c m rest := by
  have hsize := h.size_eq
  rw [List.length_cons] at hsize
  have hload := h.load_eq (i := 0) (Nat.succ_pos _)
  have hnext := h.nextIndex_eq 0
  rw [h.reader_eq] at hload hnext
  refine ⟨_, ?_, h.advance (Nat.succ_le_succ (Nat.zero_le _))⟩
  simp only [pop, run_bind, run_self, Exit.andThen_ok, run_when_not (show ¬s.size = 0 by omega),
    hload, hnext, run_update, run_pure, List.getElem_cons_zero]

theorem peek_nil (h : Holds s c m []) :
    peek.run s = .thrown (.runtimeError "Queue is empty") s := by
  rw [peek, run_bind, run_self, Exit.andThen_ok, run_bind,
    run_when (show s.size = 0 from h.size_eq), run_raise, Exit.andThen_thrown]

theorem peek_cons {item : UInt8} {rest : List UInt8} (h : Holds s c m (item :: rest)) :
    peek.run s = .ok item s := by
  have hsize := h.size_eq
  rw [List.length_cons] at hsize
  have hload := h.load_eq (i := 0) (Nat.succ_pos _)
  rw [h.reader_eq] at hload
  simp only [peek, run_bind, run_self, Exit.andThen_ok, run_when_not (show ¬s.size = 0 by omega),
    hload, List.getElem_cons_zero]

theorem clear_holds (h : Holds s c m items) : ∃ s', clear.run s = .ok () s' ∧ Holds s' c m [] := by
  refine ⟨_, rfl, ?_⟩
  exact {
    readerIndex_lt := h.capacity_pos
    size_le := Nat.zero_le _
    capacity_le := h.capacity_le
    headerIndex_eq := (Nat.zero_mod _).symm
    capacity_eq := h.capacity_eq
    maxCapacity_eq := h.maxCapacity_eq
    contents_eq := rfl }

theorem clearCount_over (h : Holds s c m items) {count : Nat} (hover : items.length < count) :
    (clearCount count).run s = .thrown (.invalidArgument "count exceeds queue size") s := by
  rw [clearCount, run_bind, run_self, Exit.andThen_ok, run_bind,
    run_when (by rw [h.size_eq]; exact hover), run_raise, Exit.andThen_thrown]

theorem clearCount_ok (h : Holds s c m items) {count : Nat} (hle : count ≤ items.length) :
    ∃ s', (clearCount count).run s = .ok () s' ∧ Holds s' c m (items.drop count) := by
  -- The loop moves the reader alone, and `_size` follows after it.
  obtain ⟨_, t, hrun, ht⟩ := @forRange_ok _ _ _ (fun _ _ => advanceReader)
    (fun i _ t => t = { s with readerIndex := (s.readerIndex + i) % c }) count 0 () s
    (by rw [h.reader_eq])
    (by
      rintro j - t - - rfl
      refine ⟨(), _, ?_, rfl⟩
      have hpos : 0 < capacity { s with readerIndex := (s.readerIndex + j) % c } := h.capacity_pos
      simp only [advanceReader, run_bind, run_self, Exit.andThen_ok, nextIndex_eq hpos,
        run_update]
      rw [show capacity { s with readerIndex := (s.readerIndex + j) % c } = c from h.capacity_eq,
        Nat.mod_add_mod, Nat.add_assoc])
  refine ⟨_, ?_, h.advance hle⟩
  rw [Nat.zero_add] at ht
  subst ht
  simp only [clearCount, run_bind, run_self, Exit.andThen_ok, hrun, run_update,
    run_when_not (show ¬count > s.size by rw [h.size_eq]; omega)]

/-- The stores that lay `bytes` out from index `start` on. -/
def storesFrom : Nat → List UInt8 → List Store
  | _, [] => []
  | start, b :: bs => { index := start, value := b } :: storesFrom (start + 1) bs

theorem storesFrom_values (bytes : List UInt8) :
    ∀ start, (storesFrom start bytes).map Store.value = bytes := by
  induction bytes with
  | nil => intro start; rfl
  | cons b bs ih => intro start; rw [storesFrom, List.map_cons, ih]

theorem mem_storesFrom {bytes : List UInt8} {i : Nat} (hi : i < bytes.length) :
    ∀ start, { index := start + i, value := bytes[i] } ∈ storesFrom start bytes := by
  induction bytes generalizing i with
  | nil => exact absurd hi (Nat.not_lt_zero i)
  | cons b bs ih =>
    intro start
    cases i with
    | zero => exact List.mem_cons_self
    | succ i =>
      have htail := ih (Nat.lt_of_succ_lt_succ hi) (start + 1)
      rw [Nat.add_assoc, Nat.add_comm 1] at htail
      exact List.mem_cons_of_mem _ htail

theorem readLoop_holds (offset : Nat) : ∀ (remaining bytesRead : Nat) {s : RingBuffer}
    {items : List UInt8}, Holds s c m items →
      ∃ s', (readLoop offset bytesRead remaining).run s =
          .ok (bytesRead + (items.take remaining).length,
            storesFrom (offset + bytesRead) (items.take remaining)) s' ∧
        Holds s' c m (items.drop remaining)
  | 0, bytesRead, s, items, h => ⟨s, rfl, h⟩
  | remaining + 1, bytesRead, s, [], h => by
    have hsize := h.size_eq
    refine ⟨s, ?_, h⟩
    rw [readLoop, run_bind, run_self, Exit.andThen_ok,
      if_neg (show ¬s.size > 0 by rw [hsize]; exact Nat.lt_irrefl 0)]
    rfl
  | remaining + 1, bytesRead, s, item :: rest, h => by
    have hsize := h.size_eq
    rw [List.length_cons] at hsize
    obtain ⟨s₁, hpop, h₁⟩ := pop_cons h
    obtain ⟨s₂, hloop, h₂⟩ := readLoop_holds offset remaining (bytesRead + 1) h₁
    refine ⟨s₂, ?_, h₂⟩
    rw [readLoop, run_bind, run_self, Exit.andThen_ok, if_pos (show s.size > 0 by omega)]
    simp only [run_bind, hpop, Exit.andThen_ok, hloop, run_pure, List.take_succ_cons,
      List.length_cons, storesFrom]
    rw [Nat.add_assoc bytesRead, Nat.add_comm 1]
    rfl

theorem read_holds (h : Holds s c m items) (offset count : Nat) :
    ∃ s', (read offset count).run s =
        .ok ((items.take count).length, storesFrom offset (items.take count)) s' ∧
      Holds s' c m (items.drop count) := by
  obtain ⟨s', hrun, h'⟩ := readLoop_holds offset count 0 h
  refine ⟨s', ?_, h'⟩
  rw [read, hrun, Nat.zero_add, Nat.add_zero]

end RingBuffer
end PlaySocket
