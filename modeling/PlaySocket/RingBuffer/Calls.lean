import PlaySocket.RingBuffer.Fifo

/-!
# Every call on a ring

`RingCall` is the public interface of the class but for `resizeBuffer`, integers
read and peeked included.  `exec_cases` says what each call does to a ring that
holds `items`, in three words.  A call `offers` bytes to the back, `takes` some
from the front, and `yields` a result.  If it throws it has taken nothing and
stored of what it offers as much as there is room for.
-/

namespace PlaySocket

open Exec Bytes Doubling

inductive RingCall where
  | operation (op : RingOp)
  | readInt8
  | readInt16
  | readInt32
  | peekInt16
  | peekInt32

inductive RingResult where
  | value (value : RingValue)
  | int8 (value : Int8)
  | int16 (value : Int16)
  | int32 (value : Int32)
deriving DecidableEq, Repr

/-- The bytes an operation offers to the back of the queue. -/
def RingOp.offers : RingOp → List UInt8
  | push item => [item]
  | pushVector data => data
  | write buffer offset count _ => RingBuffer.slice buffer offset count
  | writeSpan buffer => buffer
  | writeU16 value => toBE 2 value.toNat
  | writeU32 value => toBE 4 value.toNat
  | writeI16 value => toBE 2 value.toUInt16.toNat
  | writeI32 value => toBE 4 value.toUInt32.toNat
  | writeU8 value => [value]
  | writeI8 value => [value.toUInt8]
  | pop | peek | clear | clearCount _ | read _ _ => []

/-- The operations that write. -/
def RingOp.Stores : RingOp → Prop
  | pop | peek | clear | clearCount _ | read _ _ => False
  | _ => True

namespace RingCall

def exec : RingCall → RingExec RingResult
  | operation op => do
    let value ← op.exec
    pure (.value value)
  | readInt8 => do
    let value ← RingBuffer.readInt8
    pure (.int8 value)
  | readInt16 => do
    let value ← RingBuffer.readInt16
    pure (.int16 value)
  | readInt32 => do
    let value ← RingBuffer.readInt32
    pure (.int32 value)
  | peekInt16 => do
    let value ← RingBuffer.peekInt16
    pure (.int16 value)
  | peekInt32 => do
    let value ← RingBuffer.peekInt32
    pure (.int32 value)

def offers : RingCall → List UInt8
  | operation op => op.offers
  | _ => []

/-- How many of the bytes `items` a call takes when it returns. -/
def takes : RingCall → List UInt8 → Nat
  | operation .pop, _ => 1
  | operation .clear, items => items.length
  | operation (.clearCount count), _ => count
  | operation (.read _ count), _ => count
  | operation _, _ => 0
  | readInt8, _ => 1
  | readInt16, _ => 2
  | readInt32, _ => 4
  | peekInt16, _ => 0
  | peekInt32, _ => 0

/-- What a call gives back when it returns. -/
def yields : RingCall → List UInt8 → RingResult
  | operation .pop, items => .value (.byte (items.headD 0))
  | operation .peek, items => .value (.byte (items.headD 0))
  | operation (.read offset count), items =>
    .value (.stores (items.take count).length (RingBuffer.storesFrom offset (items.take count)))
  | operation _, _ => .value .unit
  | readInt8, items => .int8 (items.headD 0).toInt8
  | readInt16, items => .int16 (RingBuffer.int16OfBE items)
  | readInt32, items => .int32 (RingBuffer.int32OfBE items)
  | peekInt16, items => .int16 (RingBuffer.int16OfBE items)
  | peekInt32, items => .int32 (RingBuffer.int32OfBE items)

end RingCall

namespace RingBuffer

variable {s s' : RingBuffer} {c m : Nat} {items : List UInt8}

/-- The exceptions written in the member functions. -/
def memberErrors : List StdException :=
  [fullError, .runtimeError "Queue is empty", .invalidArgument "count exceeds queue size",
    indexError]

theorem emptyError_mem : .runtimeError "Queue is empty" ∈ memberErrors := .tail _ (.head _)

theorem countError_mem : .invalidArgument "count exceeds queue size" ∈ memberErrors :=
  .tail _ (.tail _ (.head _))

theorem indexError_mem : indexError ∈ memberErrors := .tail _ (.tail _ (.tail _ (.head _)))

/-- A ring that holds `items`, grown no further from capacity `c` than they need. -/
def Reaches (c m : Nat) (s' : RingBuffer) (items : List UInt8) : Prop :=
  ∃ c', Holds s' c' m items ∧ Grows c c' items.length

theorem Holds.reaches (h : Holds s c m items) : Reaches c m s items :=
  ⟨c, h, Grows.refl c _⟩

theorem Reaches.contents_eq (h : Reaches c m s items) : s.contents = items := by
  obtain ⟨_, h, _⟩ := h
  exact h.contents_eq

theorem Reaches.size_eq (h : Reaches c m s items) : s.size = items.length := by
  obtain ⟨_, h, _⟩ := h
  exact h.size_eq

/-- Growing keeps the limit, so no call takes a ring over it. -/
theorem Reaches.length_le_limit (h : Reaches c m s items) (hpos : 0 < c) :
    items.length ≤ limit c m := by
  obtain ⟨c', h, hgrows⟩ := h
  rw [← hgrows.doubles.limit_eq hpos h.le_max]
  exact h.length_le_limit

/-- The call returns. -/
def Returns (call : RingCall) (s : RingBuffer) (c m : Nat) (items : List UInt8) : Prop :=
  ∃ s', call.exec.run s = .ok (call.yields items) s' ∧
    Reaches c m s' (items.drop (call.takes items) ++ call.offers)

/-- The call throws. -/
def Throws (call : RingCall) (s : RingBuffer) (c m : Nat) (items : List UInt8) : Prop :=
  ∃ e s', call.exec.run s = .thrown e s' ∧ e ∈ memberErrors ∧
    (call.offers = [] ∨ limit c m < items.length + call.offers.length) ∧
    Reaches c m s' (items ++ call.offers.take (limit c m - items.length))

/-! ## Writes -/

/-- Every write pushes what it offers. -/
theorem exec_store {op : RingOp} (hstores : op.Stores) (s : RingBuffer) :
    op.exec.run s = (do pushVector op.offers; pure RingValue.unit : RingExec RingValue).run s := by
  have hbind : ∀ {x : RingExec Unit}, (∀ s, x.run s = (pushVector op.offers).run s) →
      (do x; pure RingValue.unit : RingExec RingValue).run s =
        (do pushVector op.offers; pure RingValue.unit : RingExec RingValue).run s := by
    intro x hx
    rw [run_bind, run_bind, hx]
  cases op with
  | push item => exact hbind (push_eq item)
  | pushVector data => rfl
  | write buffer offset count fits => exact hbind (write_eq fits)
  | writeSpan buffer => rfl
  | writeU16 value => exact hbind (writeU16_eq value)
  | writeU32 value => exact hbind (writeU32_eq value)
  | writeI16 value => exact hbind (writeU16_eq value.toUInt16)
  | writeI32 value => exact hbind (writeU32_eq value.toUInt32)
  | writeU8 value => exact hbind (push_eq value)
  | writeI8 value => exact hbind (push_eq value.toUInt8)
  | pop | peek | clear | clearCount _ | read _ _ => exact absurd hstores id

theorem takes_store {op : RingOp} (hstores : op.Stores) (items : List UInt8) :
    (RingCall.operation op).takes items = 0 := by
  cases op <;> first | rfl | exact absurd hstores id

theorem yields_store {op : RingOp} (hstores : op.Stores) (items : List UInt8) :
    (RingCall.operation op).yields items = .value .unit := by
  cases op <;> first | rfl | exact absurd hstores id

theorem stores_of_offers {op : RingOp} (h : op.offers ≠ []) : op.Stores := by
  cases op <;> first | exact trivial | exact absurd rfl h

/-- What offers bytes takes none. -/
theorem takes_of_offers {call : RingCall} (h : call.offers ≠ []) (items : List UInt8) :
    call.takes items = 0 := by
  cases call with
  | operation op => exact takes_store (stores_of_offers h) items
  | readInt8 | readInt16 | readInt32 => exact absurd rfl h
  | peekInt16 | peekInt32 => rfl

theorem store_cases (h : Holds s c m items) {op : RingOp} (hstores : op.Stores) :
    Returns (.operation op) s c m items ∨ Throws (.operation op) s c m items := by
  have htakes := takes_store hstores items
  have hyields := yields_store hstores items
  by_cases hover : limit c m < items.length + op.offers.length
  · obtain ⟨s', c', hrun, h', hdoubles⟩ := pushVector_thrown h op.offers hover
    have hlength : (items ++ op.offers.take (limit c m - items.length)).length = limit c m := by
      have hle := h.length_le_limit
      rw [List.length_append, List.length_take_of_le (by omega)]
      omega
    have hpos : 0 < limit c m := Nat.lt_of_lt_of_le h.pos (le_limit c m)
    have hcapacity : c' ≤ limit c m := by
      rw [← hdoubles.limit_eq h.pos h'.le_max]
      exact le_limit c' m
    refine .inr ⟨fullError, s', ?_, List.mem_cons_self, .inr hover, c', h', hdoubles, .inr ?_⟩
    · simp only [RingCall.exec, run_bind, exec_store hstores, hrun, Exit.andThen_thrown]
    · rw [RingCall.offers, hlength]
      omega
  · obtain ⟨s', c', hrun, h', hgrows⟩ := pushVector_ok h op.offers (by omega)
    refine .inl ⟨s', ?_, c', ?_, ?_⟩
    · simp only [RingCall.exec, run_bind, exec_store hstores, hrun, Exit.andThen_ok, run_pure,
        hyields]
    · rw [htakes, List.drop_zero]
      exact h'
    · rw [htakes, List.drop_zero, RingCall.offers, List.length_append]
      exact hgrows

/-! ## Reads -/

theorem returns_of_run {call : RingCall} {items' : List UInt8} (hoffers : call.offers = [])
    (hrun : call.exec.run s = .ok (call.yields items) s') (h : Holds s' c m items')
    (hitems : items.drop (call.takes items) = items') : Returns call s c m items := by
  refine ⟨s', hrun, ?_⟩
  rw [hoffers, List.append_nil, hitems]
  exact h.reaches

theorem throws_of_run {call : RingCall} (hoffers : call.offers = []) {e : StdException}
    (hrun : call.exec.run s = .thrown e s) (he : e ∈ memberErrors) (h : Holds s c m items) :
    Throws call s c m items := by
  refine ⟨e, s, hrun, he, .inl hoffers, ?_⟩
  rw [hoffers, List.take_nil, List.append_nil]
  exact h.reaches

/-- An integer is read from enough bytes on a ring with a free cell, or not at all. -/
theorem integer_cases (h : Holds s c m items) (width : Nat) :
    (width ≤ items.length ∧ items.length < c) ∨ (items.length < width ∨ items.length = c) := by
  have hle := h.length_le
  omega

/-- What every call does. -/
theorem exec_cases (h : Holds s c m items) (call : RingCall) :
    Returns call s c m items ∨ Throws call s c m items := by
  cases call with
  | operation op =>
    cases op with
    | push _ | pushVector _ | write _ _ _ _ | writeSpan _ | writeU16 _ | writeU32 _ | writeI16 _
    | writeI32 _ | writeU8 _ | writeI8 _ => exact store_cases h trivial
    | pop =>
      cases items with
      | nil =>
        refine .inr (throws_of_run rfl ?_ emptyError_mem h)
        simp only [RingCall.exec, RingOp.exec, run_bind, pop_nil h, Exit.andThen_thrown]
      | cons item rest =>
        obtain ⟨s', hpop, h'⟩ := pop_cons h
        refine .inl (returns_of_run rfl ?_ h' rfl)
        simp only [RingCall.exec, RingOp.exec, run_bind, hpop, Exit.andThen_ok, run_pure]
        rfl
    | peek =>
      cases items with
      | nil =>
        refine .inr (throws_of_run rfl ?_ emptyError_mem h)
        simp only [RingCall.exec, RingOp.exec, run_bind, peek_nil h, Exit.andThen_thrown]
      | cons item rest =>
        refine .inl (returns_of_run rfl ?_ h rfl)
        simp only [RingCall.exec, RingOp.exec, run_bind, peek_cons h, Exit.andThen_ok, run_pure]
        rfl
    | clear =>
      obtain ⟨s', hclear, h'⟩ := clear_holds h
      refine .inl (returns_of_run rfl ?_ h' List.drop_length)
      simp only [RingCall.exec, RingOp.exec, run_bind, hclear, Exit.andThen_ok, run_pure]
      rfl
    | clearCount count =>
      by_cases hover : items.length < count
      · refine .inr (throws_of_run rfl ?_ countError_mem h)
        simp only [RingCall.exec, RingOp.exec, run_bind, clearCount_over h hover,
          Exit.andThen_thrown]
      · obtain ⟨s', hclear, h'⟩ := clearCount_ok h (Nat.le_of_not_lt hover)
        refine .inl (returns_of_run rfl ?_ h' rfl)
        simp only [RingCall.exec, RingOp.exec, run_bind, hclear, Exit.andThen_ok, run_pure]
        rfl
    | read offset count =>
      obtain ⟨s', hread, h'⟩ := read_holds h offset count
      refine .inl (returns_of_run rfl ?_ h' rfl)
      simp only [RingCall.exec, RingOp.exec, run_bind, hread, Exit.andThen_ok, run_pure]
      rfl
  | readInt8 =>
    cases items with
    | nil =>
      refine .inr (throws_of_run rfl ?_ emptyError_mem h)
      simp only [RingCall.exec, readInt8, run_bind, pop_nil h, Exit.andThen_thrown]
    | cons item rest =>
      obtain ⟨s', hread, h'⟩ := readInt8_ok h
      refine .inl (returns_of_run rfl ?_ h' rfl)
      simp only [RingCall.exec, run_bind, hread, Exit.andThen_ok, run_pure]
      rfl
  | readInt16 =>
    rcases integer_cases h 2 with hlong | hshort
    · obtain ⟨s', hread, h'⟩ := readInt16_ok h hlong.1 hlong.2
      refine .inl (returns_of_run rfl ?_ h' rfl)
      simp only [RingCall.exec, run_bind, hread, Exit.andThen_ok, run_pure]
      rfl
    · refine .inr (throws_of_run rfl ?_ indexError_mem h)
      simp only [RingCall.exec, run_bind, readInt16_thrown h hshort, Exit.andThen_thrown]
  | readInt32 =>
    rcases integer_cases h 4 with hlong | hshort
    · obtain ⟨s', hread, h'⟩ := readInt32_ok h hlong.1 hlong.2
      refine .inl (returns_of_run rfl ?_ h' rfl)
      simp only [RingCall.exec, run_bind, hread, Exit.andThen_ok, run_pure]
      rfl
    · refine .inr (throws_of_run rfl ?_ indexError_mem h)
      simp only [RingCall.exec, run_bind, readInt32_thrown h hshort, Exit.andThen_thrown]
  | peekInt16 =>
    rcases integer_cases h 2 with hlong | hshort
    · refine .inl (returns_of_run rfl ?_ h rfl)
      simp only [RingCall.exec, run_bind, peekInt16_ok h hlong.1 hlong.2, Exit.andThen_ok, run_pure]
      rfl
    · refine .inr (throws_of_run rfl ?_ indexError_mem h)
      simp only [RingCall.exec, run_bind, peekInt16_thrown h hshort, Exit.andThen_thrown]
  | peekInt32 =>
    rcases integer_cases h 4 with hlong | hshort
    · refine .inl (returns_of_run rfl ?_ h rfl)
      simp only [RingCall.exec, run_bind, peekInt32_ok h hlong.1 hlong.2, Exit.andThen_ok, run_pure]
      rfl
    · refine .inr (throws_of_run rfl ?_ indexError_mem h)
      simp only [RingCall.exec, run_bind, peekInt32_thrown h hshort, Exit.andThen_thrown]

theorem exec_returned (h : Holds s c m items) {call : RingCall} {result : RingResult}
    (hrun : call.exec.run s = .ok result s') :
    result = call.yields items ∧ Reaches c m s' (items.drop (call.takes items) ++ call.offers) := by
  rcases exec_cases h call with hret | hthrown
  · obtain ⟨s₁, hcall, h'⟩ := hret
    rw [hcall] at hrun
    cases hrun
    exact ⟨rfl, h'⟩
  · obtain ⟨e, s₁, hcall, _⟩ := hthrown
    rw [hcall] at hrun
    cases hrun

theorem exec_thrown (h : Holds s c m items) {call : RingCall} {e : StdException}
    (hrun : call.exec.run s = .thrown e s') :
    (call.offers = [] ∨ limit c m < items.length + call.offers.length) ∧
      Reaches c m s' (items ++ call.offers.take (limit c m - items.length)) := by
  rcases exec_cases h call with hret | hthrown
  · obtain ⟨s₁, hcall, _⟩ := hret
    rw [hcall] at hrun
    cases hrun
  · obtain ⟨e₁, s₁, hcall, _, hover, h'⟩ := hthrown
    rw [hcall] at hrun
    cases hrun
    exact ⟨hover, h'⟩

/-! ## Runs -/

/-- A ring in working order, of capacity `c` when it was made. -/
def Sound (c m : Nat) (s : RingBuffer) : Prop :=
  ∃ c' items, Holds s c' m items ∧ Doubles c c'

theorem init_sound (hpos : 1 ≤ c) (hle : c ≤ m) : Sound c m (init c m) :=
  ⟨c, [], init_holds hpos hle, Doubles.refl c⟩

theorem Sound.reaches {c' : Nat} (hdoubles : Doubles c c') (h : Reaches c' m s items) :
    Sound c m s := by
  obtain ⟨c'', h, hgrows⟩ := h
  exact ⟨c'', items, h, hdoubles.trans hgrows.doubles⟩

theorem exec_keeps (c m : Nat) (call : RingCall) :
    KeepsRaising (Sound c m) (· ∈ memberErrors) call.exec := by
  intro s hsound
  obtain ⟨c', items, h, hdoubles⟩ := hsound
  rcases exec_cases h call with hret | hthrown
  · obtain ⟨s', hrun, h'⟩ := hret
    exact .inl ⟨_, s', hrun, Sound.reaches hdoubles h'⟩
  · obtain ⟨e, s', hrun, he, _, h'⟩ := hthrown
    exact .inr ⟨e, s', hrun, he, Sound.reaches hdoubles h'⟩

theorem construct_eq {c m : Nat} (hle : c ≤ m) : construct c m = .ok (init c m) :=
  if_neg (Nat.not_lt.mpr hle)

/-- No run on a ring of at least one cell goes wrong, and it throws what is
written in the class. -/
theorem run_raises (hpos : 1 ≤ c) (hle : c ≤ m) (calls : List RingCall) :
    ∃ results s', runAll (calls.map RingCall.exec) (init c m) = some (results, s') ∧
      Sound c m s' ∧ ∀ e, .error e ∈ results → e ∈ memberErrors := by
  have hkeeps : ∀ x ∈ calls.map RingCall.exec, KeepsRaising (Sound c m) (· ∈ memberErrors) x := by
    intro x hx
    obtain ⟨call, _, rfl⟩ := List.mem_map.mp hx
    exact exec_keeps c m call
  exact KeepsRaising.runAll hkeeps (init c m) (init_sound hpos hle)

theorem run_sound (hpos : 1 ≤ c) (hle : c ≤ m) (calls : List RingCall) :
    ∃ results s', runAll (calls.map RingCall.exec) (init c m) = some (results, s') ∧
      Sound c m s' := by
  obtain ⟨results, s', hrun, hsound, _⟩ := run_raises hpos hle calls
  exact ⟨results, s', hrun, hsound⟩

theorem sound_of_run (hpos : 1 ≤ c) (hle : c ≤ m) {calls : List RingCall}
    {results : List (Except StdException RingResult)}
    (hrun : runAll (calls.map RingCall.exec) (init c m) = some (results, s)) : Sound c m s := by
  obtain ⟨results', s', hrun', hsound⟩ := run_sound hpos hle calls
  rw [hrun] at hrun'
  cases hrun'
  exact hsound

end RingBuffer
end PlaySocket
