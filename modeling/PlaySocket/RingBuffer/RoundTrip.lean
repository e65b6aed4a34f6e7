import PlaySocket.RingBuffer.Calls

/-!
# What is written is what is read

A `Datum` is one thing a typed write puts into the stream.  Its bytes enter at
the back.  Whatever is called afterwards, bytes leave the front in the order they
entered, so once as many have left as were held before the write the datum's
bytes stand at the front.  The matching read, if it returns, then gives back the
datum and takes its bytes, wherever the vector's end or a growth fell among them.
-/

namespace PlaySocket

open Exec Bytes Doubling

/-- An integer or a block in the stream. -/
inductive Datum where
  | uint8 (value : UInt8)
  | int8 (value : Int8)
  | uint16 (value : UInt16)
  | int16 (value : Int16)
  | uint32 (value : UInt32)
  | int32 (value : Int32)
  | block (bytes : List UInt8)

/-- The datum an operation writes, if it is a write. -/
def RingOp.datum : RingOp → Option Datum
  | push item => some (.uint8 item)
  | pushVector data => some (.block data)
  | write buffer offset count _ => some (.block (RingBuffer.slice buffer offset count))
  | writeSpan buffer => some (.block buffer)
  | writeU16 value => some (.uint16 value)
  | writeU32 value => some (.uint32 value)
  | writeI16 value => some (.int16 value)
  | writeI32 value => some (.int32 value)
  | writeU8 value => some (.uint8 value)
  | writeI8 value => some (.int8 value)
  | pop | peek | clear | clearCount _ | read _ _ => none

namespace Datum

def bytes : Datum → List UInt8
  | uint8 value => [value]
  | int8 value => [value.toUInt8]
  | uint16 value => toBE 2 value.toNat
  | int16 value => toBE 2 value.toUInt16.toNat
  | uint32 value => toBE 4 value.toNat
  | int32 value => toBE 4 value.toUInt32.toNat
  | block bytes => bytes

/-- The matching read, a block going to `offset` in the caller's memory. -/
def read (offset : Nat) : Datum → RingCall
  | uint8 _ | int8 _ => .readInt8
  | uint16 _ | int16 _ => .readInt16
  | uint32 _ | int32 _ => .readInt32
  | block bytes => .operation (.read offset bytes.length)

/-- What the matching read should give, unsigned integers as the signed ones of
their width. -/
def asRead (offset : Nat) : Datum → RingResult
  | uint8 value => .int8 value.toInt8
  | int8 value => .int8 value
  | uint16 value => .int16 value.toInt16
  | int16 value => .int16 value
  | uint32 value => .int32 value.toInt32
  | int32 value => .int32 value
  | block bytes => .value (.stores bytes.length (RingBuffer.storesFrom offset bytes))

/-- The matching peek. -/
def peek : Datum → Option RingCall
  | uint16 _ | int16 _ => some .peekInt16
  | uint32 _ | int32 _ => some .peekInt32
  | uint8 _ | int8 _ | block _ => none

end Datum

namespace RingBuffer

variable {s s' : RingBuffer} {c m : Nat} {items : List UInt8}

theorem offers_datum {op : RingOp} {datum : Datum} (h : op.datum = some datum) :
    op.offers = datum.bytes := by
  cases op <;> cases h <;> rfl

theorem uint32OfBE_toBE (value : UInt32) (rest : List UInt8) :
    int32OfBE (toBE 4 value.toNat ++ rest) = value.toInt32 := by
  have h := int32OfBE_toBE value.toInt32 rest
  rwa [UInt32.toUInt32_toInt32] at h

/-- The specification of a read agrees with the datum at the front. -/
theorem yields_read (datum : Datum) (offset : Nat) (rest : List UInt8) :
    (datum.read offset).yields (datum.bytes ++ rest) = datum.asRead offset := by
  cases datum with
  | uint8 value => rfl
  | int8 value => rfl
  | uint16 value => exact congrArg RingResult.int16 (uint16OfBE_toBE value rest)
  | int16 value => exact congrArg RingResult.int16 (int16OfBE_toBE value rest)
  | uint32 value => exact congrArg RingResult.int32 (uint32OfBE_toBE value rest)
  | int32 value => exact congrArg RingResult.int32 (int32OfBE_toBE value rest)
  | block bytes =>
    have htake : (bytes ++ rest).take bytes.length = bytes := List.take_left
    show RingResult.value (.stores ((bytes ++ rest).take bytes.length).length
      (storesFrom offset ((bytes ++ rest).take bytes.length))) = _
    rw [htake]
    rfl

theorem takes_read (datum : Datum) (offset : Nat) (items : List UInt8) :
    (datum.read offset).takes items = datum.bytes.length := by
  cases datum <;> rfl

theorem offers_read (datum : Datum) (offset : Nat) : (datum.read offset).offers = [] := by
  cases datum <;> rfl

/-! ## First in, first out -/

/-- How many bytes leave the ring in a run. -/
def removed : List RingCall → RingBuffer → Nat
  | [], _ => 0
  | call :: calls, s =>
    match outcome (call.exec.run s) with
    | some (_, t) => s.size - t.size + removed calls t
    | none => 0

/-- The step lemma: bytes leave at the front and enter at the back. -/
theorem exec_front (h : Holds s c m items) (call : RingCall)
    {result : Except StdException RingResult} {s' : RingBuffer}
    (hrun : outcome (call.exec.run s) = some (result, s')) :
    ∃ c' added, Holds s' c' m (items.drop (s.size - s'.size) ++ added) := by
  rw [h.size_eq]
  cases result with
  | ok value =>
    obtain ⟨_, h'⟩ := exec_returned h (outcome_ok hrun)
    rw [h'.size_eq]
    obtain ⟨c', h', _⟩ := h'
    by_cases hnil : call.offers = []
    · refine ⟨c', [], ?_⟩
      rw [hnil, List.append_nil] at h' ⊢
      have hdrop : items.drop (items.length - (items.drop (call.takes items)).length) =
          items.drop (call.takes items) := by
        rw [List.length_drop]
        by_cases hle : call.takes items ≤ items.length
        · rw [Nat.sub_sub_self hle]
        · rw [List.drop_eq_nil_of_le (by omega), List.drop_eq_nil_of_le (by omega)]
      rwa [List.append_nil, hdrop]
    · refine ⟨c', call.offers, ?_⟩
      rw [takes_of_offers hnil, List.drop_zero] at h' ⊢
      rwa [List.length_append, Nat.sub_eq_zero_of_le (by omega), List.drop_zero]
  | error e =>
    obtain ⟨_, h'⟩ := exec_thrown h (outcome_error hrun)
    rw [h'.size_eq]
    obtain ⟨c', h', _⟩ := h'
    refine ⟨c', call.offers.take (limit c m - items.length), ?_⟩
    rwa [List.length_append, Nat.sub_eq_zero_of_le (by omega), List.drop_zero]

/-- A ring behind a run holds what it held and what entered, less what left. -/
theorem run_front (calls : List RingCall) :
    ∀ {s : RingBuffer} {c : Nat} {items : List UInt8}
      {results : List (Except StdException RingResult)} {t : RingBuffer}, Holds s c m items →
      runAll (calls.map RingCall.exec) s = some (results, t) →
      ∃ c' added, Holds t c' m ((items ++ added).drop (removed calls s)) := by
  induction calls with
  | nil =>
    intro s c items results t h hrun
    cases hrun
    exact ⟨c, [], by rwa [List.append_nil]⟩
  | cons call calls ih =>
    intro s c items results t h hrun
    obtain ⟨result, s₁, rest, hcall, rfl, hrest⟩ := runAll_cons_cases hrun
    obtain ⟨c₁, added₁, h₁⟩ := exec_front h call hcall
    obtain ⟨c₂, added₂, h₂⟩ := ih h₁ hrest
    have hle : s.size - s₁.size ≤ items.length := by
      rw [← h.size_eq]
      exact Nat.sub_le _ _
    refine ⟨c₂, added₁ ++ added₂, ?_⟩
    rw [removed, hcall, ← List.drop_drop, List.drop_append_of_le_length hle, ← List.append_assoc]
    exact h₂

/-! ## Peeking -/

/-- An integer peeked, of either width, is the one the read would give. -/
theorem integer_returned {α : Type} {x y : RingExec α} {peek read : RingCall} {width : Nat}
    {wrap : α → RingResult} {value : α} (h : Holds s c m items)
    (hpeek : peek.exec.run s = (x.run s).andThen fun a t => .ok (wrap a) t)
    (hread : read.exec.run s = (y.run s).andThen fun a t => .ok (wrap a) t)
    (hx : width ≤ items.length → items.length < c → x.run s = .ok value s)
    (hy : width ≤ items.length → items.length < c →
      ∃ t, y.run s = .ok value t ∧ Holds t c m (items.drop width))
    (hthrown : items.length < width ∨ items.length = c → x.run s = .thrown indexError s)
    {result : RingResult} (hrun : peek.exec.run s = .ok result s') :
    s' = s ∧ ∃ t, read.exec.run s = .ok result t := by
  rw [hpeek] at hrun
  rcases integer_cases h width with hlong | hshort
  · obtain ⟨t, hreads, _⟩ := hy hlong.1 hlong.2
    rw [hx hlong.1 hlong.2, Exit.andThen_ok] at hrun
    cases hrun
    exact ⟨rfl, t, by rw [hread, hreads, Exit.andThen_ok]⟩
  · rw [hthrown hshort, Exit.andThen_thrown] at hrun
    cases hrun

/-- A peek that returns changes nothing and tells what the read will. -/
theorem peek_returned (h : Holds s c m items) {datum : Datum} {peek : RingCall}
    (hpeek : datum.peek = some peek) {result : RingResult}
    (hrun : peek.exec.run s = .ok result s') (offset : Nat) :
    s' = s ∧ ∃ t, (datum.read offset).exec.run s = .ok result t := by
  cases datum with
  | uint8 _ | int8 _ | block _ => cases hpeek
  | uint16 _ | int16 _ =>
    cases hpeek
    exact integer_returned h rfl rfl (peekInt16_ok h) (readInt16_ok h) (peekInt16_thrown h) hrun
  | uint32 _ | int32 _ =>
    cases hpeek
    exact integer_returned h rfl rfl (peekInt32_ok h) (readInt32_ok h) (peekInt32_thrown h) hrun

/-! ## The round trip -/

/-- The matching read of a datum at the front. -/
theorem read_returned {datum : Datum} {rest : List UInt8} (h : Holds s c m (datum.bytes ++ rest))
    {offset : Nat} {result : RingResult}
    (hrun : (datum.read offset).exec.run s = .ok result s') :
    result = datum.asRead offset ∧ s'.contents = rest := by
  obtain ⟨hresult, h'⟩ := exec_returned h hrun
  rw [yields_read] at hresult
  refine ⟨hresult, ?_⟩
  rw [h'.contents_eq, takes_read, offers_read, List.append_nil, List.drop_left]

theorem stores_datum {op : RingOp} {datum : Datum} (h : op.datum = some datum) : op.Stores := by
  cases op <;> cases h <;> exact trivial

theorem write_returned (h : Holds s c m items) {op : RingOp} {datum : Datum}
    (hdatum : op.datum = some datum) {result : RingResult}
    (hrun : (RingCall.operation op).exec.run s = .ok result s') :
    ∃ c', Holds s' c' m (items ++ datum.bytes) := by
  obtain ⟨_, c', h', _⟩ := exec_returned h hrun
  rw [takes_store (stores_datum hdatum), List.drop_zero, RingCall.offers,
    offers_datum hdatum] at h'
  exact ⟨c', h'⟩

/-- A datum written in any state a run reaches comes back from the matching read
that reaches it, which takes its bytes and no others.  A peek there agrees with
the read and changes nothing. -/
theorem typed_round_trip (hpos : 1 ≤ c) (hle : c ≤ m)
    {before : List RingCall} {results₀ : List (Except StdException RingResult)}
    {s₀ : RingBuffer}
    (hbefore : runAll (before.map RingCall.exec) (init c m) = some (results₀, s₀))
    {op : RingOp} {datum : Datum} (hdatum : op.datum = some datum) {written : RingResult}
    {s₁ : RingBuffer} (hwrite : (RingCall.operation op).exec.run s₀ = .ok written s₁)
    {between : List RingCall} {results₁ : List (Except StdException RingResult)}
    {s₂ : RingBuffer} (hbetween : runAll (between.map RingCall.exec) s₁ = some (results₁, s₂))
    (hreach : removed between s₁ = s₀.size) (offset : Nat) :
    (∀ result s₃, (datum.read offset).exec.run s₂ = .ok result s₃ →
      result = datum.asRead offset ∧ s₂.contents = datum.bytes ++ s₃.contents) ∧
    ∀ peek, datum.peek = some peek → ∀ result s₃, peek.exec.run s₂ = .ok result s₃ →
      result = datum.asRead offset ∧ s₃ = s₂ ∧
        ∃ s₄, (datum.read offset).exec.run s₂ = .ok result s₄ := by
  obtain ⟨c₀, items, h₀, _⟩ := sound_of_run hpos hle hbefore
  obtain ⟨c₁, h₁⟩ := write_returned h₀ hdatum hwrite
  obtain ⟨c₂, added, h₂⟩ := run_front between h₁ hbetween
  rw [hreach, h₀.size_eq, List.append_assoc, List.drop_left] at h₂
  constructor
  · intro result s₃ hread
    obtain ⟨hresult, hrest⟩ := read_returned h₂ hread
    rw [h₂.contents_eq, hrest]
    exact ⟨hresult, rfl⟩
  · intro peek hpeek result s₃ hrun
    obtain ⟨hsame, s₄, hread⟩ := peek_returned h₂ hpeek hrun offset
    exact ⟨(read_returned h₂ hread).1, hsame, s₄, hread⟩

/-- A negative integer across the end of a vector of four cells. -/
theorem typed_round_trip_wrapped :
    ∃ s₂ s₃, RingCall.readInt16.exec.run s₂ = .ok (.int16 (-2)) s₃ ∧
      RingCall.peekInt16.exec.run s₂ = .ok (.int16 (-2)) s₂ ∧
      s₂.readerIndex = 3 ∧ s₂.contents = [255, 254] ++ s₃.contents ∧
      ∀ result s, RingCall.peekInt16.exec.run s₂ = .ok result s →
        result = .int16 (-2) ∧ s = s₂ ∧ ∃ s₄, RingCall.readInt16.exec.run s₂ = .ok result s₄ := by
  have htrip := @typed_round_trip 4 8 (by decide) (by decide)
    [.operation (.writeSpan [1, 2, 3]), .operation .pop, .operation .pop] _ _ rfl
    (.writeI16 (-2)) _ rfl _ _ rfl [.operation .pop] _ _ rfl rfl 0
  obtain ⟨_, hcontents⟩ := htrip.1 _ _ rfl
  exact ⟨_, _, rfl, rfl, rfl, hcontents, htrip.2 _ rfl⟩

end RingBuffer
end PlaySocket
