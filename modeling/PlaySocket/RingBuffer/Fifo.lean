import PlaySocket.RingBuffer.Integers

/-!
# The ring is a byte queue

`Fifo` is what the class is for: a queue of at most `bound` bytes that takes
blocks at the back and gives bytes from the front.  Its operations are the
ring's, on a list, with no vector, index or capacity in sight.

`ring_refines_fifo` runs both side by side.  Whatever operations are applied, in
whatever order, returning or throwing, the ring gives the results of the queue,
its contents are the queue, and it never leaves its invariant.
-/

namespace PlaySocket

open Exec Bytes Doubling

/-- The operations a client of the ring applies.  Reading through a pointer is
the caller's to make safe, so `write` carries the proof that the memory it names
is the caller's. -/
inductive RingOp where
  | push (item : UInt8)
  | pushVector (data : List UInt8)
  | write (buffer : List UInt8) (offset count : Nat) (fits : offset + count ≤ buffer.length)
  | writeSpan (buffer : List UInt8)
  | writeU16 (value : UInt16)
  | writeU32 (value : UInt32)
  | writeI16 (value : Int16)
  | writeI32 (value : Int32)
  | writeU8 (value : UInt8)
  | writeI8 (value : Int8)
  | pop
  | peek
  | clear
  | clearCount (count : Nat)
  | read (offset count : Nat)

/-- What an operation hands back. -/
inductive RingValue where
  | unit
  | byte (item : UInt8)
  | stores (bytesRead : Nat) (stores : List Store)
deriving DecidableEq, Repr

namespace RingOp

/-- The operation on the ring. -/
def exec : RingOp → RingExec RingValue
  | push item => do RingBuffer.push item; pure .unit
  | pushVector data => do RingBuffer.pushVector data; pure .unit
  | write buffer offset count _ => do RingBuffer.write buffer offset count; pure .unit
  | writeSpan buffer => do RingBuffer.writeSpan buffer; pure .unit
  | writeU16 value => do RingBuffer.writeU16 value; pure .unit
  | writeU32 value => do RingBuffer.writeU32 value; pure .unit
  | writeI16 value => do RingBuffer.writeI16 value; pure .unit
  | writeI32 value => do RingBuffer.writeI32 value; pure .unit
  | writeU8 value => do RingBuffer.writeU8 value; pure .unit
  | writeI8 value => do RingBuffer.writeI8 value; pure .unit
  | pop => do let item ← RingBuffer.pop; pure (.byte item)
  | peek => do let item ← RingBuffer.peek; pure (.byte item)
  | clear => do RingBuffer.clear; pure .unit
  | clearCount count => do RingBuffer.clearCount count; pure .unit
  | read offset count => do
    let result ← RingBuffer.read offset count
    pure (.stores result.1 result.2)

end RingOp

namespace Fifo

/-- A queue operation. -/
abbrev Queue := Exec StdException (List UInt8)

/-- Store a block, or the longest prefix of it that `bound` leaves room for. -/
def append (bound : Nat) (data : List UInt8) : Queue RingValue := do
  let items ← self
  update (· ++ data.take (bound - items.length))
  when (bound < items.length + data.length) (raise RingBuffer.fullError)
  pure .unit

/-- The first byte, which must be there. -/
def front : Queue UInt8 := do
  let items ← self
  match items with
  | [] => raise (.runtimeError "Queue is empty")
  | item :: _ => pure item

def drop (count : Nat) : Queue Unit := do
  let items ← self
  when (items.length < count) (raise (.invalidArgument "count exceeds queue size"))
  update (·.drop count)

/-- The operation on the queue, integers most significant byte first. -/
def exec (bound : Nat) : RingOp → Queue RingValue
  | .push item => append bound [item]
  | .pushVector data => append bound data
  | .write buffer offset count _ => append bound ((buffer.drop offset).take count)
  | .writeSpan buffer => append bound buffer
  | .writeU16 value => append bound (toBE 2 value.toNat)
  | .writeU32 value => append bound (toBE 4 value.toNat)
  | .writeI16 value => append bound (toBE 2 value.toUInt16.toNat)
  | .writeI32 value => append bound (toBE 4 value.toUInt32.toNat)
  | .writeU8 value => append bound [value]
  | .writeI8 value => append bound [value.toUInt8]
  | .pop => do
    let item ← front
    update (·.drop 1)
    pure (.byte item)
  | .peek => do
    let item ← front
    pure (.byte item)
  | .clear => do
    update (fun _ => [])
    pure .unit
  | .clearCount count => do
    drop count
    pure .unit
  | .read offset count => do
    let items ← self
    update (·.drop count)
    pure (.stores (items.take count).length (RingBuffer.storesFrom offset (items.take count)))

end Fifo

namespace RingBuffer

variable {s : RingBuffer} {m bound : Nat} {items : List UInt8}

/-- A ring and a queue in step.  The capacity may grow, the bound may not. -/
def InStep (m bound : Nat) (s : RingBuffer) (items : List UInt8) : Prop :=
  ∃ c, Holds s c m items ∧ limit c m = bound

theorem InStep.valid (h : InStep m bound s items) :
    Valid s ∧ s.maxCapacity = m ∧ s.contents = items := by
  obtain ⟨c, h, _⟩ := h
  exact ⟨h.toValid, h.maxCapacity_eq, h.contents_eq⟩

theorem append_inStep {x : RingExec Unit} {data : List UInt8}
    (hx : ∀ s, x.run s = (pushVector data).run s) :
    Sim (InStep m bound) (do x; pure RingValue.unit) (Fifo.append bound data) := by
  intro s items hstep
  obtain ⟨c, h, rfl⟩ := hstep
  have hle := h.length_le_limit
  simp only [Fifo.append, run_bind, hx, run_self, Exit.andThen_ok, run_update]
  by_cases hover : limit c m < items.length + data.length
  · obtain ⟨s', c', hrun, h', hd⟩ := pushVector_thrown h data hover
    rw [hrun, run_when hover, run_raise, Exit.andThen_thrown, Exit.andThen_thrown]
    exact .thrown _ ⟨c', h', hd.limit_eq h.pos h'.le_max⟩
  · obtain ⟨s', c', hrun, h', hd⟩ := pushVector_ok h data (by omega)
    rw [hrun, run_when_not hover, Exit.andThen_ok, Exit.andThen_ok,
      List.take_of_length_le (by omega)]
    exact .ok _ ⟨c', h', hd.doubles.limit_eq h.pos h'.le_max⟩

/-- The step lemma: each operation of the ring simulates its namesake. -/
theorem exec_inStep (op : RingOp) : Sim (InStep m bound) op.exec (Fifo.exec bound op) := by
  cases op with
  | push item => exact append_inStep (push_eq item)
  | pushVector data => exact append_inStep fun _ => rfl
  | write buffer offset count fits => exact append_inStep (write_eq fits)
  | writeSpan buffer => exact append_inStep fun _ => rfl
  | writeU16 value => exact append_inStep (writeU16_eq value)
  | writeU32 value => exact append_inStep (writeU32_eq value)
  | writeI16 value => exact append_inStep (writeU16_eq value.toUInt16)
  | writeI32 value => exact append_inStep (writeU32_eq value.toUInt32)
  | writeU8 value => exact append_inStep (push_eq value)
  | writeI8 value => exact append_inStep (push_eq value.toUInt8)
  | pop =>
    intro s items hstep
    obtain ⟨c, h, hbound⟩ := hstep
    cases items with
    | nil =>
      simp only [RingOp.exec, Fifo.exec, Fifo.front, run_bind, pop_nil h, run_self, run_raise,
        Exit.andThen_ok, Exit.andThen_thrown]
      exact .thrown _ ⟨c, h, hbound⟩
    | cons item rest =>
      obtain ⟨s', hpop, h'⟩ := pop_cons h
      simp only [RingOp.exec, Fifo.exec, Fifo.front, run_bind, hpop, run_self, run_pure,
        run_update, Exit.andThen_ok, List.drop_one, List.tail_cons]
      exact .ok _ ⟨c, h', hbound⟩
  | peek =>
    intro s items hstep
    obtain ⟨c, h, hbound⟩ := hstep
    cases items with
    | nil =>
      simp only [RingOp.exec, Fifo.exec, Fifo.front, run_bind, peek_nil h, run_self, run_raise,
        Exit.andThen_ok, Exit.andThen_thrown]
      exact .thrown _ ⟨c, h, hbound⟩
    | cons item rest =>
      simp only [RingOp.exec, Fifo.exec, Fifo.front, run_bind, peek_cons h, run_self, run_pure,
        Exit.andThen_ok]
      exact .ok _ ⟨c, h, hbound⟩
  | clear =>
    intro s items hstep
    obtain ⟨c, h, hbound⟩ := hstep
    obtain ⟨s', hclear, h'⟩ := clear_holds h
    simp only [RingOp.exec, Fifo.exec, run_bind, hclear, run_update, run_pure, Exit.andThen_ok]
    exact .ok _ ⟨c, h', hbound⟩
  | clearCount count =>
    intro s items hstep
    obtain ⟨c, h, hbound⟩ := hstep
    by_cases hover : items.length < count
    · simp only [RingOp.exec, Fifo.exec, Fifo.drop, run_bind, clearCount_over h hover, run_self,
        run_when hover, run_raise, Exit.andThen_ok, Exit.andThen_thrown]
      exact .thrown _ ⟨c, h, hbound⟩
    · obtain ⟨s', hclear, h'⟩ := clearCount_ok h (Nat.le_of_not_lt hover)
      simp only [RingOp.exec, Fifo.exec, Fifo.drop, run_bind, hclear, run_self, run_update,
        run_when_not hover, run_pure, Exit.andThen_ok]
      exact .ok _ ⟨c, h', hbound⟩
  | read offset count =>
    intro s items hstep
    obtain ⟨c, h, hbound⟩ := hstep
    obtain ⟨s', hread, h'⟩ := read_holds h offset count
    simp only [RingOp.exec, Fifo.exec, run_bind, hread, run_self, run_update, run_pure,
      Exit.andThen_ok]
    exact .ok _ ⟨c, h', hbound⟩

/-- A run of operations on a new ring never faults, stays valid, and is the run
of the same operations on an empty queue. -/
theorem ring_refines_fifo (capacity maxCapacity : Nat) (hpos : 1 ≤ capacity)
    (hle : capacity ≤ maxCapacity) (ops : List RingOp) :
    ∃ ring results s', construct capacity maxCapacity = .ok ring ∧
      runAll (ops.map RingOp.exec) ring = some (results, s') ∧
      Valid s' ∧ s'.maxCapacity = maxCapacity ∧
      runAll (ops.map (Fifo.exec (limit capacity maxCapacity))) [] =
        some (results, s'.contents) := by
  have hnew : construct capacity maxCapacity = .ok (init capacity maxCapacity) :=
    if_neg (Nat.not_lt.mpr hle)
  obtain ⟨results, s', items, hring, hqueue, hstep⟩ :=
    Sim.runAll (fun op => exec_inStep (m := maxCapacity) op) ops (init capacity maxCapacity) []
      ⟨capacity, init_holds hpos hle, rfl⟩
  obtain ⟨hvalid, hmax, hcontents⟩ := hstep.valid
  exact ⟨_, results, s', hnew, hring, hvalid, hmax, hcontents.symm ▸ hqueue⟩

/-- Two cells that double once: the contents wrap round the end of the vector,
and the last block finds no room. -/
theorem ring_refines_fifo_two_five :
    ∃ ring results s', construct 2 5 = .ok ring ∧
      runAll ([.push 1, .writeI16 (-2), .pop, .writeU16 515, .writeSpan [7, 8], .peek].map
        RingOp.exec) ring = some (results, s') ∧
      Valid s' ∧ s'.maxCapacity = 5 ∧
      runAll ([.push 1, .writeI16 (-2), .pop, .writeU16 515, .writeSpan [7, 8], .peek].map
        (Fifo.exec (limit 2 5))) [] = some (results, s'.contents) :=
  ring_refines_fifo 2 5 (by decide) (by decide)
    [.push 1, .writeI16 (-2), .pop, .writeU16 515, .writeSpan [7, 8], .peek]

end RingBuffer

end PlaySocket
