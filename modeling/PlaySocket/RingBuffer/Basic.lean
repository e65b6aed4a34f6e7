import PlaySocket.Lib.Exec

/-!
# RingBuffer

The byte ring of `ring_buffer.hpp`.  `buffer` is the vector, whose capacity is
its length, and every access to it is checked: an index past the end is a fault,
and so is `nextIndex` on a vector of no cells.

Overloads carry the type they take in their name, so `writeU16` is
`write(uint16_t)`, while `write` is the overload on a pointer with an offset and
a count.  Memory on the caller's side is a list of bytes where it is read, and
the stores made, in order, where it is written.
-/

namespace PlaySocket

open Exec

/-- The standard exceptions the library throws, with their texts. -/
inductive StdException where
  | invalidArgument (what : String)
  | outOfRange (what : String)
  | runtimeError (what : String)
deriving DecidableEq, Repr

/-- A byte written through a caller's pointer. -/
structure Store where
  index : Nat
  value : UInt8
deriving DecidableEq, Repr

structure RingBuffer where
  buffer : Array UInt8
  readerIndex : Nat
  headerIndex : Nat
  size : Nat
  maxCapacity : Nat
deriving DecidableEq, Repr

/-- A member function of `RingBuffer`. -/
abbrev RingExec := Exec StdException RingBuffer

namespace RingBuffer

def capacity (s : RingBuffer) : Nat := s.buffer.size

/-- The members as the constructor's initialisers leave them. -/
def init (capacity maxCapacity : Nat) : RingBuffer :=
  { buffer := Array.replicate capacity 0, readerIndex := 0, headerIndex := 0, size := 0,
    maxCapacity := maxCapacity }

def construct (capacity maxCapacity : Nat) : Except StdException RingBuffer :=
  if capacity > maxCapacity then
    .error (.invalidArgument "capacity cannot be greater than maxCapacity")
  else .ok (init capacity maxCapacity)

/-- `RingBuffer(capacity)`. -/
def constructFixed (capacity : Nat) : Except StdException RingBuffer :=
  construct capacity capacity

/-! ## Vectors and pointers -/

/-- `_buffer[index]`, read. -/
def load (index : Nat) : RingExec UInt8 := do
  let s ← self
  match s.buffer[index]? with
  | some item => pure item
  | none => undefined .outOfBounds

/-- `vector[index] = item`. -/
def store (vector : Array UInt8) (index : Nat) (item : UInt8) : RingExec (Array UInt8) :=
  if h : index < vector.size then pure (vector.set index item h) else undefined .outOfBounds

/-- `buffer[index]`, read through a caller's pointer. -/
def deref (buffer : List UInt8) (index : Nat) : RingExec UInt8 :=
  match buffer[index]? with
  | some item => pure item
  | none => undefined .outOfBounds

def nextIndex (index : Nat) : RingExec Nat := do
  let s ← self
  if s.capacity = 0 then undefined .moduloZero else pure ((index + 1) % s.capacity)

/-! ## The queue -/

/-- The body of the loop in `resizeBuffer`, on `newBuffer` and `currentIndex`. -/
def copyItem (i : Nat) (locals : Array UInt8 × Nat) : RingExec (Array UInt8 × Nat) := do
  let item ← load locals.2
  let newBuffer ← store locals.1 i item
  let currentIndex ← nextIndex locals.2
  pure (newBuffer, currentIndex)

def resizeBuffer (newCapacity : Nat) : RingExec Unit := do
  let s ← self
  when (newCapacity > s.maxCapacity) (raise (.outOfRange "Queue has reached maximum capacity"))
  let copied ← forRange copyItem 0 s.size (Array.replicate newCapacity 0, s.readerIndex)
  update fun s => { s with buffer := copied.1, readerIndex := 0, headerIndex := s.size }

def push (item : UInt8) : RingExec Unit := do
  let s ← self
  when (s.size = s.capacity) (resizeBuffer (s.capacity * 2))
  let s ← self
  let buffer ← store s.buffer s.headerIndex item
  update fun s => { s with buffer := buffer }
  let headerIndex ← nextIndex s.headerIndex
  update fun s => { s with headerIndex := headerIndex, size := s.size + 1 }

/-- `push(const std::vector<unsigned char> &)`. -/
def pushVector (data : List UInt8) : RingExec Unit := forEach push data

def pop : RingExec UInt8 := do
  let s ← self
  when (s.size = 0) (raise (.runtimeError "Queue is empty"))
  let item ← load s.readerIndex
  let readerIndex ← nextIndex s.readerIndex
  update fun s => { s with readerIndex := readerIndex, size := s.size - 1 }
  pure item

def peek : RingExec UInt8 := do
  let s ← self
  when (s.size = 0) (raise (.runtimeError "Queue is empty"))
  load s.readerIndex

/-- `clear()`. -/
def clear : RingExec Unit :=
  update fun s => { s with readerIndex := 0, headerIndex := 0, size := 0 }

def advanceReader : RingExec Unit := do
  let s ← self
  let readerIndex ← nextIndex s.readerIndex
  update fun s => { s with readerIndex := readerIndex }

/-- `clear(count)`. -/
def clearCount (count : Nat) : RingExec Unit := do
  let s ← self
  when (count > s.size) (raise (.invalidArgument "count exceeds queue size"))
  forRange (fun _ _ => advanceReader) 0 count ()
  update fun s => { s with size := s.size - count }

/-- The loop of `read`, with `bytesRead` bytes behind it and `remaining` to go.
The result is the final `bytesRead` and the stores made from here on. -/
def readLoop (offset : Nat) : Nat → Nat → RingExec (Nat × List Store)
  | bytesRead, 0 => pure (bytesRead, [])
  | bytesRead, remaining + 1 => do
    let s ← self
    if s.size > 0 then do
      let item ← pop
      let rest ← readLoop offset (bytesRead + 1) remaining
      pure (rest.1, { index := offset + bytesRead, value := item } :: rest.2)
    else pure (bytesRead, [])

def read (offset count : Nat) : RingExec (Nat × List Store) := readLoop offset 0 count

def pushFrom (buffer : List UInt8) (index : Nat) : RingExec Unit := do
  let item ← deref buffer index
  push item

def write (buffer : List UInt8) (offset count : Nat) : RingExec Unit :=
  forRange (fun i _ => pushFrom buffer (offset + i)) 0 count ()

/-- `write(const std::span<const unsigned char> &)`. -/
def writeSpan (buffer : List UInt8) : RingExec Unit := forEach push buffer

/-! ## Integers -/

def writeU16 (value : UInt16) : RingExec Unit := do
  push ((value >>> 8) &&& 0xFF).toUInt8
  push (value &&& 0xFF).toUInt8

def writeU32 (value : UInt32) : RingExec Unit := do
  push ((value >>> 24) &&& 0xFF).toUInt8
  push ((value >>> 16) &&& 0xFF).toUInt8
  push ((value >>> 8) &&& 0xFF).toUInt8
  push (value &&& 0xFF).toUInt8

def writeI16 (value : Int16) : RingExec Unit := writeU16 value.toUInt16

def writeI32 (value : Int32) : RingExec Unit := writeU32 value.toUInt32

def writeU8 (value : UInt8) : RingExec Unit := push value

def writeI8 (value : Int8) : RingExec Unit := push value.toUInt8

def isReadIndexValid (tempIndex : Nat) : Nat → RingExec Bool
  | 0 => pure true
  | size + 1 => do
    let s ← self
    if tempIndex = s.headerIndex ∨ s.size = 0 then pure false
    else do
      let tempIndex ← nextIndex tempIndex
      isReadIndexValid tempIndex size

/-- A byte promoted to `int`. -/
def promote (item : UInt8) : Int32 := item.toUInt32.toInt32

def getInt16 (index : Nat) : RingExec Int16 := do
  let valid ← isReadIndexValid index 2
  when (valid = false) (raise (.outOfRange "Index out of range"))
  let b0 ← load index
  let next ← nextIndex index
  let b1 ← load next
  pure ((promote b0 <<< 8) ||| promote b1).toInt16

def getInt32 (index : Nat) : RingExec Int32 := do
  let valid ← isReadIndexValid index 4
  when (valid = false) (raise (.outOfRange "Index out of range"))
  let b0 ← load index
  let next₁ ← nextIndex index
  let b1 ← load next₁
  let next₂ ← nextIndex next₁
  let b2 ← load next₂
  let next₃ ← nextIndex next₂
  let b3 ← load next₃
  pure ((promote b0 <<< 24) ||| (promote b1 <<< 16) ||| (promote b2 <<< 8) ||| promote b3)

def peekInt16 : RingExec Int16 := do
  let s ← self
  getInt16 s.readerIndex

def peekInt32 : RingExec Int32 := do
  let s ← self
  getInt32 s.readerIndex

def readInt8 : RingExec Int8 := do
  let item ← pop
  pure item.toInt8

def readInt16 : RingExec Int16 := do
  let data ← peekInt16
  clearCount 2
  pure data

def readInt32 : RingExec Int32 := do
  let data ← peekInt32
  clearCount 4
  pure data

/-- The check before a write that no member function makes.  The sum is a
`size_t`. -/
def isWriteIndexValid (size : Nat) : RingExec Bool := do
  let s ← self
  let distance :=
    if s.headerIndex ≥ s.readerIndex then s.headerIndex - s.readerIndex
    else s.capacity - s.readerIndex + s.headerIndex
  pure (decide ((UInt64.ofNat (distance + size)).toNat ≤ s.capacity))

end RingBuffer

end PlaySocket
