import PlaySocket.RingBuffer.Operations

/-!
# Messages

`MessageT` is `zmq::message_t`, a block of bytes of a size fixed when it is
made.  The library leaves the bytes of a new one unspecified, and zero stands
for them.  `ClientMessage` is what a session puts in the receive queue.
-/

namespace PlaySocket

open Exec

structure MessageT where
  data : Array UInt8
deriving DecidableEq, Repr

namespace MessageT

variable {σ : Type}

/-- `message_t(size)`. -/
def ofSize (size : Nat) : MessageT := { data := Array.replicate size 0 }

def size (message : MessageT) : Nat := message.data.size

/-- A store through `data()`. -/
def store (message : MessageT) (s : Store) : Exec StdException σ MessageT :=
  if h : s.index < message.data.size then pure { data := message.data.set s.index s.value h }
  else undefined .outOfBounds

def fill (message : MessageT) : List Store → Exec StdException σ MessageT
  | [] => pure message
  | s :: rest => do
    let message ← message.store s
    fill message rest

theorem fill_storesFrom (bytes : List UInt8) (s : σ) :
    ∀ (written free : List UInt8), free.length = bytes.length →
      (fill { data := (written ++ free).toArray }
          (RingBuffer.storesFrom written.length bytes)).run s =
        .ok { data := (written ++ bytes).toArray } s := by
  induction bytes with
  | nil =>
    intro written free hfree
    rw [List.eq_nil_of_length_eq_zero hfree]
    rfl
  | cons b bs ih =>
    intro written free hfree
    obtain ⟨x, free, rfl⟩ := List.exists_cons_of_length_eq_add_one hfree
    have hlt : written.length < (written ++ x :: free).toArray.size := by simp
    have hset : (written ++ x :: free).toArray.set written.length b hlt =
        ((written ++ [b]) ++ free).toArray := by
      simp
    have hlength : written.length + 1 = (written ++ [b]).length := by simp
    rw [RingBuffer.storesFrom, fill, run_bind, store, dif_pos hlt, run_pure, Exit.andThen_ok,
      hset, hlength, ih (written ++ [b]) free (Nat.succ.inj hfree), List.append_assoc,
      List.singleton_append]

/-- Storing as many bytes as the message has, from its start, makes them its
contents. -/
theorem fill_ofSize (bytes : List UInt8) (s : σ) :
    (fill (ofSize bytes.length) (RingBuffer.storesFrom 0 bytes)).run s =
      .ok { data := bytes.toArray } s := by
  have h := fill_storesFrom bytes s [] (List.replicate bytes.length 0) List.length_replicate
  rwa [List.nil_append, List.nil_append, List.length_nil, ← Array.replicate_eq_toArray_replicate]
    at h

/-- A store outside the message is undefined behaviour, whatever else is stored. -/
theorem fill_outside {stores : List Store} (s : σ) :
    ∀ message : MessageT, (∃ st ∈ stores, message.size ≤ st.index) →
      (fill message stores).run s = .fault .outOfBounds := by
  induction stores with
  | nil =>
    intro message h
    obtain ⟨st, hmem, _⟩ := h
    cases hmem
  | cons first rest ih =>
    intro message h
    rw [fill, run_bind, store]
    by_cases hfirst : first.index < message.data.size
    · rw [dif_pos hfirst, run_pure, Exit.andThen_ok]
      apply ih
      obtain ⟨st, hmem, hle⟩ := h
      rcases List.mem_cons.mp hmem with heq | hrest
      · rw [heq] at hle
        exact absurd hfirst (Nat.not_lt.mpr hle)
      · exact ⟨st, hrest, by rw [size, Array.size_set]; exact hle⟩
    · rw [dif_neg hfirst, run_undefined, Exit.andThen_fault]

end MessageT

structure Header where
  serviceId : Int16
  msgId : Int32
  msgSeq : Int16
  stageIndex : Int8
deriving DecidableEq, Repr

inductive MessageType where
  | connect
  | disconnect
  | normal
deriving DecidableEq, Repr

/-- The body is a pointer, null in a message that has none. -/
structure ClientMessage where
  sid : Int64
  header : Header
  body : Option MessageT
  type : MessageType
deriving DecidableEq, Repr

namespace ClientMessage

/-- `ClientMessage(sid, type)`. -/
def ofType (sid : Int64) (type : MessageType) : ClientMessage :=
  { sid := sid
    header := { serviceId := 0, msgId := 0, msgSeq := 0, stageIndex := 0 }
    body := none
    type := type }

/-- `ClientMessage(sid, header, body)`. -/
def ofBody (sid : Int64) (header : Header) (body : Option MessageT) : ClientMessage :=
  { sid := sid, header := header, body := body, type := .normal }

/-- `body()`, which moves the pointer out of the message. -/
def takeBody (message : ClientMessage) : Option MessageT × ClientMessage :=
  (message.body, { message with body := none })

end ClientMessage

end PlaySocket
