import PlaySocket.RingBuffer.Integers
import PlaySocket.RouterSocket.Basic

/-!
# What the encoder drains

`frame native args` is the byte string a call drains, whatever calls came before
it.  The ring is cleared first, so only its capacity remembers them.
-/

namespace PlaySocket
namespace RouterSocket

open Exec RingBuffer BitConverter Bytes Doubling

/-- The bytes of one call. -/
def frame (native : Endian) (args : ClientMessageBody) : List UInt8 :=
  toBE 2 (toNetworkU16 native args.bodySize).toNat ++
    (toBE 2 (toNetworkI16 native args.serviceId).toUInt16.toNat ++
      (toBE 4 (toNetworkI32 native args.msgId).toUInt32.toNat ++
        (toBE 2 (toNetworkI16 native args.msgSeq).toUInt16.toNat ++
          (toBE 2 (toNetworkI16 native args.errorCode).toUInt16.toNat ++
            ([args.stageIndex.toUInt8] ++ slice args.body 0 args.bodySize.toNat)))))

theorem fits (args : ClientMessageBody) : 0 + args.bodySize.toNat ≤ args.body.length := by
  rw [Nat.zero_add]
  exact args.inside

theorem length_frame (native : Endian) (args : ClientMessageBody) :
    (frame native args).length = 13 + args.bodySize.toNat := by
  simp only [frame, List.length_append, length_toBE, List.length_singleton,
    length_slice (fits args)]
  omega

theorem writeFrame_eq (native : Endian) (args : ClientMessageBody) (s : RingBuffer) :
    (writeFrame native args).run s = (pushVector (frame native args)).run s := by
  have hbody := write_eq (fits args)
  simp only [writeFrame, run_bind, writeU16_eq, writeI16, writeI32, writeU32_eq, writeI8, push_eq,
    hbody, ← pushVector_append]
  rfl

/-- Between two calls the ring is empty. -/
def Idle (socket : RouterSocket) : Prop :=
  ∃ c, Holds socket.buffer c (64 * 1024 * 2) [] ∧ Doubles (64 * 1024) c

theorem new_idle : Idle new := ⟨64 * 1024, init_holds (by decide) (by decide), Doubles.refl _⟩

theorem limit_buffer : limit (64 * 1024) (64 * 1024 * 2) = 64 * 1024 * 2 := by decide +kernel

theorem Idle.capacity_eq {socket : RouterSocket} (h : Idle socket) :
    socket.buffer.size = 0 ∧
      (socket.buffer.capacity = 65536 ∨ socket.buffer.capacity = 131072) := by
  obtain ⟨c, h, hd⟩ := h
  refine ⟨h.size_eq, ?_⟩
  have hmax := h.le_max
  obtain ⟨k, hk⟩ := hd
  rw [h.capacity_eq]
  match k with
  | 0 => omega
  | 1 => omega
  | k + 2 =>
    have := Nat.two_pow_pos k
    rw [Nat.pow_add] at hk
    omega

/-- A call on an idle socket drains its frame and leaves the socket idle. -/
theorem encodeClientMessage_ok {socket : RouterSocket} (h : Idle socket) (native : Endian)
    (args : ClientMessageBody) :
    ∃ socket', (encodeClientMessage native args).run socket =
        .ok (MessageT.ofSize args.bodySize.toNat, storesFrom 0 (frame native args)) socket' ∧
      Idle socket' := by
  obtain ⟨c, h, hd⟩ := h
  have hsize : args.bodySize.toNat < 65536 := args.bodySize.toNat_lt
  have hmax : ¬args.bodySize.toNat > maxPacketSize := Nat.not_lt.mpr (Nat.le_of_lt_succ hsize)
  have hlimit : limit c (64 * 1024 * 2) = 64 * 1024 * 2 := by
    rw [hd.limit_eq (by decide) h.le_max, limit_buffer]
  obtain ⟨s₁, hclear, h₁⟩ := clear_holds h
  obtain ⟨s₂, c', hpush, h₂, hd'⟩ := pushVector_ok h₁ (frame native args) (by
    rw [hlimit, length_frame, List.length_nil]; omega)
  rw [← writeFrame_eq] at hpush
  rw [List.nil_append] at h₂
  obtain ⟨s₃, hread, h₃⟩ := read_holds h₂ 0 s₂.size
  rw [h₂.size_eq, List.take_length] at hread
  rw [h₂.size_eq, List.drop_length] at h₃
  refine ⟨{ socket with buffer := s₃ }, ?_, c', h₃, hd.trans hd'.doubles⟩
  have hcleared : (onBuffer clear).run socket = .ok () { socket with buffer := s₁ } :=
    run_zoom_ok hclear
  have hwritten : (onBuffer (writeFrame native args)).run { socket with buffer := s₁ } =
      .ok () { socket with buffer := s₂ } := run_zoom_ok hpush
  have hdrained : (onBuffer (read 0 s₂.size)).run { socket with buffer := s₂ } =
      .ok ((frame native args).length, storesFrom 0 (frame native args))
        { socket with buffer := s₃ } := by
    rw [h₂.size_eq]
    exact run_zoom_ok hread
  simp only [encodeClientMessage, run_bind, run_when_not hmax, hcleared, hwritten, run_self,
    hdrained, run_pure, Exit.andThen_ok]

/-- The run lemma. -/
theorem encodeClientMessage_run (native : Endian) (calls : List ClientMessageBody) :
    ∀ socket, Idle socket →
      ∃ socket', runAll (calls.map (encodeClientMessage native)) socket =
          some (calls.map fun args => .ok (MessageT.ofSize args.bodySize.toNat,
            storesFrom 0 (frame native args)), socket') ∧
        Idle socket' := by
  induction calls with
  | nil => intro socket h; exact ⟨socket, rfl, h⟩
  | cons args calls ih =>
    intro socket h
    obtain ⟨socket₁, hrun, h₁⟩ := encodeClientMessage_ok h native args
    obtain ⟨socket', hrest, h'⟩ := ih socket₁ h₁
    exact ⟨socket', by simp only [List.map_cons, runAll, hrun, hrest, Option.map_some], h'⟩

/-! ## Reading a frame back -/

/-- The arguments of a call, as far as the frame carries them. -/
structure ClientFrame where
  bodySize : UInt16
  serviceId : Int16
  msgId : Int32
  msgSeq : Int16
  errorCode : Int16
  stageIndex : Int8
  body : List UInt8
deriving DecidableEq, Repr

def sent (args : ClientMessageBody) : ClientFrame :=
  { bodySize := args.bodySize
    serviceId := args.serviceId
    msgId := args.msgId
    msgSeq := args.msgSeq
    errorCode := args.errorCode
    stageIndex := args.stageIndex
    body := args.body.take args.bodySize.toNat }

/-- The fields of a frame, read the way the parser reads its own. -/
def readFrame (native : Endian) (bytes : List UInt8) : ClientFrame :=
  let bodySize := (toHostI16 native (int16OfBE bytes)).toUInt16
  { bodySize := bodySize
    serviceId := toHostI16 native (int16OfBE (bytes.drop 2))
    msgId := toHostI32 native (int32OfBE (bytes.drop 4))
    msgSeq := toHostI16 native (int16OfBE (bytes.drop 8))
    errorCode := toHostI16 native (int16OfBE (bytes.drop 10))
    stageIndex := (bytes.getD 12 0).toInt8
    body := (bytes.drop 13).take bodySize.toNat }

theorem readFrame_frame (native : Endian) (args : ClientMessageBody) :
    readFrame native (frame native args) = sent args := by
  have hbodySize : (toHostI16 native (int16OfBE (frame native args))).toUInt16 =
      args.bodySize := by
    rw [frame, uint16OfBE_toBE, toHostI16, toNetworkI16, UInt16.toUInt16_toInt16,
      UInt16.toUInt16_toInt16, toNetworkU16_toNetworkU16]
  have hserviceId : int16OfBE ((frame native args).drop 2) =
      toNetworkI16 native args.serviceId := by
    rw [frame, List.drop_left' (length_toBE _ _), int16OfBE_toBE]
  have hmsgId : int32OfBE ((frame native args).drop 4) = toNetworkI32 native args.msgId := by
    rw [frame, ← List.append_assoc, List.drop_left' (by simp), int32OfBE_toBE]
  have hmsgSeq : int16OfBE ((frame native args).drop 8) = toNetworkI16 native args.msgSeq := by
    rw [frame, ← List.append_assoc, ← List.append_assoc, List.drop_left' (by simp),
      int16OfBE_toBE]
  have herrorCode : int16OfBE ((frame native args).drop 10) =
      toNetworkI16 native args.errorCode := by
    rw [frame, ← List.append_assoc, ← List.append_assoc, ← List.append_assoc,
      List.drop_left' (by simp), int16OfBE_toBE]
  have hlast : (frame native args).drop 12 =
      args.stageIndex.toUInt8 :: slice args.body 0 args.bodySize.toNat := by
    rw [frame, ← List.append_assoc, ← List.append_assoc, ← List.append_assoc, ← List.append_assoc,
      List.drop_left' (by simp), List.singleton_append]
  have hstageIndex : ((frame native args).getD 12 0).toInt8 = args.stageIndex := by
    have hhead : (frame native args)[12]? = some args.stageIndex.toUInt8 := by
      rw [← List.head?_drop, hlast, List.head?_cons]
    rw [List.getD_eq_getElem?_getD, hhead, Option.getD_some, Int8.toInt8_toUInt8]
  have hbody : (frame native args).drop 13 = slice args.body 0 args.bodySize.toNat := by
    rw [← List.drop_drop (i := 1) (j := 12), hlast, List.drop_one, List.tail_cons]
  unfold readFrame sent
  simp only [hbodySize, hserviceId, hmsgId, hmsgSeq, herrorCode, hstageIndex, hbody,
    toHostI16_toNetworkI16, toHostI32_toNetworkI32, slice, List.drop_zero, List.take_take,
    Nat.min_self]

/-- Whatever calls are made, each drains a frame of its own that reads back as
its arguments, and leaves the ring empty. -/
theorem encodeClientMessage_round_trip (native : Endian) (calls : List ClientMessageBody) :
    ∃ socket, runAll (calls.map (encodeClientMessage native)) new =
        some (calls.map fun args => .ok (MessageT.ofSize args.bodySize.toNat,
          storesFrom 0 (frame native args)), socket) ∧
      socket.buffer.size = 0 ∧
      (socket.buffer.capacity = 65536 ∨ socket.buffer.capacity = 131072) ∧
      ∀ args, (frame native args).length = 13 + args.bodySize.toNat ∧
        readFrame native (frame native args) = sent args := by
  obtain ⟨socket, hrun, hidle⟩ := encodeClientMessage_run native calls new new_idle
  obtain ⟨hempty, hcapacity⟩ := hidle.capacity_eq
  exact ⟨socket, hrun, hempty, hcapacity,
    fun args => ⟨length_frame native args, readFrame_frame native args⟩⟩

end RouterSocket
end PlaySocket
