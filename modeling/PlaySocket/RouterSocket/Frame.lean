import PlaySocket.RouterSocket.Encoder

/-!
# The frame and its message

Two things come of the bytes a call drains.  They are stored in a message that
was allocated for the body alone, so the thirteen bytes of the header never fit.
And they go out in an order that depends on the host.  `toNetwork` swaps a field
on a little-endian host and the ring writes what it gets most significant byte
first, so only the fields that the swap does not change leave in network order.
-/

namespace PlaySocket
namespace RouterSocket

open Exec RingBuffer BitConverter Bytes

variable {native : Endian}

/-! ## The message is too small -/

theorem frame_outside (native : Endian) (args : ClientMessageBody) :
    ∃ st ∈ storesFrom 0 (frame native args),
      (MessageT.ofSize args.bodySize.toNat).size ≤ st.index := by
  have hlt : args.bodySize.toNat < (frame native args).length := by
    rw [length_frame]; omega
  refine ⟨_, mem_storesFrom hlt 0, ?_⟩
  rw [MessageT.size, MessageT.ofSize, Array.size_replicate, Nat.zero_add]

theorem makeClientMessageBody_fault {socket : RouterSocket} (h : Idle socket) (native : Endian)
    (args : ClientMessageBody) :
    (makeClientMessageBody native args).run socket = .fault .outOfBounds := by
  obtain ⟨socket', hrun, _⟩ := encodeClientMessage_ok h native args
  rw [makeClientMessageBody, run_bind, hrun, Exit.andThen_ok]
  exact MessageT.fill_outside socket' _ (frame_outside native args)

/-- Whatever calls came before, the stores of a call go past the end of the
message it returns, and the message is too short for the frame. -/
theorem makeClientMessageBody_overruns (native : Endian) (calls : List ClientMessageBody)
    (args : ClientMessageBody) :
    ∃ results socket message stores socket',
      runAll (calls.map (encodeClientMessage native)) new = some (results, socket) ∧
      (encodeClientMessage native args).run socket = .ok (message, stores) socket' ∧
      stores.map Store.value = frame native args ∧
      (¬∀ st ∈ stores, st.index < message.size) ∧
      (∀ returned : MessageT, returned.size = message.size →
        returned.data.toList ≠ frame native args) ∧
      (makeClientMessageBody native args).run socket = .fault .outOfBounds := by
  obtain ⟨socket, hcalls, hidle⟩ := encodeClientMessage_run native calls new new_idle
  obtain ⟨socket', hrun, _⟩ := encodeClientMessage_ok hidle native args
  refine ⟨_, socket, _, _, socket', hcalls, hrun, storesFrom_values _ _, ?_, ?_,
    makeClientMessageBody_fault hidle native args⟩
  · intro hinside
    obtain ⟨st, hmem, hle⟩ := frame_outside native args
    exact absurd (hinside st hmem) (Nat.not_lt.mpr hle)
  · intro returned hsize hframe
    have hlength := congrArg List.length hframe
    rw [length_frame, Array.length_toList, ← MessageT.size, hsize, MessageT.size,
      MessageT.ofSize, Array.size_replicate] at hlength
    omega

def emptyBody : ClientMessageBody :=
  { bodySize := 0, serviceId := 1, msgId := 2, msgSeq := 3, errorCode := 0, stageIndex := 4
    body := [], inside := Nat.le_refl 0 }

/-- A message of no bytes receives thirteen. -/
theorem makeClientMessageBody_emptyBody :
    (∃ socket, (encodeClientMessage .little emptyBody).run new =
      .ok (MessageT.ofSize 0, storesFrom 0 (frame .little emptyBody)) socket) ∧
      (storesFrom 0 (frame .little emptyBody)).length = 13 ∧
      (¬∀ st ∈ storesFrom 0 (frame .little emptyBody), st.index < (MessageT.ofSize 0).size) ∧
      (makeClientMessageBody .little emptyBody).run new = .fault .outOfBounds := by
  obtain ⟨socket, hrun, _⟩ := encodeClientMessage_ok new_idle .little emptyBody
  refine ⟨⟨socket, hrun⟩, by decide, by decide, ?_⟩
  exact makeClientMessageBody_fault new_idle .little emptyBody

/-! ## The byte order of the fields -/

/-- The frame as it should go out on any host. -/
def networkFrame (args : ClientMessageBody) : List UInt8 :=
  toBE 2 args.bodySize.toNat ++
    (toBE 2 args.serviceId.toUInt16.toNat ++
      (toBE 4 args.msgId.toUInt32.toNat ++
        (toBE 2 args.msgSeq.toUInt16.toNat ++
          (toBE 2 args.errorCode.toUInt16.toNat ++
            ([args.stageIndex.toUInt8] ++ args.body.take args.bodySize.toNat)))))

/-- A host of this byte order leaves the multi-byte arguments as they are. -/
structure Unswapped (native : Endian) (args : ClientMessageBody) : Prop where
  bodySize : toNetworkU16 native args.bodySize = args.bodySize
  serviceId : toNetworkI16 native args.serviceId = args.serviceId
  msgId : toNetworkI32 native args.msgId = args.msgId
  msgSeq : toNetworkI16 native args.msgSeq = args.msgSeq
  errorCode : toNetworkI16 native args.errorCode = args.errorCode

theorem unswapped_big (args : ClientMessageBody) : Unswapped .big args :=
  ⟨rfl, Int16.toInt16_toUInt16 _, Int32.toInt32_toUInt32 _, Int16.toInt16_toUInt16 _,
    Int16.toInt16_toUInt16 _⟩

theorem frame_eq_network_iff (native : Endian) (args : ClientMessageBody) :
    frame native args = networkFrame args ↔ Unswapped native args := by
  unfold frame networkFrame
  rw [slice, List.drop_zero]
  constructor
  · intro h
    obtain ⟨hbodySize, h⟩ := List.append_inj h (by simp)
    obtain ⟨hserviceId, h⟩ := List.append_inj h (by simp)
    obtain ⟨hmsgId, h⟩ := List.append_inj h (by simp)
    obtain ⟨hmsgSeq, h⟩ := List.append_inj h (by simp)
    obtain ⟨herrorCode, _⟩ := List.append_inj h (by simp)
    exact {
      bodySize := UInt16.toNat_inj.mp
        (toBE_inj (UInt16.toNat_lt _) (UInt16.toNat_lt _) hbodySize)
      serviceId := toBE_int16_inj hserviceId
      msgId := toBE_int32_inj hmsgId
      msgSeq := toBE_int16_inj hmsgSeq
      errorCode := toBE_int16_inj herrorCode }
  · intro h
    rw [h.bodySize, h.serviceId, h.msgId, h.msgSeq, h.errorCode]

/-- Whatever calls came before, what a call drains is in network order exactly
if the host leaves its multi-byte arguments as they are, and two hosts of
different byte order drain the same exactly if the little-endian one does. -/
theorem encodeClientMessage_network_iff (native : Endian) (calls : List ClientMessageBody)
    (args : ClientMessageBody) :
    ∃ results socket message stores socket',
      runAll (calls.map (encodeClientMessage native)) new = some (results, socket) ∧
      (encodeClientMessage native args).run socket = .ok (message, stores) socket' ∧
      (stores.map Store.value = networkFrame args ↔ Unswapped native args) ∧
      (frame .little args = frame .big args ↔ Unswapped .little args) := by
  obtain ⟨socket, hcalls, hidle⟩ := encodeClientMessage_run native calls new new_idle
  obtain ⟨socket', hrun, _⟩ := encodeClientMessage_ok hidle native args
  refine ⟨_, socket, _, _, socket', hcalls, hrun, ?_, ?_⟩
  · rw [storesFrom_values]
    exact frame_eq_network_iff native args
  · rw [(frame_eq_network_iff .big args).mpr (unswapped_big args)]
    exact frame_eq_network_iff .little args

/-- A little-endian host sends the low byte of the service id first. -/
theorem encodeClientMessage_emptyBody :
    ∃ message stores socket, (encodeClientMessage .little emptyBody).run new =
        .ok (message, stores) socket ∧
      stores.map Store.value = [0, 0, 1, 0, 2, 0, 0, 0, 3, 0, 0, 0, 4] ∧
      networkFrame emptyBody = [0, 0, 0, 1, 0, 0, 0, 2, 0, 3, 0, 0, 4] ∧
      stores.map Store.value ≠ networkFrame emptyBody := by
  obtain ⟨socket, hrun, _⟩ := encodeClientMessage_ok new_idle .little emptyBody
  exact ⟨_, _, socket, hrun, by decide, by decide, by decide⟩

end RouterSocket
end PlaySocket
