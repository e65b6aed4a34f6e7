import PlaySocket.StreamParser.WireFormat

/-!
# The format a host reads

The second swap gives a little-endian host a format of its own.  `layOut native`
is the format of a host of byte order `native`.  Its parser reads back any message
that is laid out in it, and `onWire` writes down the bytes of any message it has
made.  So no stream but the one laid out is decoded into given messages.
-/

namespace PlaySocket
namespace StreamParser

open Framing RingBuffer BitConverter Bytes

variable {native : Endian} {sid : Int64}

/-- The header of a frame as a host of this byte order reads it. -/
def layOutHeader (native : Endian) (header : Header) (bodySize : UInt16) : List UInt8 :=
  encodeHeader
    { serviceId := toNetworkI16 native header.serviceId
      msgId := toNetworkI32 native header.msgId
      msgSeq := toNetworkI16 native header.msgSeq
      stageIndex := header.stageIndex } (toNetworkU16 native bodySize).toNat

def layOut (native : Endian) (header : Header) (body : List UInt8) : List UInt8 :=
  layOutHeader native header (UInt16.ofNat body.length) ++ body

/-- The bytes a message came from.  A message without a body came from none. -/
def onWire (native : Endian) (message : ClientMessage) : List UInt8 :=
  match message.body with
  | none => []
  | some body => layOut native message.header body.data.toList

theorem bodyLength_layOutHeader (native : Endian) (header : Header) (bodySize : UInt16) :
    (framing native).bodyLength (layOutHeader native header bodySize) = bodySize.toNat := by
  show (toHostI16 native (int16OfBE (layOutHeader _ _ _))).toUInt16.toNat = _
  rw [layOutHeader, encodeHeader, uint16OfBE_toBE, toHostI16, toNetworkI16,
    UInt16.toUInt16_toInt16, UInt16.toUInt16_toInt16, toNetworkU16_toNetworkU16]

/-! ## From a message to its bytes -/

namespace WireMessage

/-- What a peer has to send to a host of this byte order. -/
def hostBytes (native : Endian) (message : WireMessage) : List UInt8 :=
  layOut native message.header message.body

/-- The frame with which a message is sent. -/
def frame (native : Endian) (message : WireMessage) : Frame (framing native) where
  header := layOutHeader native message.header message.bodySize
  body := message.body
  length_header := length_encodeHeader _ _
  length_body := by rw [bodyLength_layOutHeader, message.toNat_bodySize]

theorem items_frame (native : Endian) (message : WireMessage) :
    Framing.items (message.frame native) = message.hostBytes native := rfl

theorem toMessage_frame (native : Endian) (sid : Int64) (message : WireMessage) :
    toMessage sid (message.frame native) = message.received sid := by
  have hheader : (message.frame native).header =
      layOutHeader native message.header message.bodySize := rfl
  rw [toMessage, hheader, layOutHeader, serviceId_encodeHeader, msgId_encodeHeader,
    msgSeq_encodeHeader, stageIndex_encodeHeader, toHostI16_toNetworkI16, toHostI16_toNetworkI16,
    toHostI32_toNetworkI32]
  rfl

theorem onWire_received (native : Endian) (sid : Int64) (message : WireMessage) :
    onWire native (message.received sid) = message.hostBytes native := rfl

end WireMessage

/-! ## From a message to the bytes it came from -/

theorem toBE_int16OfBE {bytes : List UInt8} (h : 2 ≤ bytes.length) :
    toBE 2 (int16OfBE bytes).toUInt16.toNat = bytes.take 2 := by
  have hlt : ofBE (bytes.take 2) < 2 ^ 16 := ofBE_take_lt h
  rw [int16OfBE, UInt16.toUInt16_toInt16, UInt16.toNat_ofNat', Nat.mod_eq_of_lt hlt,
    toBE_ofBE_take h]

theorem toBE_int32OfBE {bytes : List UInt8} (h : 4 ≤ bytes.length) :
    toBE 4 (int32OfBE bytes).toUInt32.toNat = bytes.take 4 := by
  have hlt : ofBE (bytes.take 4) < 2 ^ 32 := ofBE_take_lt h
  rw [int32OfBE, UInt32.toUInt32_toInt32, UInt32.toNat_ofNat', Nat.mod_eq_of_lt hlt,
    toBE_ofBE_take h]

theorem bodySize_onWire (f : Frame (framing native)) :
    toBE 2 (toNetworkU16 native (UInt16.ofNat f.body.length)).toNat = f.header.take 2 := by
  have hheader : f.header.length = 11 := f.length_header
  have hlength : f.body.length = (toHostI16 native (int16OfBE f.header)).toUInt16.toNat :=
    f.length_body
  rw [hlength, UInt16.ofNat_toNat, toHostI16, toNetworkI16, UInt16.toUInt16_toInt16,
    toNetworkU16_toNetworkU16, toBE_int16OfBE (by omega)]

theorem field16_onWire {bytes : List UInt8} (h : 2 ≤ bytes.length) :
    toBE 2 (toNetworkI16 native (toHostI16 native (int16OfBE bytes))).toUInt16.toNat =
      bytes.take 2 := by
  have hswap : toNetworkI16 native (toHostI16 native (int16OfBE bytes)) = int16OfBE bytes :=
    toHostI16_toNetworkI16 native _
  rw [hswap, toBE_int16OfBE h]

theorem field32_onWire {bytes : List UInt8} (h : 4 ≤ bytes.length) :
    toBE 4 (toNetworkI32 native (toHostI32 native (int32OfBE bytes))).toUInt32.toNat =
      bytes.take 4 := by
  have hswap : toNetworkI32 native (toHostI32 native (int32OfBE bytes)) = int32OfBE bytes :=
    toHostI32_toNetworkI32 native _
  rw [hswap, toBE_int32OfBE h]

/-- The fields of a header, one behind the other. -/
theorem header_fields {header : List UInt8} (h : header.length = 11) :
    header.take 2 ++ ((header.drop 2).take 2 ++ ((header.drop 4).take 4 ++
      ((header.drop 8).take 2 ++ [header.getD 10 0]))) = header := by
  have hlast : [header.getD 10 0] = header.drop 10 := by
    have hlt : 10 < header.length := by omega
    rw [List.drop_eq_getElem_cons hlt, List.drop_eq_nil_of_le (by omega),
      ← List.getElem_eq_getD 0 (h := hlt)]
  have hjoin : ∀ i k, (header.drop i).take k ++ header.drop (i + k) = header.drop i := by
    intro i k
    rw [← List.drop_drop, List.take_append_drop]
  rw [hlast, hjoin 8 2, hjoin 4 4, hjoin 2 2, List.take_append_drop]

/-- The header of a frame laid out again is the header. -/
theorem layOutHeader_toMessage (sid : Int64) (f : Frame (framing native)) :
    layOutHeader native (toMessage sid f).header (UInt16.ofNat f.body.length) = f.header := by
  have hheader : f.header.length = 11 := f.length_header
  have hdrop : ∀ i k, i + k ≤ 11 → k ≤ (f.header.drop i).length := by
    intro i k hle
    rw [List.length_drop]
    omega
  have hfields : (toMessage sid f).header =
      { serviceId := toHostI16 native (int16OfBE (f.header.drop 2))
        msgId := toHostI32 native (int32OfBE (f.header.drop 4))
        msgSeq := toHostI16 native (int16OfBE (f.header.drop 8))
        stageIndex := (f.header.getD 10 0).toInt8 } := rfl
  rw [hfields, layOutHeader, encodeHeader, bodySize_onWire, field16_onWire (hdrop 2 2 (by decide)),
    field32_onWire (hdrop 4 4 (by decide)), field16_onWire (hdrop 8 2 (by decide))]
  exact header_fields hheader

/-- The bytes of the message made of a frame are the frame. -/
theorem onWire_toMessage (sid : Int64) (f : Frame (framing native)) :
    onWire native (toMessage sid f) = Framing.items f := by
  have honWire : onWire native (toMessage sid f) =
      layOutHeader native (toMessage sid f).header (UInt16.ofNat f.body.length) ++ f.body := rfl
  rw [honWire, layOutHeader_toMessage, Framing.items]

/-- The host's format is network order exactly if the second swap changes nothing. -/
theorem hostBytes_eq_bytes_iff (native : Endian) (message : WireMessage) :
    message.hostBytes native = message.bytes ↔ message.Unswapped native := by
  rw [unswapped_iff_frame native 0]
  constructor
  · intro h
    exact ⟨message.frame native, h, message.toMessage_frame native 0⟩
  · intro h
    obtain ⟨f, hitems, hmessage⟩ := h
    rw [← hitems, ← onWire_toMessage 0 f, hmessage, WireMessage.onWire_received]

/-! ## Streams -/

/-- Messages come out of a stream as they were laid out for the host. -/
theorem decodeStream_hostBytes (native : Endian) (sid : Int64) (messages : List WireMessage) :
    decodeStream native sid (messages.flatMap (WireMessage.hostBytes native)) =
      (messages.map (WireMessage.received sid), []) := by
  have hnil : next (framing native) [] = none :=
    (next_eq_none_iff []).mpr (Nat.lt_of_lt_of_le (framing native).headerLength_pos
      (Nat.le_add_right _ _))
  have hframes := decode_frames (messages.map (WireMessage.frame native)) hnil
  rw [List.append_nil, List.flatMap_map] at hframes
  simp only [WireMessage.items_frame] at hframes
  rw [decodeStream, hframes, List.map_map]
  exact congrArg (·, []) (List.map_congr_left fun m _ => m.toMessage_frame native sid)

theorem decodeStream_onWire (native : Endian) (sid : Int64) (xs : List UInt8) :
    (decodeStream native sid xs).1.flatMap (onWire native) ++ (decodeStream native sid xs).2 =
      xs := by
  have hitems := Framing.decode_items (F := framing native) xs
  rw [decodeStream, List.flatMap_map]
  simpa only [onWire_toMessage] using hitems

theorem onWire_map_received (native : Endian) (sid : Int64) (messages : List WireMessage) :
    (messages.map (WireMessage.received sid)).flatMap (onWire native) =
      messages.flatMap (WireMessage.hostBytes native) := by
  rw [List.flatMap_map]
  rfl

/-- The whole messages at the front of a stream of messages that was cut
anywhere, and the part of the next one. -/
theorem decodeStream_cut (sid : Int64) {messages : List WireMessage} {stream : List UInt8}
    (h : stream <+: messages.flatMap (WireMessage.hostBytes native)) :
    ∃ front back, messages = front ++ back ∧
      (decodeStream native sid stream).1 = front.map (WireMessage.received sid) ∧
      front.flatMap (WireMessage.hostBytes native) ++ (decodeStream native sid stream).2 =
        stream ∧
      ((decodeStream native sid stream).2 = [] ∨ ∃ message ∈ back.head?,
        (decodeStream native sid stream).2.length < (message.hostBytes native).length) := by
  have hframes : messages.flatMap (WireMessage.hostBytes native) =
      (messages.map (WireMessage.frame native)).flatMap Framing.items := by
    rw [List.flatMap_map]
    rfl
  rw [hframes] at h
  obtain ⟨rest, hmap, hcut⟩ := Framing.decode_cut h
  obtain ⟨front, back, rfl, hfront, hback⟩ := List.map_eq_append_iff.mp hmap
  have hreceived : (decodeStream native sid stream).1 = front.map (WireMessage.received sid) := by
    rw [decodeStream, ← hfront, List.map_map]
    exact List.map_congr_left fun m _ => m.toMessage_frame native sid
  refine ⟨front, back, rfl, hreceived, ?_, ?_⟩
  · rw [← onWire_map_received native sid, ← hreceived]
    exact decodeStream_onWire native sid stream
  · rcases hcut with hnil | hpart
    · exact .inl hnil
    · obtain ⟨f, hf, hlt⟩ := hpart
      rw [← hback, List.head?_map, Option.mem_map] at hf
      obtain ⟨message, hmessage, rfl⟩ := hf
      exact .inr ⟨message, hmessage, hlt⟩

end StreamParser
end PlaySocket
