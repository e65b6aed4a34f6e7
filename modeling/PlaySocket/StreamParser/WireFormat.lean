import PlaySocket.StreamParser.Stream

/-!
# The wire format

On the wire every field of a frame stands in network order.  The parser converts
twice on its way in.  The ring puts the bytes of a field together most
significant byte first, which is the whole conversion, and `toHost` then swaps
them again on a little-endian host.  What arrives is what was sent exactly for
the fields the second swap does not change.
-/

namespace PlaySocket
namespace StreamParser

open Exec Framing RingBuffer BitConverter Bytes Doubling

/-- A message as a peer sends it. -/
structure WireMessage where
  header : Header
  body : List UInt8
  length_body : body.length ≤ maxPacketSize

/-- The header of a frame in network order. -/
def encodeHeader (header : Header) (bodySize : Nat) : List UInt8 :=
  toBE 2 bodySize ++ (toBE 2 header.serviceId.toUInt16.toNat ++
    (toBE 4 header.msgId.toUInt32.toNat ++
      (toBE 2 header.msgSeq.toUInt16.toNat ++ [header.stageIndex.toUInt8])))

def encode (header : Header) (body : List UInt8) : List UInt8 :=
  encodeHeader header body.length ++ body

namespace WireMessage

def bytes (message : WireMessage) : List UInt8 := encode message.header message.body

/-- The message the receiver should see. -/
def received (sid : Int64) (message : WireMessage) : ClientMessage :=
  ClientMessage.ofBody sid message.header (some { data := message.body.toArray })

def bodySize (message : WireMessage) : UInt16 := UInt16.ofNat message.body.length

/-- A host of this byte order leaves the multi-byte fields as they are. -/
structure Unswapped (native : Endian) (message : WireMessage) : Prop where
  bodySize : toNetworkU16 native message.bodySize = message.bodySize
  serviceId : toNetworkI16 native message.header.serviceId = message.header.serviceId
  msgId : toNetworkI32 native message.header.msgId = message.header.msgId
  msgSeq : toNetworkI16 native message.header.msgSeq = message.header.msgSeq

theorem unswapped_big (message : WireMessage) : Unswapped .big message :=
  ⟨rfl, Int16.toInt16_toUInt16 _, Int32.toInt32_toUInt32 _, Int16.toInt16_toUInt16 _⟩

theorem toNat_bodySize (message : WireMessage) : message.bodySize.toNat = message.body.length := by
  have h := message.length_body
  unfold maxPacketSize at h
  rw [bodySize, UInt16.toNat_ofNat', Nat.mod_eq_of_lt (by omega)]

end WireMessage

variable {native : Endian} {sid : Int64}

theorem length_encodeHeader (header : Header) (bodySize : Nat) :
    (encodeHeader header bodySize).length = 11 := by
  simp only [encodeHeader, List.length_append, length_toBE, List.length_singleton]

theorem WireMessage.length_bytes (message : WireMessage) :
    message.bytes.length = 11 + message.body.length := by
  rw [bytes, encode, List.length_append, length_encodeHeader]

/-! ## One message -/

/-- The fields as the parser reads them. -/
theorem bodyLength_encodeHeader (native : Endian) (message : WireMessage) :
    (framing native).bodyLength (encodeHeader message.header message.body.length) =
      (toNetworkU16 native message.bodySize).toNat := by
  show (toHostI16 native (int16OfBE (encodeHeader _ _))).toUInt16.toNat = _
  rw [encodeHeader, ← message.toNat_bodySize, uint16OfBE_toBE, toHostI16, toNetworkI16,
    UInt16.toUInt16_toInt16, UInt16.toUInt16_toInt16]

theorem serviceId_encodeHeader (header : Header) (bodySize : Nat) :
    int16OfBE ((encodeHeader header bodySize).drop 2) = header.serviceId := by
  rw [encodeHeader, List.drop_left' (length_toBE _ _), int16OfBE_toBE]

theorem msgId_encodeHeader (header : Header) (bodySize : Nat) :
    int32OfBE ((encodeHeader header bodySize).drop 4) = header.msgId := by
  rw [encodeHeader, ← List.append_assoc, List.drop_left' (by simp), int32OfBE_toBE]

theorem msgSeq_encodeHeader (header : Header) (bodySize : Nat) :
    int16OfBE ((encodeHeader header bodySize).drop 8) = header.msgSeq := by
  rw [encodeHeader, ← List.append_assoc, ← List.append_assoc, List.drop_left' (by simp),
    int16OfBE_toBE]

theorem stageIndex_encodeHeader (header : Header) (bodySize : Nat) :
    ((encodeHeader header bodySize).getD 10 0).toInt8 = header.stageIndex := by
  rw [encodeHeader, ← List.append_assoc, ← List.append_assoc, ← List.append_assoc,
    List.getD_eq_getElem?_getD, List.getElem?_append_right (by simp)]
  simp

theorem toMessage_encodeHeader (f : Frame (framing native)) (message : WireMessage)
    (hheader : f.header = encodeHeader message.header message.body.length)
    (hbody : f.body = message.body) :
    toMessage sid f = ClientMessage.ofBody sid
      { serviceId := toNetworkI16 native message.header.serviceId
        msgId := toNetworkI32 native message.header.msgId
        msgSeq := toNetworkI16 native message.header.msgSeq
        stageIndex := message.header.stageIndex } (some { data := message.body.toArray }) := by
  rw [toMessage, hheader, hbody, serviceId_encodeHeader, msgId_encodeHeader, msgSeq_encodeHeader,
    stageIndex_encodeHeader, toHostI16, toHostI16, toHostI32]

/-- A message arrives as it was sent exactly if the second swap changes nothing. -/
theorem unswapped_iff_frame (native : Endian) (sid : Int64) (message : WireMessage) :
    message.Unswapped native ↔
      ∃ f : Frame (framing native), Framing.items f = message.bytes ∧
        toMessage sid f = message.received sid := by
  constructor
  · intro h
    have hlength : message.body.length =
        (framing native).bodyLength (encodeHeader message.header message.body.length) := by
      rw [bodyLength_encodeHeader, h.bodySize, message.toNat_bodySize]
    refine ⟨⟨encodeHeader message.header message.body.length, message.body,
      length_encodeHeader _ _, hlength⟩, rfl, ?_⟩
    rw [toMessage_encodeHeader _ message rfl rfl, h.serviceId, h.msgId, h.msgSeq]
    rfl
  · intro h
    obtain ⟨f, hitems, hmessage⟩ := h
    have hsplit : f.header = encodeHeader message.header message.body.length ∧
        f.body = message.body :=
      List.append_inj hitems (f.length_header.trans (length_encodeHeader _ _).symm)
    obtain ⟨hheader, hbody⟩ := hsplit
    rw [toMessage_encodeHeader f message hheader hbody] at hmessage
    have hlength := f.length_body
    rw [hheader, hbody, bodyLength_encodeHeader, ← message.toNat_bodySize] at hlength
    have hfields := (ClientMessage.mk.inj hmessage).2.1
    obtain ⟨hserviceId, hmsgId, hmsgSeq, _⟩ := Header.mk.inj hfields
    exact ⟨UInt16.toNat_inj.mp hlength.symm, hserviceId, hmsgId, hmsgSeq⟩

/-! ## A fresh parser -/

theorem receive_ok (native : Endian) (sid : Int64) (stream : List UInt8)
    (hfit : stream.length ≤ 1024 * 64 * 8) (hfull : ∀ k, stream.length ≠ 1024 * 8 * 2 ^ k) :
    ∃ parser c, (receive native stream).run (new sid) =
        .ok (decodeStream native sid stream).1 parser ∧
      HoldsStream parser sid c (decodeStream native sid stream).2 := by
  obtain ⟨parser₁, c, hwrite, h₁, _⟩ := write_ok (new_holds sid)
    (show 0 + stream.length ≤ stream.length by omega) (by simpa using hfit)
  rw [slice_all, List.nil_append] at h₁
  have hroom : stream.length < c := by
    obtain ⟨k, hk⟩ := h₁.doubles
    exact Nat.lt_of_le_of_ne h₁.holds.length_le (hk ▸ hfull k)
  obtain ⟨parser, hparse, h⟩ := parse_ok native h₁ hroom
  refine ⟨parser, c, ?_, h⟩
  rw [receive, run_bind, hwrite, Exit.andThen_ok, hparse]

/-- Less than the first ring holds fills no ring. -/
theorem ne_capacity {n : Nat} (h : n < 1024 * 8) (k : Nat) : n ≠ 1024 * 8 * 2 ^ k := by
  have hpos := Nat.two_pow_pos k
  omega

theorem exists_frames (native : Endian) (sid : Int64) {messages : List WireMessage}
    (h : ∀ message ∈ messages, message.Unswapped native) :
    ∃ fs : List (Frame (framing native)),
      fs.flatMap Framing.items = messages.flatMap WireMessage.bytes ∧
        fs.map (toMessage sid) = messages.map (WireMessage.received sid) := by
  induction messages with
  | nil => exact ⟨[], rfl, rfl⟩
  | cons message messages ih =>
    obtain ⟨f, hitems, hmessage⟩ :=
      (unswapped_iff_frame native sid message).mp (h message List.mem_cons_self)
    obtain ⟨fs, hflat, hmap⟩ := ih fun m hm => h m (List.mem_cons_of_mem message hm)
    exact ⟨f :: fs, by rw [List.flatMap_cons, List.flatMap_cons, hitems, hflat],
      by rw [List.map_cons, List.map_cons, hmessage, hmap]⟩

/-- The bytes a received message would have been sent as. -/
def reencode (message : ClientMessage) : List UInt8 :=
  encode message.header ((message.body.map fun body => body.data.toList).getD [])

theorem reencode_received (sid : Int64) (message : WireMessage) :
    reencode (message.received sid) = message.bytes := rfl

theorem length_reencode (f : Frame (framing native)) :
    (Framing.items f).length = (reencode (toMessage sid f)).length := by
  have hreencode : reencode (toMessage sid f) = encode (toMessage sid f).header f.body := rfl
  rw [hreencode, encode, List.length_append, length_encodeHeader, Framing.items,
    List.length_append, f.length_header]
  rfl

/-- The messages come out of the stream as they went in exactly if the second
swap changes none of them. -/
theorem decodeStream_wire_iff (native : Endian) (sid : Int64) (messages : List WireMessage) :
    decodeStream native sid (messages.flatMap WireMessage.bytes) =
        (messages.map (WireMessage.received sid), []) ↔
      ∀ message ∈ messages, message.Unswapped native := by
  constructor
  · intro h message hmem
    have hfs := (Prod.mk.inj h).1
    have hflat := decode_items (F := framing native) (messages.flatMap WireMessage.bytes)
    rw [(Prod.mk.inj h).2, List.append_nil] at hflat
    generalize (decode (framing native) (messages.flatMap WireMessage.bytes)).1 = fs at hfs hflat
    -- Both sides of `hflat` lay out the same messages in pieces of equal lengths.
    have hpieces : fs.flatMap Framing.items = fs.flatMap fun f => reencode (toMessage sid f) :=
      calc fs.flatMap Framing.items = messages.flatMap WireMessage.bytes := hflat
        _ = (messages.map (WireMessage.received sid)).flatMap reencode := by
          rw [List.flatMap_map]; rfl
        _ = fs.flatMap fun f => reencode (toMessage sid f) := by
          rw [← hfs, List.flatMap_map]
    have hreceived : message.received sid ∈ fs.map (toMessage sid) :=
      hfs ▸ List.mem_map_of_mem hmem
    obtain ⟨f, hf, hmessage⟩ := List.mem_map.mp hreceived
    have hitems := List.flatMap_inj_of_length (fun f _ => length_reencode f) hpieces f hf
    rw [hmessage, reencode_received] at hitems
    exact (unswapped_iff_frame native sid message).mpr ⟨f, hitems, hmessage⟩
  · intro h
    obtain ⟨fs, hflat, hmap⟩ := exists_frames native sid h
    have hnil : next (framing native) [] = none :=
      (next_eq_none_iff []).mpr (Nat.lt_of_lt_of_le (framing native).headerLength_pos
        (Nat.le_add_right _ _))
    rw [decodeStream, ← hflat, ← List.append_nil (fs.flatMap Framing.items),
      decode_frames fs hnil, hmap]

/-- A fresh parser returns the messages sent, and keeps nothing, exactly if the
host's byte order changes none of their multi-byte fields. -/
theorem receive_wire_iff (native : Endian) (sid : Int64) (messages : List WireMessage)
    (hfit : (messages.flatMap WireMessage.bytes).length ≤ 524288)
    (hfull : ∀ k, (messages.flatMap WireMessage.bytes).length ≠ 8192 * 2 ^ k) :
    (∃ parser, (receive native (messages.flatMap WireMessage.bytes)).run (new sid) =
        .ok (messages.map (WireMessage.received sid)) parser ∧ parser.buffer.size = 0) ↔
      ∀ message ∈ messages, message.Unswapped native := by
  obtain ⟨parser, c, hrun, h⟩ := receive_ok native sid _ hfit hfull
  rw [← decodeStream_wire_iff native sid messages, hrun]
  constructor
  · intro hsent
    obtain ⟨parser', hok, hsize⟩ := hsent
    obtain ⟨hmessages, rfl⟩ := Exit.ok.inj hok
    rw [h.holds.size_eq] at hsize
    exact Prod.ext hmessages (List.eq_nil_of_length_eq_zero hsize)
  · intro hdecode
    rw [hdecode] at h ⊢
    exact ⟨parser, rfl, h.holds.size_eq⟩

/-- A body of 257 bytes, whose length is a palindrome as the other fields are. -/
def wide : WireMessage :=
  { header := { serviceId := 0x0202, msgId := 0x01030301, msgSeq := -1, stageIndex := 4 }
    body := List.replicate 257 9
    length_body := by rw [List.length_replicate]; decide }

def narrow : WireMessage :=
  { header := { serviceId := 3, msgId := 70000, msgSeq := -2, stageIndex := 5 }
    body := [1, 2, 3]
    length_body := by decide }

theorem receive_wire_iff_wide :
    (∃ parser, (receive .big ([wide, narrow].flatMap WireMessage.bytes)).run (new 7) =
        .ok ([wide, narrow].map (WireMessage.received 7)) parser ∧ parser.buffer.size = 0) ∧
      (∃ parser, (receive .little ([wide, wide].flatMap WireMessage.bytes)).run (new 7) =
        .ok ([wide, wide].map (WireMessage.received 7)) parser ∧ parser.buffer.size = 0) ∧
      ¬∃ parser, (receive .little ([wide, narrow].flatMap WireMessage.bytes)).run (new 7) =
        .ok ([wide, narrow].map (WireMessage.received 7)) parser ∧ parser.buffer.size = 0 := by
  have hbody : wide.body.length = 257 := List.length_replicate
  have hlengths : wide.bytes.length = 268 ∧ narrow.bytes.length = 14 := by
    rw [WireMessage.length_bytes, WireMessage.length_bytes, hbody]
    exact ⟨rfl, rfl⟩
  have hmixed : ([wide, narrow].flatMap WireMessage.bytes).length = 282 := by
    simp [hlengths]
  have htwice : ([wide, wide].flatMap WireMessage.bytes).length = 536 := by
    simp [hlengths]
  refine ⟨?_, ?_, fun hsent => ?_⟩
  · exact (receive_wire_iff .big 7 [wide, narrow] (by omega)
      (ne_capacity (by omega))).mpr fun message _ => message.unswapped_big
  · refine (receive_wire_iff .little 7 [wide, wide] (by omega)
      (ne_capacity (by omega))).mpr fun message hmem => ?_
    have hwide : message = wide := List.eq_of_mem_replicate (n := 2) hmem
    rw [hwide]
    refine ⟨?_, by decide, by decide, by decide⟩
    rw [WireMessage.bodySize, hbody]
    decide
  · have hunswapped := (receive_wire_iff .little 7 [wide, narrow] (by omega)
      (ne_capacity (by omega))).mp hsent narrow (by simp)
    exact absurd hunswapped.bodySize (by decide)

/-- An empty message that no host swaps. -/
def palindrome : WireMessage :=
  { header := { serviceId := 0x0101, msgId := 0, msgSeq := -1, stageIndex := 4 }
    body := []
    length_body := by decide }

/-- A message of eleven bytes, sent to a little-endian host. -/
def elevenBytes : WireMessage :=
  { header := { serviceId := 1, msgId := 2, msgSeq := 3, stageIndex := 1 }
    body := List.replicate 11 0
    length_body := by decide }

/-- The length field reads 2816 there, and the parser waits for the rest. -/
theorem receive_elevenBytes :
    ([elevenBytes].flatMap WireMessage.bytes).length = 22 ∧
      (∃ parser, (receive .little ([elevenBytes].flatMap WireMessage.bytes)).run (new 1234) =
        .ok [] parser ∧ parser.buffer.size = 22) ∧
      ¬∃ parser, (receive .little ([elevenBytes].flatMap WireMessage.bytes)).run (new 1234) =
        .ok ([elevenBytes].map (WireMessage.received 1234)) parser ∧ parser.buffer.size = 0 := by
  have hlength : ([elevenBytes].flatMap WireMessage.bytes).length = 22 := by decide
  have hshort : next (framing .little) ([elevenBytes].flatMap WireMessage.bytes) = none :=
    (next_eq_none_iff _).mpr (by rw [hlength]; decide)
  have hdecode : decodeStream .little 1234 ([elevenBytes].flatMap WireMessage.bytes) =
      ([], [elevenBytes].flatMap WireMessage.bytes) := by
    rw [decodeStream, decode_of_none hshort, List.map_nil]
  obtain ⟨parser, c, hrun, h⟩ := receive_ok .little 1234
    ([elevenBytes].flatMap WireMessage.bytes) (by rw [hlength]; decide)
    (ne_capacity (by rw [hlength]; decide))
  rw [hdecode] at hrun h
  refine ⟨hlength, ?_, ?_⟩
  · exact ⟨parser, hrun, by rw [h.holds.size_eq, hlength]⟩
  · intro hsent
    obtain ⟨parser', hok, _⟩ := hsent
    rw [hrun] at hok
    cases hok

end StreamParser
end PlaySocket
