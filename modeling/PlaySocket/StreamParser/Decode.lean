import PlaySocket.Lib.Framing
import PlaySocket.RingBuffer.Integers
import PlaySocket.StreamParser.Basic

/-!
# Parsing is decoding

`framing native` is the frame format as the parser reads it on a host of byte
order `native`, and `toMessage` the message it makes of a frame.  Decoding the
whole stream with them is the specification.  The parser sees the stream in
pieces and keeps what it cannot use yet in its ring.

On a ring with a free cell `parse` returns the frames at the front of the ring
and leaves the rest there.  On a ring with no free cell it throws.
-/

namespace PlaySocket
namespace StreamParser

open Exec Framing RingBuffer BitConverter Doubling

def framing (native : Endian) : Framing UInt8 where
  headerLength := headerSize
  headerLength_pos := by decide
  bodyLength header := (toHostI16 native (int16OfBE header)).toUInt16.toNat

def toMessage {native : Endian} (sid : Int64) (f : Frame (framing native)) : ClientMessage :=
  ClientMessage.ofBody sid
    { serviceId := toHostI16 native (int16OfBE (f.header.drop 2))
      msgId := toHostI32 native (int32OfBE (f.header.drop 4))
      msgSeq := toHostI16 native (int16OfBE (f.header.drop 8))
      stageIndex := (f.header.getD 10 0).toInt8 } (some { data := f.body.toArray })

/-- The reference decoder: the messages in a stream, and the bytes behind them. -/
def decodeStream (native : Endian) (sid : Int64) (stream : List UInt8) :
    List ClientMessage × List UInt8 :=
  ((decode (framing native) stream).1.map (toMessage sid), (decode (framing native) stream).2)

theorem decodeStream_append (native : Endian) (sid : Int64) (xs ys : List UInt8) :
    decodeStream native sid (xs ++ ys) =
      ((decodeStream native sid xs).1 ++
          (decodeStream native sid ((decodeStream native sid xs).2 ++ ys)).1,
        (decodeStream native sid ((decodeStream native sid xs).2 ++ ys)).2) := by
  simp only [decodeStream, decode_append xs ys, List.map_append]

theorem decodeStream_sid {native : Endian} {sid : Int64} {xs : List UInt8}
    {message : ClientMessage} (h : message ∈ (decodeStream native sid xs).1) :
    message.sid = sid := by
  obtain ⟨f, _, rfl⟩ := List.mem_map.mp h
  rfl

/-- What is left is not decoded any further. -/
theorem decodeStream_rest (native : Endian) (sid : Int64) (xs : List UInt8) :
    decodeStream native sid (decodeStream native sid xs).2 =
      ([], (decodeStream native sid xs).2) := by
  unfold decodeStream
  rw [decode_of_none (next_decode xs), List.map_nil]

/-! ## One frame -/

variable {native : Endian} {sid : Int64} {s : RingBuffer} {c m : Nat} {items : List UInt8}

theorem int16OfBE_append {bytes : List UInt8} (h : 2 ≤ bytes.length) (rest : List UInt8) :
    int16OfBE (bytes ++ rest) = int16OfBE bytes := by
  rw [int16OfBE, int16OfBE, List.take_append_of_le_length h]

theorem int32OfBE_append {bytes : List UInt8} (h : 4 ≤ bytes.length) (rest : List UInt8) :
    int32OfBE (bytes ++ rest) = int32OfBE bytes := by
  rw [int32OfBE, int32OfBE, List.take_append_of_le_length h]

/-- A field of a header is read the same whatever follows the header. -/
theorem drop_frame (f : Frame (framing native)) (rest : List UInt8) {k : Nat} (hk : k ≤ 11) :
    (Framing.items f ++ rest).drop k = f.header.drop k ++ (f.body ++ rest) := by
  have hlength : k ≤ f.header.length := by rw [f.length_header]; exact hk
  rw [Framing.items, List.append_assoc, List.drop_append_of_le_length hlength]

theorem readMessage_ok (sid : Int64) {f : Frame (framing native)} {rest : List UInt8}
    (h : Holds s c m (Framing.items f ++ rest)) (hroom : (Framing.items f ++ rest).length < c)
    {bodySize : UInt16} (hbody : f.body.length = bodySize.toNat) :
    ∃ s', (readMessage native sid bodySize).run s = .ok (toMessage sid f) s' ∧
      Holds s' c m rest := by
  have hheader : f.header.length = 11 := f.length_header
  have hlength : (Framing.items f ++ rest).length = 11 + f.body.length + rest.length := by
    rw [Framing.items, List.length_append, List.length_append, hheader]
  obtain ⟨s₂, hclear, h₂⟩ := clearCount_ok h (show 2 ≤ _ by omega)
  rw [drop_frame f rest (by omega)] at h₂
  obtain ⟨s₄, hserviceId, h₄⟩ := readInt16_ok h₂ (by simp; omega) (by simp; omega)
  rw [int16OfBE_append (by simp; omega)] at hserviceId
  rw [← drop_frame f rest (by omega), List.drop_drop, drop_frame f rest (by omega)] at h₄
  obtain ⟨s₈, hmsgId, h₈⟩ := readInt32_ok h₄ (by simp; omega) (by simp; omega)
  rw [int32OfBE_append (by simp; omega)] at hmsgId
  rw [← drop_frame f rest (by omega), List.drop_drop, drop_frame f rest (by omega)] at h₈
  obtain ⟨s₁₀, hmsgSeq, h₁₀⟩ := readInt16_ok h₈ (by simp; omega) (by simp; omega)
  rw [int16OfBE_append (by simp; omega)] at hmsgSeq
  rw [← drop_frame f rest (by omega), List.drop_drop, drop_frame f rest (by omega)] at h₁₀
  have hlast : f.header.drop 10 = [f.header.getD 10 0] := by
    have hlt : 10 < f.header.length := by omega
    rw [List.drop_eq_getElem_cons hlt, List.drop_eq_nil_of_le (by omega),
      ← List.getElem_eq_getD 0 (h := hlt)]
  rw [hlast, List.singleton_append] at h₁₀
  obtain ⟨s₁₁, hstage, h₁₁⟩ := readInt8_ok h₁₀
  obtain ⟨s', hread, h'⟩ := read_holds h₁₁ 0 bodySize.toNat
  rw [← hbody, List.drop_left] at h'
  refine ⟨s', ?_, h'⟩
  rw [← hbody, List.take_left] at hread
  simp only [readMessage, run_bind, hclear, Exit.andThen_ok, hserviceId, hmsgId, hmsgSeq, hstage,
    ← hbody, hread, MessageT.fill_ofSize, run_pure]
  rfl

/-- The length the parser reads is the one the framing does. -/
theorem peek_bodyLength (native : Endian) (hlong : headerSize ≤ items.length) :
    (toHostI16 native (int16OfBE items)).toUInt16.toNat =
      (framing native).bodyLength (items.take headerSize) := by
  have hlength : 2 ≤ (items.take headerSize).length := by
    rw [List.length_take_of_le hlong]; decide
  have happend := int16OfBE_append hlength (items.drop headerSize)
  rw [List.take_append_drop] at happend
  rw [happend]
  rfl

/-! ## The loop -/

theorem parseLoop_ok (hroom : items.length < c) :
    ∀ (rounds : Nat) (messages : List ClientMessage) (s : RingBuffer), Holds s c m items →
      items.length < rounds →
      ∃ s', (parseLoop native sid rounds messages).run s =
          .ok (messages ++ (decodeStream native sid items).1) s' ∧
        Holds s' c m (decodeStream native sid items).2 := by
  induction items using decode_induction (F := framing native) with
  | stuck items hnone =>
    intro rounds messages s h hrounds
    have hsome : rounds ≠ 0 := Nat.ne_of_gt (Nat.zero_lt_of_lt hrounds)
    obtain ⟨rounds, rfl⟩ := Nat.exists_eq_add_one_of_ne_zero hsome
    have hdecode : decodeStream native sid items = ([], items) := by
      rw [decodeStream, decode_of_none hnone, List.map_nil]
    refine ⟨s, ?_, by rw [hdecode]; exact h⟩
    rw [hdecode, List.append_nil, parseLoop, run_bind, run_self, Exit.andThen_ok, h.size_eq]
    by_cases hlong : headerSize ≤ items.length
    · have hlt := (next_eq_none_iff items).mp hnone
      have hsize := peek_bodyLength native hlong
      have hmax : ¬(toHostI16 native (int16OfBE items)).toUInt16.toNat > maxPacketSize :=
        Nat.not_lt.mpr (Nat.le_of_lt_succ (UInt16.toNat_lt _))
      have hshort : s.size <
          (toHostI16 native (int16OfBE items)).toUInt16.toNat + headerSize := by
        rw [h.size_eq, hsize, Nat.add_comm]; exact hlt
      rw [if_pos hlong, run_bind,
        peekInt16_ok h (Nat.le_trans (by decide) hlong) hroom, Exit.andThen_ok, run_bind,
        run_when_not hmax, Exit.andThen_ok, run_bind, run_self, Exit.andThen_ok, if_pos hshort,
        run_pure]
    · rw [if_neg hlong, run_pure]
  | frame f rest ih =>
    intro rounds messages s h hrounds
    have hsome : rounds ≠ 0 := Nat.ne_of_gt (Nat.zero_lt_of_lt hrounds)
    obtain ⟨rounds, rfl⟩ := Nat.exists_eq_add_one_of_ne_zero hsome
    have hitems := length_items f
    have hlength : (Framing.items f ++ rest).length =
        headerSize + (framing native).bodyLength f.header + rest.length := by
      rw [List.length_append, hitems]; rfl
    have hlong : headerSize ≤ (Framing.items f ++ rest).length := by omega
    have hsize := peek_bodyLength native hlong
    have htake : (Framing.items f ++ rest).take headerSize = f.header := by
      rw [Framing.items, List.append_assoc]; exact List.take_left' f.length_header
    rw [htake] at hsize
    have hmax : ¬(toHostI16 native (int16OfBE (Framing.items f ++ rest))).toUInt16.toNat >
        maxPacketSize :=
      Nat.not_lt.mpr (Nat.le_of_lt_succ (UInt16.toNat_lt _))
    have hwhole : ¬s.size < (toHostI16 native
        (int16OfBE (Framing.items f ++ rest))).toUInt16.toNat + headerSize := by
      rw [h.size_eq, hsize]; omega
    obtain ⟨s₁, hread, h₁⟩ := readMessage_ok sid h hroom (f.length_body.trans hsize.symm)
    have hpos : 0 < headerSize := by decide
    obtain ⟨s', hloop, h'⟩ := ih (by omega) rounds (messages ++ [toMessage sid f]) s₁ h₁ (by omega)
    have hdecode : decodeStream native sid (Framing.items f ++ rest) =
        (toMessage sid f :: (decodeStream native sid rest).1,
          (decodeStream native sid rest).2) := by
      simp only [decodeStream, decode_of_frame, List.map_cons]
    refine ⟨s', ?_, by rw [hdecode]; exact h'⟩
    rw [hdecode, parseLoop, run_bind, run_self, Exit.andThen_ok, h.size_eq, if_pos hlong, run_bind,
      peekInt16_ok h (Nat.le_trans (by decide) hlong) hroom, Exit.andThen_ok, run_bind,
      run_when_not hmax, Exit.andThen_ok, run_bind, run_self, Exit.andThen_ok, if_neg hwhole,
      run_bind, hread, Exit.andThen_ok, hloop, List.append_assoc, List.singleton_append]

theorem parseLoop_full (h : Holds s c m items) (hfull : items.length = c)
    (hlong : headerSize ≤ c) (rounds : Nat) (messages : List ClientMessage) :
    (parseLoop native sid (rounds + 1) messages).run s = .thrown indexError s := by
  rw [parseLoop, run_bind, run_self, Exit.andThen_ok, h.size_eq,
    if_pos (show items.length ≥ headerSize by omega), run_bind,
    peekInt16_thrown h (Or.inr hfull), Exit.andThen_thrown]

/-! ## The parser -/

/-- A parser for `sid` whose ring has capacity `c` and holds `items`. -/
structure HoldsStream (parser : StreamParser) (sid : Int64) (c : Nat) (items : List UInt8) :
    Prop where
  sid_eq : parser.sid = sid
  holds : Holds parser.buffer c (1024 * 64 * 8) items
  doubles : Doubles (1024 * 8) c

variable {parser : StreamParser}

theorem new_holds (sid : Int64) : HoldsStream (new sid) sid (1024 * 8) [] :=
  ⟨rfl, init_holds (by decide) (by decide), Doubles.refl _⟩

/-- The most the ring of a parser can hold. -/
theorem limit_buffer : limit (1024 * 8) (1024 * 64 * 8) = 1024 * 64 * 8 := by decide +kernel

theorem HoldsStream.limit_eq (h : HoldsStream parser sid c items) :
    limit c (1024 * 64 * 8) = 1024 * 64 * 8 := by
  rw [h.doubles.limit_eq (by decide) h.holds.le_max, limit_buffer]

theorem HoldsStream.le_capacity (h : HoldsStream parser sid c items) : 1024 * 8 ≤ c := by
  obtain ⟨k, hk⟩ := h.doubles
  rw [hk]
  exact Nat.le_mul_of_pos_right _ (Nat.two_pow_pos k)

theorem write_ok (h : HoldsStream parser sid c items) {buffer : List UInt8} {offset count : Nat}
    (hinside : offset + count ≤ buffer.length) (hfit : items.length + count ≤ 1024 * 64 * 8) :
    ∃ parser' c', (write buffer offset count).run parser = .ok () parser' ∧
      HoldsStream parser' sid c' (items ++ slice buffer offset count) ∧
      Grows c c' (items.length + count) := by
  have hslice := length_slice hinside
  obtain ⟨s', c', hpush, h', hd⟩ := pushVector_ok h.holds (slice buffer offset count)
    (by rw [hslice, h.limit_eq]; exact hfit)
  rw [← write_eq hinside] at hpush
  rw [hslice] at hd
  exact ⟨{ parser with buffer := s' }, c', run_zoom_ok hpush,
    ⟨h.sid_eq, h', h.doubles.trans hd.doubles⟩, hd⟩

theorem write_thrown (h : HoldsStream parser sid c items) {buffer : List UInt8}
    {offset count : Nat} (hinside : offset + count ≤ buffer.length)
    (hover : 1024 * 64 * 8 < items.length + count) :
    ∃ parser' c', (write buffer offset count).run parser = .thrown fullError parser' ∧
      HoldsStream parser' sid c'
        (items ++ (slice buffer offset count).take (1024 * 64 * 8 - items.length)) := by
  have hslice := length_slice hinside
  obtain ⟨s', c', hpush, h', hd⟩ := pushVector_thrown h.holds (slice buffer offset count)
    (by rw [hslice, h.limit_eq]; exact hover)
  rw [h.limit_eq] at h'
  rw [← write_eq hinside] at hpush
  exact ⟨{ parser with buffer := s' }, c', run_zoom_thrown hpush,
    ⟨h.sid_eq, h', h.doubles.trans hd⟩⟩

theorem parse_ok (native : Endian) (h : HoldsStream parser sid c items) (hroom : items.length < c) :
    ∃ parser', (parse native).run parser = .ok (decodeStream native sid items).1 parser' ∧
      HoldsStream parser' sid c (decodeStream native sid items).2 := by
  obtain ⟨hsid, hholds, hdoubles⟩ := h
  subst hsid
  have hrounds : items.length < parser.buffer.size + 1 := by rw [hholds.size_eq]; omega
  obtain ⟨s', hloop, h'⟩ := parseLoop_ok hroom (parser.buffer.size + 1) [] parser.buffer hholds
    hrounds
  rw [List.nil_append] at hloop
  refine ⟨{ parser with buffer := s' }, ?_, rfl, h', hdoubles⟩
  rw [parse, run_bind, run_self, Exit.andThen_ok]
  exact run_zoom_ok hloop

theorem parse_thrown (h : HoldsStream parser sid c items) (hfull : items.length = c) :
    (parse native).run parser = .thrown indexError parser := by
  have hlong : headerSize ≤ c := Nat.le_trans (by decide) h.le_capacity
  rw [parse, run_bind, run_self, Exit.andThen_ok]
  exact run_zoom_thrown (parseLoop_full h.holds hfull hlong _ _)

/-- Parsing never faults, and it returns exactly when there is a free cell. -/
theorem parse_returns_iff (h : HoldsStream parser sid c items) :
    (∃ messages parser', (parse native).run parser = .ok messages parser') ↔
      parser.buffer.size ≠ parser.buffer.capacity := by
  rw [h.holds.size_eq, h.holds.capacity_eq]
  by_cases hfull : items.length = c
  · rw [parse_thrown h hfull]
    constructor
    · intro hret
      obtain ⟨_, _, hret⟩ := hret
      cases hret
    · intro hne
      exact absurd hfull hne
  · obtain ⟨parser', hrun, _⟩ := parse_ok native h (Nat.lt_of_le_of_ne h.holds.length_le hfull)
    exact ⟨fun _ => hfull, fun _ => ⟨_, parser', hrun⟩⟩

end StreamParser
end PlaySocket
