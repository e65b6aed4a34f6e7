import PlaySocket.StreamParser.Stream

/-!
# What a session may send at once

A parse that returns leaves less than one frame behind, so at most 65545 bytes.
The ring takes 524288.  A chunk of at most 458743 bytes therefore always fits
behind a parse that returned, and a longer one may not.
-/

namespace PlaySocket

open Exec RingBuffer BitConverter

/-- A chunk, somewhere in the caller's memory. -/
structure Chunk where
  buffer : List UInt8
  offset : Nat
  count : Nat
  inside : offset + count ≤ buffer.length

namespace Chunk

def write (chunk : Chunk) : ParserCall :=
  .write chunk.buffer chunk.offset chunk.count chunk.inside

/-- A whole block. -/
def ofBuffer (buffer : List UInt8) : Chunk :=
  { buffer := buffer, offset := 0, count := buffer.length, inside := Nat.le_of_eq (Nat.zero_add _) }

/-- Write and parse in turn. -/
def alternating (chunks : List Chunk) : List ParserCall :=
  chunks.flatMap fun chunk => [chunk.write, .parse]

end Chunk

namespace StreamParser

variable {native : Endian} {sid : Int64} {parser : StreamParser} {c : Nat} {items : List UInt8}

/-- The length of the body that the bytes in the ring announce. -/
def announced (native : Endian) (parser : StreamParser) : Nat :=
  (toHostI16 native (int16OfBE parser.buffer.contents)).toUInt16.toNat

/-- Every parse among the calls returned. -/
def ParsesReturn (calls : List ParserCall)
    (results : List (Except StdException (List ClientMessage))) : Prop :=
  ∀ p ∈ calls.zip results, p.1 = .parse → ∃ messages, p.2 = .ok messages

/-! ## The residue -/

theorem residue_lt (h : HoldsStream parser sid c items)
    (hnone : Framing.next (framing native) items = none) :
    parser.buffer.size < headerSize ∨
      parser.buffer.size < headerSize + announced native parser := by
  rw [h.holds.size_eq]
  by_cases hlong : headerSize ≤ items.length
  · have hlt := (Framing.next_eq_none_iff items).mp hnone
    rw [announced, h.holds.contents_eq, peek_bodyLength native hlong]
    exact .inr hlt
  · exact .inl (Nat.lt_of_not_le hlong)

theorem residue_le (h : parser.buffer.size < headerSize ∨
    parser.buffer.size < headerSize + announced native parser) : parser.buffer.size ≤ 65545 := by
  have hbody : announced native parser < 65536 := UInt16.toNat_lt _
  have hheader : headerSize = 11 := rfl
  omega

/-- What a parse that returns leaves in the ring. -/
theorem parse_residue (h : Ready sid parser) {messages : List ClientMessage}
    {parser' : StreamParser} (hrun : (parse native).run parser = .ok messages parser') :
    Ready sid parser' ∧ (parser'.buffer.size < headerSize ∨
      parser'.buffer.size < headerSize + announced native parser') := by
  obtain ⟨c, items, h⟩ := h
  obtain ⟨_, h'⟩ := parse_returned h hrun
  exact ⟨⟨c, _, h'⟩, residue_lt h' (Framing.next_decode items)⟩

/-! ## Writes -/

theorem ready_of_run {calls : List ParserCall}
    {results : List (Except StdException (List ClientMessage))}
    (hrun : runAll (calls.map (ParserCall.exec native)) (new sid) = some (results, parser)) :
    Ready sid parser := by
  obtain ⟨results', parser', hrun', h⟩ := run_ready native sid calls
  rw [hrun] at hrun'
  cases hrun'
  exact h

/-- A write ends one way or the other, and which one depends on the room left. -/
theorem Ready.write_cases (h : Ready sid parser) (chunk : Chunk) :
    (parser.buffer.size + chunk.count ≤ 524288 ∧
      ∃ parser', (write chunk.buffer chunk.offset chunk.count).run parser = .ok () parser') ∨
      524288 < parser.buffer.size + chunk.count ∧
        ∃ e parser', (write chunk.buffer chunk.offset chunk.count).run parser =
          .thrown e parser' := by
  obtain ⟨c, items, h⟩ := h
  rw [h.holds.size_eq]
  by_cases hfit : items.length + chunk.count ≤ 1024 * 64 * 8
  · obtain ⟨parser', c', hrun, _⟩ := write_ok h chunk.inside hfit
    exact .inl ⟨hfit, parser', hrun⟩
  · obtain ⟨parser', c', hrun, _⟩ := write_thrown h chunk.inside (Nat.lt_of_not_le hfit)
    exact .inr ⟨Nat.lt_of_not_le hfit, fullError, parser', hrun⟩

theorem Ready.write_throws_iff (h : Ready sid parser) (chunk : Chunk) :
    (∃ e parser', (write chunk.buffer chunk.offset chunk.count).run parser = .thrown e parser') ↔
      524288 < parser.buffer.size + chunk.count := by
  rcases h.write_cases chunk with hret | hthrown
  · obtain ⟨hfit, parser₁, hrun⟩ := hret
    rw [hrun]
    constructor
    · intro hthrow
      obtain ⟨_, _, hthrow⟩ := hthrow
      cases hthrow
    · intro hover
      omega
  · exact ⟨fun _ => hthrown.1, fun _ => hthrown.2⟩

/-! ## Runs that alternate -/

/-- Behind rounds whose parses all returned the ring holds a residue. -/
theorem alternating_residue {chunks : List Chunk}
    {results : List (Except StdException (List ClientMessage))}
    (hrun : runAll ((Chunk.alternating chunks).map (ParserCall.exec native)) (new sid) =
      some (results, parser))
    (hreturn : ParsesReturn (Chunk.alternating chunks) results) :
    parser.buffer.size ≤ 65545 := by
  rcases List.eq_nil_or_concat chunks with hnil | hlast
  · rw [hnil] at hrun
    cases hrun
    exact Nat.zero_le _
  · obtain ⟨front, last, rfl⟩ := hlast
    have hcalls : Chunk.alternating (front.concat last) =
        (Chunk.alternating front ++ [last.write]) ++ [.parse] := by
      rw [List.concat_eq_append, Chunk.alternating, List.flatMap_append, List.flatMap_singleton,
        List.append_assoc]
      rfl
    rw [hcalls, List.map_append] at hrun
    obtain ⟨before, parser₁, result, hbefore, hparse, rfl⟩ := runAll_concat_cases hrun
    have hready := ready_of_run hbefore
    have hlength : (Chunk.alternating front ++ [last.write]).length = before.length := by
      rw [runAll_length hbefore, List.length_map]
    rw [hcalls, ParsesReturn, List.zip_append hlength] at hreturn
    obtain ⟨messages, hok⟩ :=
      hreturn (.parse, result) (List.mem_append_right _ List.mem_cons_self) rfl
    change result = .ok messages at hok
    rw [hok] at hparse
    exact residue_le (parse_residue hready (outcome_ok hparse)).2

/-- A round after which the residue is as long as it can get: a header that
announces 65535 bytes, and all of them but the last. -/
theorem longest_residue (native : Endian) (sid : Int64) {buffer : List UInt8}
    (hlength : buffer.length = 65545) (hheader : buffer.take 11 = List.replicate 11 255) :
    ∃ results parser,
      runAll ((Chunk.alternating [Chunk.ofBuffer buffer]).map (ParserCall.exec native))
        (new sid) = some (results, parser) ∧
      ParsesReturn (Chunk.alternating [Chunk.ofBuffer buffer]) results ∧
      Ready sid parser ∧ parser.buffer.size = 65545 := by
  have hinside := (Chunk.ofBuffer buffer).inside
  obtain ⟨parser₁, c₁, hwrite, h₁, hgrows⟩ :=
    write_ok (new_holds sid) hinside (by show 0 + buffer.length ≤ _; omega)
  have hslice : [] ++ slice buffer 0 buffer.length = buffer := by
    rw [List.nil_append, slice_all]
  change HoldsStream parser₁ sid c₁ ([] ++ slice buffer 0 buffer.length) at h₁
  rw [hslice] at h₁
  -- An odd number of bytes does not fill a ring of 8192 doubled.
  have hroom : buffer.length < c₁ := by
    refine Nat.lt_of_le_of_ne h₁.holds.length_le fun hfull => ?_
    obtain ⟨k, hk⟩ := h₁.doubles
    omega
  have hnone : Framing.next (framing native) buffer = none := by
    refine (Framing.next_eq_none_iff buffer).mpr ?_
    have hbody : (framing native).bodyLength (buffer.take 11) = 65535 := by
      rw [hheader]
      cases native <;> rfl
    show buffer.length < 11 + (framing native).bodyLength (buffer.take 11)
    omega
  obtain ⟨parser₂, hparse, h₂⟩ := parse_ok native h₁ hroom
  have hdecode : decodeStream native sid buffer = ([], buffer) := by
    rw [decodeStream, Framing.decode_of_none hnone, List.map_nil]
  rw [hdecode] at hparse h₂
  refine ⟨[.ok [], .ok []], parser₂, ?_, ?_, ⟨_, _, h₂⟩, h₂.holds.size_eq.trans hlength⟩
  · have hexec : ((Chunk.ofBuffer buffer).write.exec native).run (new sid) = .ok [] parser₁ := by
      rw [Chunk.write, ParserCall.exec, run_bind, hwrite, Exit.andThen_ok, run_pure]
    have hexec' : (ParserCall.parse.exec native).run parser₁ = .ok [] parser₂ := hparse
    show runAll [(Chunk.ofBuffer buffer).write.exec native, ParserCall.parse.exec native]
      (new sid) = _
    simp only [runAll, hexec, hexec', Option.map_some]
  · intro p hp _
    have hpair : p = ((Chunk.ofBuffer buffer).write, .ok []) ∨ p = (.parse, .ok []) := by
      simpa [Chunk.alternating] using hp
    rcases hpair with rfl | rfl
    · exact ⟨[], rfl⟩
    · exact ⟨[], rfl⟩

/-- What a session of a parser admits.  A parse that returns leaves less than one
frame behind.  A write throws exactly if it takes the ring over its maximum.  So
behind parses that all returned 458743 bytes are always admitted, and no more
are. -/
theorem session_admission (native : Endian) (sid : Int64) :
    (∀ (calls : List ParserCall) results messages parser,
      runAll ((calls ++ [ParserCall.parse]).map (ParserCall.exec native)) (new sid) =
        some (results ++ [.ok messages], parser) →
      parser.buffer.size ≤ 65545 ∧
        (parser.buffer.size < 11 ∨ parser.buffer.size < 11 + announced native parser)) ∧
    (∀ calls : List ParserCall, ∃ results parser,
      runAll (calls.map (ParserCall.exec native)) (new sid) = some (results, parser) ∧
      ∀ chunk : Chunk,
        (∃ e parser', (write chunk.buffer chunk.offset chunk.count).run parser =
          .thrown e parser') ↔ 524288 < parser.buffer.size + chunk.count) ∧
    (∀ chunks results parser,
      runAll ((Chunk.alternating chunks).map (ParserCall.exec native)) (new sid) =
        some (results, parser) →
      ParsesReturn (Chunk.alternating chunks) results →
      ∀ chunk : Chunk, chunk.count ≤ 458743 →
        ∃ parser', (write chunk.buffer chunk.offset chunk.count).run parser = .ok () parser') ∧
    ∃ chunks results parser,
      runAll ((Chunk.alternating chunks).map (ParserCall.exec native)) (new sid) =
        some (results, parser) ∧
      ParsesReturn (Chunk.alternating chunks) results ∧
      ∃ chunk : Chunk, chunk.count = 458744 ∧
        ∃ e parser', (write chunk.buffer chunk.offset chunk.count).run parser =
          .thrown e parser' := by
  refine ⟨?_, ?_, ?_, ?_⟩
  · intro calls results messages parser hrun
    rw [List.map_append] at hrun
    obtain ⟨before, parser₁, result, hbefore, hparse, hresults⟩ := runAll_concat_cases hrun
    obtain ⟨_, hresult⟩ := List.append_inj' hresults rfl
    cases hresult
    have hresidue := (parse_residue (ready_of_run hbefore) (outcome_ok hparse)).2
    exact ⟨residue_le hresidue, hresidue⟩
  · intro calls
    obtain ⟨results, parser, hrun, h⟩ := run_ready native sid calls
    exact ⟨results, parser, hrun, h.write_throws_iff⟩
  · intro chunks results parser hrun hreturn chunk hcount
    have hle := alternating_residue hrun hreturn
    rcases (ready_of_run hrun).write_cases chunk with hret | hthrown
    · exact hret.2
    · omega
  · obtain ⟨results, parser, hrun, hreturn, h, hsize⟩ := @longest_residue native sid
      (List.replicate 65545 255) List.length_replicate List.take_replicate
    obtain ⟨block, hblock⟩ : ∃ block : List UInt8, block.length = 458744 :=
      ⟨List.replicate 458744 0, List.length_replicate⟩
    have hcount : (Chunk.ofBuffer block).count = 458744 := hblock
    refine ⟨_, results, parser, hrun, hreturn, Chunk.ofBuffer block, hcount, ?_⟩
    rw [h.write_throws_iff, hsize, hcount]
    omega

end StreamParser
end PlaySocket
