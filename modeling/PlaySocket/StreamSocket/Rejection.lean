import PlaySocket.StreamSocket.Callbacks

/-!
# When a session turns a peer away

A session disconnects its peer when `write` or `parse` throws.  `write` throws on
a stream that does not fit the ring.  `parse` throws on one that fills the ring
to its last byte, for then the read index and the header index agree as they do
on an empty ring, and `isReadIndexValid` takes it for one.
-/

namespace PlaySocket
namespace StreamParser

open Exec RingBuffer Doubling

variable {native : Endian} {sid : Int64} {parser : StreamParser}

theorem Ready.parse_returns_iff (h : Ready sid parser) (native : Endian) :
    (∃ messages parser', (parse native).run parser = .ok messages parser') ↔
      parser.buffer.size ≠ parser.buffer.capacity := by
  obtain ⟨c, items, h⟩ := h
  exact StreamParser.parse_returns_iff h

/-- Either the write throws, or the parse that follows decides. -/
theorem Ready.receive_cases (h : Ready sid parser) (native : Endian) (buffer : List UInt8) :
    (∃ e parser', (write buffer 0 buffer.length).run parser = .thrown e parser' ∧
        (receive native buffer).run parser = .thrown e parser') ∨
      ∃ parser₁, (write buffer 0 buffer.length).run parser = .ok () parser₁ ∧
        Ready sid parser₁ ∧ (receive native buffer).run parser = (parse native).run parser₁ := by
  have hinside : 0 + buffer.length ≤ buffer.length := Nat.le_of_eq (Nat.zero_add _)
  rcases write_keeps sid hinside parser h with hret | hthrown
  · obtain ⟨_, parser₁, hwrite, h₁⟩ := hret
    exact .inr ⟨parser₁, hwrite, h₁, by rw [receive, run_bind, hwrite, Exit.andThen_ok]⟩
  · obtain ⟨e, parser', hwrite, _⟩ := hthrown
    exact .inl ⟨e, parser', hwrite, by rw [receive, run_bind, hwrite, Exit.andThen_thrown]⟩

/-- The chunk takes the bytes held to a doubling of the capacity, within the
maximum. -/
def Fills (parser : StreamParser) (buffer : List UInt8) : Prop :=
  parser.buffer.size + buffer.length ≤ parser.buffer.maxCapacity ∧
    ∃ k, parser.buffer.size + buffer.length = parser.buffer.capacity * 2 ^ k

theorem Ready.fills_iff (h : Ready sid parser) (buffer : List UInt8) :
    Fills parser buffer ↔ ∃ parser₁, (write buffer 0 buffer.length).run parser = .ok () parser₁ ∧
      parser₁.buffer.size = parser₁.buffer.capacity := by
  have hinside : 0 + buffer.length ≤ buffer.length := Nat.le_of_eq (Nat.zero_add _)
  obtain ⟨c, items, h⟩ := h
  rw [Fills, h.holds.size_eq, h.holds.capacity_eq, h.holds.maxCapacity_eq]
  by_cases hfit : items.length + buffer.length ≤ 1024 * 64 * 8
  · obtain ⟨parser₁, c', hwrite, h₁, hgrows⟩ := write_ok h hinside hfit
    have hlength : (items ++ slice buffer 0 buffer.length).length =
        items.length + buffer.length := by
      rw [List.length_append, length_slice hinside]
    have hfull := hgrows.full_iff (hlength ▸ h₁.holds.length_le)
    rw [← hfull]
    constructor
    · intro hfills
      refine ⟨parser₁, hwrite, ?_⟩
      rw [h₁.holds.size_eq, h₁.holds.capacity_eq, hlength]
      exact hfills.2
    · intro hwritten
      obtain ⟨parser₂, hwrite₂, hsize⟩ := hwritten
      rw [hwrite] at hwrite₂
      cases hwrite₂
      rw [h₁.holds.size_eq, h₁.holds.capacity_eq, hlength] at hsize
      exact ⟨hfit, hsize⟩
  · obtain ⟨parser', c', hwrite, _⟩ := write_thrown h hinside (by omega)
    rw [hwrite]
    constructor
    · intro hfills
      exact absurd hfills.1 hfit
    · intro hwritten
      obtain ⟨_, hwritten, _⟩ := hwritten
      cases hwritten

/-- A session whose parser is `parser`. -/
def sessionOf (socket : SocketId) (parser : StreamParser) : Session :=
  { sid := parser.sid, socket := some socket, parser := some parser }

/-- The callback disconnects exactly if the write throws or leaves no free cell. -/
theorem Ready.onReceived_disconnects_iff (h : Ready sid parser) (t : Transport)
    (native : Endian) (socket : SocketId) (buffer : List UInt8) :
    ∃ a, (t.onReceived native buffer).run
        { session := sessionOf socket parser, effects := [] } = .ok () a ∧
      (.disconnect ∈ a.effects ↔
        ∀ parser₁, (write buffer 0 buffer.length).run parser = .ok () parser₁ →
          parser₁.buffer.size = parser₁.buffer.capacity) := by
  have hthrows : ∀ e parser', (receive native buffer).run parser = .thrown e parser' →
      ∃ a, (t.onReceived native buffer).run
        { session := sessionOf socket parser, effects := [] } = .ok () a ∧
      .disconnect ∈ a.effects := by
    intro e parser' hrun
    exact ⟨_, by rw [t.onReceived_eq]; exact Session.onReceived_thrown rfl hrun,
      List.mem_singleton_self _⟩
  rcases h.receive_cases native buffer with hthrown | hwritten
  · obtain ⟨e, parser', hwrite, hrun⟩ := hthrown
    obtain ⟨a, hcallback, hmem⟩ := hthrows e parser' hrun
    refine ⟨a, hcallback, fun _ => ?_, fun _ => hmem⟩
    intro parser₁ hok
    rw [hwrite] at hok
    cases hok
  · obtain ⟨parser₁, hwrite, h₁, hrun⟩ := hwritten
    have honly : (∀ parser₂, (write buffer 0 buffer.length).run parser = .ok () parser₂ →
        parser₂.buffer.size = parser₂.buffer.capacity) ↔
        parser₁.buffer.size = parser₁.buffer.capacity := by
      constructor
      · intro hall
        exact hall parser₁ hwrite
      · intro heq parser₂ hok
        rw [hwrite] at hok
        cases hok
        exact heq
    rw [honly]
    rcases parse_keeps native sid parser₁ h₁ with hret | hthrown
    · obtain ⟨messages, parser', hparse, _⟩ := hret
      have hroom := (h₁.parse_returns_iff native).mp ⟨messages, parser', hparse⟩
      refine ⟨_, by rw [t.onReceived_eq]; exact Session.onReceived_ok rfl rfl (hrun.trans hparse),
        ?_, fun hfull => absurd hfull hroom⟩
      intro hmem
      rw [List.nil_append] at hmem
      obtain ⟨message, _, hpush⟩ := List.mem_map.mp hmem
      cases hpush
    · obtain ⟨e, parser', hparse, _⟩ := hthrown
      obtain ⟨a, hcallback, hmem⟩ := hthrows e parser' (hrun.trans hparse)
      refine ⟨a, hcallback, fun _ => ?_, fun _ => hmem⟩
      by_contra hne
      obtain ⟨messages, parser'', hok⟩ := (h₁.parse_returns_iff native).mpr hne
      rw [hparse] at hok
      cases hok

/-- In every state a run of writes and parses reaches, `parse` returns exactly if
the ring has a free cell, and a session that receives a chunk there disconnects
for an overflow alone exactly if the chunk does not fill the ring. -/
theorem parse_returns_unless_full (t : Transport) (native : Endian) (sid : Int64)
    (calls : List ParserCall) :
    ∃ results parser,
      runAll (calls.map (ParserCall.exec native)) (new sid) = some (results, parser) ∧
      ((∃ messages parser', (parse native).run parser = .ok messages parser') ↔
        parser.buffer.size ≠ parser.buffer.capacity) ∧
      ∀ socket buffer, ∃ a, (t.onReceived native buffer).run
          { session := sessionOf socket parser, effects := [] } = .ok () a ∧
        ((.disconnect ∈ a.effects →
            ∃ e parser', (write buffer 0 buffer.length).run parser = .thrown e parser') ↔
          ¬Fills parser buffer) := by
  obtain ⟨results, parser, hrun, h⟩ := run_ready native sid calls
  refine ⟨results, parser, hrun, h.parse_returns_iff native, ?_⟩
  intro socket buffer
  obtain ⟨a, hcallback, hiff⟩ := h.onReceived_disconnects_iff t native socket buffer
  refine ⟨a, hcallback, ?_⟩
  rw [hiff, h.fills_iff buffer]
  rcases h.receive_cases native buffer with hthrown | hwritten
  · obtain ⟨e, parser', hwrite, _⟩ := hthrown
    refine ⟨fun _ hfills => ?_, fun _ _ => ⟨e, parser', hwrite⟩⟩
    obtain ⟨parser₁, hok, _⟩ := hfills
    rw [hwrite] at hok
    cases hok
  · obtain ⟨parser₁, hwrite, _⟩ := hwritten
    rw [hwrite]
    constructor
    · intro himp hfills
      obtain ⟨parser₂, hok, hfull⟩ := hfills
      cases hok
      obtain ⟨e, parser', hthrown⟩ := himp fun parser₃ hok₃ => by cases hok₃; exact hfull
      cases hthrown
    · intro hroom hfull
      exact absurd ⟨parser₁, rfl, hfull parser₁ rfl⟩ hroom

/-- A block as long as the first ring of a parser is written and rejected. -/
theorem reject_block {buffer : List UInt8} (hlength : buffer.length = 1024 * 8) (native : Endian)
    (sid : Int64) :
    ∃ parser, (write buffer 0 buffer.length).run (new sid) = .ok () parser ∧
      (parse native).run parser = .thrown indexError parser := by
  have hinside : 0 + buffer.length ≤ buffer.length := Nat.le_of_eq (Nat.zero_add _)
  obtain ⟨parser, c, hwrite, h, hgrows⟩ :=
    write_ok (new_holds sid) hinside (by rw [hlength]; decide)
  have hc : c = 1024 * 8 := hgrows.eq_self (by rw [hlength]; decide)
  rw [slice_all, List.nil_append] at h
  exact ⟨parser, hwrite, parse_thrown h (hlength.trans hc.symm)⟩

theorem reject_block_run {buffer : List UInt8} (hlength : buffer.length = 1024 * 8)
    (inside : 0 + buffer.length ≤ buffer.length) (native : Endian) (sid : Int64) :
    ∃ parser, runAll ([ParserCall.write buffer 0 buffer.length inside].map
        (ParserCall.exec native)) (new sid) = some ([.ok []], parser) ∧
      (parse native).run parser = .thrown indexError parser ∧
      ∃ a, (Session.onReceived native buffer).run
        { session := sessionOf 0 (new sid), effects := [] } = .ok () a ∧
        a.effects = [.disconnect] := by
  obtain ⟨parser, hwrite, hparse⟩ := reject_block hlength native sid
  have hexec : ((ParserCall.write buffer 0 buffer.length inside).exec native).run (new sid) =
      .ok [] parser := by
    rw [ParserCall.exec, run_bind, hwrite, Exit.andThen_ok, run_pure]
  have hreceive : (receive native buffer).run (new sid) = .thrown indexError parser := by
    rw [receive, run_bind, hwrite, Exit.andThen_ok, hparse]
  refine ⟨parser, ?_, hparse, _, Session.onReceived_thrown rfl hreceive, rfl⟩
  rw [List.map_cons, List.map_nil, runAll, hexec]
  rfl

def eightKilobytes : List UInt8 := List.replicate 8192 0

theorem length_eightKilobytes : eightKilobytes.length = 1024 * 8 := List.length_replicate

theorem eightKilobytes_inside : 0 + eightKilobytes.length ≤ eightKilobytes.length :=
  Nat.le_of_eq (Nat.zero_add _)

/-- Eight kilobytes fit the ring, and both the parser and the session reject
them. -/
theorem parse_rejects_eightKilobytes :
    ∃ parser, runAll ([ParserCall.write eightKilobytes 0 eightKilobytes.length
        eightKilobytes_inside].map (ParserCall.exec .little)) (new 7) = some ([.ok []], parser) ∧
      (parse .little).run parser = .thrown indexError parser ∧
      ∃ a, (Session.onReceived .little eightKilobytes).run
        { session := sessionOf 0 (new 7), effects := [] } = .ok () a ∧
        a.effects = [.disconnect] :=
  reject_block_run length_eightKilobytes eightKilobytes_inside .little 7

end StreamParser
end PlaySocket
