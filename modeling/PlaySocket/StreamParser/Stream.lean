import PlaySocket.StreamParser.Decode

/-!
# A stream received in pieces

The calls on a parser are writes of chunks and parses, in any order.  Of a run
whose calls all return, the messages returned so far and the messages still in
the ring make up the messages of the stream written so far.  A final parse
leaves none in the ring.
-/

namespace PlaySocket

open Exec RingBuffer

/-- A call on a parser.  The chunk of a write lies inside the caller's memory. -/
inductive ParserCall where
  | write (buffer : List UInt8) (offset count : Nat) (inside : offset + count ≤ buffer.length)
  | parse

namespace ParserCall

def exec (native : Endian) : ParserCall → Exec StdException StreamParser (List ClientMessage)
  | write buffer offset count _ => do
    StreamParser.write buffer offset count
    pure []
  | parse => StreamParser.parse native

/-- The bytes a call adds to the stream. -/
def chunk : ParserCall → List UInt8
  | write buffer offset count _ => slice buffer offset count
  | parse => []

end ParserCall

namespace StreamParser

variable {native : Endian} {sid : Int64} {parser : StreamParser} {c : Nat} {items : List UInt8}

/-! ## Any run -/

/-- A parser in working order. -/
def Ready (sid : Int64) (parser : StreamParser) : Prop :=
  ∃ c items, HoldsStream parser sid c items

theorem new_ready (sid : Int64) : Ready sid (new sid) := ⟨_, _, new_holds sid⟩

theorem write_keeps (sid : Int64) {buffer : List UInt8} {offset count : Nat}
    (inside : offset + count ≤ buffer.length) : Keeps (Ready sid) (write buffer offset count) := by
  intro parser hready
  obtain ⟨c, items, h⟩ := hready
  by_cases hfit : items.length + count ≤ 1024 * 64 * 8
  · obtain ⟨parser', c', hrun, h', _⟩ := write_ok h inside hfit
    exact .inl ⟨(), parser', hrun, c', _, h'⟩
  · obtain ⟨parser', c', hrun, h'⟩ := write_thrown h inside (by omega)
    exact .inr ⟨fullError, parser', hrun, c', _, h'⟩

theorem parse_keeps (native : Endian) (sid : Int64) : Keeps (Ready sid) (parse native) := by
  intro parser hready
  obtain ⟨c, items, h⟩ := hready
  by_cases hfull : items.length = c
  · exact .inr ⟨indexError, parser, parse_thrown h hfull, c, items, h⟩
  · obtain ⟨parser', hrun, h'⟩ := parse_ok native h (Nat.lt_of_le_of_ne h.holds.length_le hfull)
    exact .inl ⟨_, parser', hrun, c, _, h'⟩

theorem exec_keeps (native : Endian) (sid : Int64) (call : ParserCall) :
    Keeps (Ready sid) (call.exec native) := by
  cases call with
  | write buffer offset count inside =>
    exact Keeps.bind (write_keeps sid inside) fun _ => Keeps.pure []
  | parse => exact parse_keeps native sid

theorem run_ready (native : Endian) (sid : Int64) (calls : List ParserCall) :
    ∃ results parser,
      runAll (calls.map (ParserCall.exec native)) (new sid) = some (results, parser) ∧
        Ready sid parser := by
  have hkeeps : ∀ x ∈ calls.map (ParserCall.exec native), Keeps (Ready sid) x := by
    intro x hx
    obtain ⟨call, _, rfl⟩ := List.mem_map.mp hx
    exact exec_keeps native sid call
  exact Keeps.runAll hkeeps (new sid) (new_ready sid)

theorem receive_keeps (native : Endian) (sid : Int64) (buffer : List UInt8) :
    Keeps (Ready sid) (receive native buffer) :=
  Keeps.bind (write_keeps sid (Nat.le_of_eq (Nat.zero_add _))) fun _ => parse_keeps native sid

/-! ## Runs that return -/

/-- What was returned and what the ring still decodes to make up the stream. -/
def Accounts (native : Endian) (sid : Int64) (stream : List UInt8) (returned : List ClientMessage)
    (items : List UInt8) : Prop :=
  decodeStream native sid stream =
    (returned ++ (decodeStream native sid items).1, (decodeStream native sid items).2)

theorem Accounts.append {stream : List UInt8} {returned : List ClientMessage}
    (h : Accounts native sid stream returned items) (chunk : List UInt8) :
    Accounts native sid (stream ++ chunk) returned (items ++ chunk) := by
  unfold Accounts at *
  rw [decodeStream_append, h, decodeStream_append native sid items chunk, List.append_assoc]

theorem Accounts.take {stream : List UInt8} {returned : List ClientMessage}
    (h : Accounts native sid stream returned items) :
    Accounts native sid stream (returned ++ (decodeStream native sid items).1)
      (decodeStream native sid items).2 := by
  unfold Accounts at *
  rw [decodeStream_rest, h, List.append_nil]

theorem write_returned (h : HoldsStream parser sid c items) {buffer : List UInt8}
    {offset count : Nat} (inside : offset + count ≤ buffer.length) {parser' : StreamParser}
    (hrun : (write buffer offset count).run parser = .ok () parser') :
    ∃ c', HoldsStream parser' sid c' (items ++ slice buffer offset count) := by
  by_cases hfit : items.length + count ≤ 1024 * 64 * 8
  · obtain ⟨parser₁, c', hwrite, h', _⟩ := write_ok h inside hfit
    rw [hwrite] at hrun
    cases hrun
    exact ⟨c', h'⟩
  · obtain ⟨parser₁, c', hwrite, _⟩ := write_thrown h inside (by omega)
    rw [hwrite] at hrun
    cases hrun

theorem parse_returned (h : HoldsStream parser sid c items) {messages : List ClientMessage}
    {parser' : StreamParser} (hrun : (parse native).run parser = .ok messages parser') :
    messages = (decodeStream native sid items).1 ∧
      HoldsStream parser' sid c (decodeStream native sid items).2 := by
  by_cases hfull : items.length = c
  · rw [parse_thrown h hfull] at hrun
    cases hrun
  · obtain ⟨parser₁, hparse, h'⟩ := parse_ok native h (Nat.lt_of_le_of_ne h.holds.length_le hfull)
    rw [hparse] at hrun
    cases hrun
    exact ⟨rfl, h'⟩

theorem Ready.receive_sid (h : Ready sid parser) {buffer : List UInt8}
    {messages : List ClientMessage} {parser' : StreamParser}
    (hrun : (receive native buffer).run parser = .ok messages parser') :
    ∀ message ∈ messages, message.sid = sid := by
  obtain ⟨c, items, h⟩ := h
  rw [receive, run_bind] at hrun
  cases hwrite : (write buffer 0 buffer.length).run parser with
  | ok _ parser₁ =>
    rw [hwrite, Exit.andThen_ok] at hrun
    obtain ⟨c', h'⟩ := write_returned h (Nat.le_of_eq (Nat.zero_add _)) hwrite
    obtain ⟨rfl, _⟩ := parse_returned h' hrun
    intro message hmem
    exact decodeStream_sid hmem
  | thrown e parser₁ => rw [hwrite] at hrun; cases hrun
  | fault w => rw [hwrite] at hrun; cases hrun

/-- The step lemma: what a call that returns has done. -/
theorem exec_returned (h : HoldsStream parser sid c items) {call : ParserCall}
    {messages : List ClientMessage} {parser' : StreamParser}
    (hrun : (call.exec native).run parser = .ok messages parser') {stream : List UInt8}
    {returned : List ClientMessage} (haccounts : Accounts native sid stream returned items) :
    ∃ c' items', HoldsStream parser' sid c' items' ∧
      Accounts native sid (stream ++ call.chunk) (returned ++ messages) items' := by
  cases call with
  | write buffer offset count inside =>
    rw [ParserCall.exec, run_bind] at hrun
    cases hwrite : (write buffer offset count).run parser with
    | ok _ parser₁ =>
      rw [hwrite, Exit.andThen_ok, run_pure] at hrun
      cases hrun
      obtain ⟨c', h'⟩ := write_returned h inside hwrite
      exact ⟨c', _, h', by rw [List.append_nil]; exact haccounts.append _⟩
    | thrown e parser₁ => rw [hwrite] at hrun; cases hrun
    | fault w => rw [hwrite] at hrun; cases hrun
  | parse =>
    obtain ⟨rfl, h'⟩ := parse_returned h hrun
    exact ⟨c, _, h', by rw [ParserCall.chunk, List.append_nil]; exact haccounts.take⟩

theorem run_returned (calls : List ParserCall) :
    ∀ (parser : StreamParser) (c : Nat) (items stream : List UInt8)
      (returned : List ClientMessage) (lists : List (List ClientMessage)) (parser' : StreamParser),
      HoldsStream parser sid c items → Accounts native sid stream returned items →
      runAll (calls.map (ParserCall.exec native)) parser = some (lists.map .ok, parser') →
      ∃ c' items', HoldsStream parser' sid c' items' ∧
        Accounts native sid (stream ++ calls.flatMap ParserCall.chunk)
          (returned ++ lists.flatten) items' := by
  induction calls with
  | nil =>
    intro parser c items stream returned lists parser' h haccounts hrun
    rw [List.map_nil, runAll] at hrun
    cases lists with
    | nil =>
      cases hrun
      exact ⟨c, items, h, by simpa using haccounts⟩
    | cons list rest => cases hrun
  | cons call calls ih =>
    intro parser c items stream returned lists parser' h haccounts hrun
    obtain ⟨messages, parser₁, rest, hcall, rfl, hrest⟩ := runAll_returned hrun
    obtain ⟨c₁, items₁, h₁, haccounts₁⟩ := exec_returned h hcall haccounts
    have hih := ih parser₁ c₁ items₁ _ _ rest parser' h₁ haccounts₁ hrest
    rwa [List.append_assoc, List.append_assoc, ← List.flatMap_cons, ← List.flatten_cons] at hih

theorem run_ending_in_parse (calls : List ParserCall) (lists : List (List ClientMessage))
    (parser : StreamParser)
    (hrun : runAll ((calls ++ [ParserCall.parse]).map (ParserCall.exec native)) (new sid) =
      some (lists.map .ok, parser)) :
    (lists.flatten, parser.buffer.contents) =
      decodeStream native sid (calls.flatMap ParserCall.chunk) := by
  have hstart : Accounts native sid [] [] [] := by
    unfold Accounts
    rw [List.nil_append]
  rw [List.map_append] at hrun
  obtain ⟨front, parser₁, rest, rfl, hfront, hlast⟩ := runAll_append_returned hrun
  obtain ⟨c, items, h, haccounts⟩ :=
    run_returned calls (new sid) _ [] [] [] front parser₁ (new_holds sid) hstart hfront
  obtain ⟨messages, parser₂, rest, hparse, rfl, hdone⟩ := runAll_returned hlast
  obtain ⟨rfl, h'⟩ := parse_returned h hparse
  cases rest with
  | cons list rest => cases hdone
  | nil =>
    cases hdone
    rw [List.nil_append, List.nil_append] at haccounts
    rw [haccounts, h'.holds.contents_eq, List.flatten_append, List.flatten_singleton]

/-- A run in which every call returns, ending in a parse, returns the messages
of the whole stream and leaves in the ring what the decoder leaves.  So two such
runs over one stream return the same messages, however the stream was cut. -/
theorem parse_reassembles (native : Endian) (sid : Int64) (calls : List ParserCall)
    (lists : List (List ClientMessage)) (parser : StreamParser)
    (hrun : runAll ((calls ++ [ParserCall.parse]).map (ParserCall.exec native)) (new sid) =
      some (lists.map .ok, parser)) :
    (lists.flatten, parser.buffer.contents) =
        decodeStream native sid (calls.flatMap ParserCall.chunk) ∧
      (∀ message ∈ lists.flatten, message.sid = sid) ∧
      ∀ (calls' : List ParserCall) (lists' : List (List ClientMessage)) (parser' : StreamParser),
        runAll ((calls' ++ [ParserCall.parse]).map (ParserCall.exec native)) (new sid) =
          some (lists'.map .ok, parser') →
        calls'.flatMap ParserCall.chunk = calls.flatMap ParserCall.chunk →
        lists'.flatten = lists.flatten ∧ parser'.buffer.contents = parser.buffer.contents := by
  have hwhole := run_ending_in_parse calls lists parser hrun
  refine ⟨hwhole, ?_, ?_⟩
  · intro message hmem
    rw [(Prod.mk.inj hwhole).1] at hmem
    exact decodeStream_sid hmem
  · intro calls' lists' parser' hrun' hsame
    have hwhole' := run_ending_in_parse calls' lists' parser' hrun'
    rw [hsame, ← hwhole] at hwhole'
    exact Prod.mk.inj hwhole'

/-- A frame with a body of one byte, cut inside its header. -/
def cutFrame : List ParserCall :=
  [.write [0, 1, 0, 7, 0] 0 5 (by decide), .parse, .write [0, 0, 2, 0, 3, 4, 9] 0 7 (by decide)]

theorem parse_reassembles_cutFrame :
    ∃ (lists : List (List ClientMessage)) (parser : StreamParser),
      runAll ((cutFrame ++ [ParserCall.parse]).map (ParserCall.exec .big)) (new 5) =
        some (lists.map .ok, parser) ∧
      (lists.flatten, parser.buffer.contents) =
        decodeStream .big 5 (cutFrame.flatMap ParserCall.chunk) ∧
      (∀ message ∈ lists.flatten, message.sid = 5) ∧
      ∀ (calls' : List ParserCall) (lists' : List (List ClientMessage)) (parser' : StreamParser),
        runAll ((calls' ++ [ParserCall.parse]).map (ParserCall.exec .big)) (new 5) =
          some (lists'.map .ok, parser') →
        calls'.flatMap ParserCall.chunk = cutFrame.flatMap ParserCall.chunk →
        lists'.flatten = lists.flatten ∧ parser'.buffer.contents = parser.buffer.contents := by
  obtain ⟨parser₁, c₁, hwrite₁, h₁, _⟩ := write_ok (new_holds 5)
    (show 0 + 5 ≤ [0, 1, 0, 7, 0].length by decide) (by decide)
  obtain ⟨parser₂, hparse₂, h₂⟩ := parse_ok .big h₁ (Nat.lt_of_lt_of_le (by decide) h₁.le_capacity)
  have hrest : (decodeStream .big 5 ([] ++ slice [0, 1, 0, 7, 0] 0 5)) = ([], [0, 1, 0, 7, 0]) := by
    have hnone : Framing.next (framing .big) [0, 1, 0, 7, 0] = none :=
      (Framing.next_eq_none_iff _).mpr (by decide)
    have hchunk : [] ++ slice [0, 1, 0, 7, 0] 0 5 = ([0, 1, 0, 7, 0] : List UInt8) := rfl
    rw [hchunk, decodeStream, Framing.decode_of_none hnone, List.map_nil]
  rw [hrest] at h₂ hparse₂
  obtain ⟨parser₃, c₃, hwrite₃, h₃, _⟩ := write_ok h₂
    (show 0 + 7 ≤ [0, 0, 2, 0, 3, 4, 9].length by decide) (by decide)
  obtain ⟨parser₄, hparse₄, _⟩ := parse_ok .big h₃ (Nat.lt_of_lt_of_le (by decide) h₃.le_capacity)
  generalize (decodeStream .big 5 _).1 = messages at hparse₄
  have hrun : runAll ((cutFrame ++ [ParserCall.parse]).map (ParserCall.exec .big)) (new 5) =
      some ([[], [], [], messages].map .ok, parser₄) := by
    simp only [cutFrame, List.cons_append, List.nil_append, List.map_cons, List.map_nil, runAll,
      ParserCall.exec, run_bind, run_pure, Exit.andThen_ok, hwrite₁, hparse₂, hwrite₃, hparse₄,
      Option.map_some]
  exact ⟨_, parser₄, hrun, parse_reassembles .big 5 cutFrame _ parser₄ hrun⟩

end StreamParser

end PlaySocket
