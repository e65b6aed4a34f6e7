import Mathlib.Data.List.Induction
import PlaySocket.StreamParser.HostFormat
import PlaySocket.StreamSocket.Reachable

/-!
# What a connection takes in

A session writes each chunk into its parser and parses.  One of three things
comes of it.  The parse returns the messages that are whole by now.  Or the chunk
fills the ring to its last byte, and the parse throws and leaves everything where
a later parse finds it.  Or the chunk does not fit, and from then on the ring is
full and nothing is taken in any more.

The session asks for a disconnect on every exception, but chunks may arrive until
the framework has seen to it.  So what is said here is said of all of them.
-/

namespace PlaySocket
namespace StreamParser

open Exec RingBuffer Doubling

variable {native : Endian} {sid : Int64} {parser parser' : StreamParser} {c : Nat}
  {items stream : List UInt8} {returned : List ClientMessage}

/-! ## One chunk -/

/-- How a chunk is received on a parser whose ring holds `items`. -/
inductive Taken (native : Endian) (sid : Int64) (items buffer : List UInt8) :
    Exit StdException StreamParser (List ClientMessage) → Prop where
  | whole (parser' : StreamParser) (c' : Nat) (hroom : (items ++ buffer).length < c')
      (h' : HoldsStream parser' sid c' (decodeStream native sid (items ++ buffer)).2) :
      Taken native sid items buffer (.ok (decodeStream native sid (items ++ buffer)).1 parser')
  | filled (parser' : StreamParser) (c' : Nat) (h' : HoldsStream parser' sid c' (items ++ buffer))
      (hfull : (items ++ buffer).length = c') :
      Taken native sid items buffer (.thrown indexError parser')
  | overflowed (parser' : StreamParser) (c' : Nat) (hover : 524288 < items.length + buffer.length)
      (h' : HoldsStream parser' sid c' (items ++ buffer.take (524288 - items.length))) :
      Taken native sid items buffer (.thrown fullError parser')

theorem receive_taken (native : Endian) (h : HoldsStream parser sid c items) (buffer : List UInt8) :
    Taken native sid items buffer ((receive native buffer).run parser) := by
  have hinside : 0 + buffer.length ≤ buffer.length := Nat.le_of_eq (Nat.zero_add _)
  rw [receive, run_bind]
  by_cases hfit : items.length + buffer.length ≤ 1024 * 64 * 8
  · obtain ⟨parser₁, c₁, hwrite, h₁, _⟩ := write_ok h hinside hfit
    rw [slice_all] at h₁
    rw [hwrite, Exit.andThen_ok]
    by_cases hfull : (items ++ buffer).length = c₁
    · rw [parse_thrown h₁ hfull]
      exact .filled parser₁ c₁ h₁ hfull
    · have hroom := Nat.lt_of_le_of_ne h₁.holds.length_le hfull
      obtain ⟨parser₂, hparse, h₂⟩ := parse_ok native h₁ hroom
      rw [hparse]
      exact .whole parser₂ c₁ hroom h₂
  · obtain ⟨parser₁, c₁, hwrite, h₁⟩ := write_thrown h hinside (Nat.lt_of_not_le hfit)
    rw [slice_all] at h₁
    rw [hwrite, Exit.andThen_thrown]
    exact .overflowed parser₁ c₁ (Nat.lt_of_not_le hfit) h₁

/-! ## All chunks -/

/-- Of `stream` the messages `returned` have been made, and the ring holds the
rest of it. -/
def Flowing (native : Endian) (sid : Int64) (stream : List UInt8)
    (returned : List ClientMessage) (parser : StreamParser) : Prop :=
  ∃ c items, HoldsStream parser sid c items ∧ Accounts native sid stream returned items

/-- The ring is full, and it was when only a part of `stream` had come. -/
def Stuck (native : Endian) (sid : Int64) (stream : List UInt8)
    (returned : List ClientMessage) (parser : StreamParser) : Prop :=
  ∃ c items front, HoldsStream parser sid c items ∧ items.length = 524288 ∧ front <+: stream ∧
    front.length < stream.length ∧ Accounts native sid front returned items

theorem new_flowing (native : Endian) (sid : Int64) : Flowing native sid [] [] (new sid) := by
  refine ⟨_, [], new_holds sid, ?_⟩
  unfold Accounts
  rw [List.nil_append]

/-- A full ring stays as it is, whatever comes. -/
theorem receive_full (native : Endian) (h : HoldsStream parser sid c items)
    (hfull : items.length = 524288) (buffer : List UInt8) :
    ∃ e parser' c', (receive native buffer).run parser = .thrown e parser' ∧
      (e = indexError ∨ e = fullError) ∧ HoldsStream parser' sid c' items := by
  have htaken := receive_taken native h buffer
  generalize (receive native buffer).run parser = exit at htaken
  cases htaken with
  | whole parser' c' hroom h' =>
    have hmax := h'.holds.le_max
    rw [List.length_append] at hroom
    omega
  | filled parser' c' h' hlength =>
    have hmax := h'.holds.le_max
    rw [List.length_append] at hlength
    have hnil : buffer = [] := List.eq_nil_of_length_eq_zero (by omega)
    rw [hnil, List.append_nil] at h'
    exact ⟨indexError, parser', c', rfl, .inl rfl, h'⟩
  | overflowed parser' c' hover h' =>
    rw [hfull, Nat.sub_self, List.take_zero, List.append_nil] at h'
    exact ⟨fullError, parser', c', rfl, .inr rfl, h'⟩

/-- The messages a call returned, if it did. -/
def made : Except StdException (List ClientMessage) → List ClientMessage
  | .ok messages => messages
  | .error _ => []

theorem returnedMessages_concat (results : List (Except StdException (List ClientMessage)))
    (result : Except StdException (List ClientMessage)) :
    returnedMessages (results ++ [result]) = returnedMessages results ++ made result := by
  rw [returnedMessages, List.flatMap_append, List.flatMap_singleton]
  cases result <;> rfl

/-- The step lemma: the first chunk that does not fit makes a flow stick. -/
theorem Flowing.step (h : Flowing native sid stream returned parser) (buffer : List UInt8) :
    ∃ result parser', outcome ((receive native buffer).run parser) =
        some (result, parser') ∧
      ((result ≠ .error fullError ∧
          Flowing native sid (stream ++ buffer) (returned ++ made result) parser') ∨
        (result = .error fullError ∧
          Stuck native sid (stream ++ buffer) (returned ++ made result) parser')) := by
  obtain ⟨c, items, hholds, haccounts⟩ := h
  have htaken := receive_taken native hholds buffer
  generalize (receive native buffer).run parser = exit at htaken
  cases htaken with
  | whole parser' c' hroom h' =>
    refine ⟨_, parser', rfl, .inl ⟨nofun, c', _, h', ?_⟩⟩
    exact (haccounts.append buffer).take
  | filled parser' c' h' hfull =>
    refine ⟨_, parser', rfl, .inl ⟨by decide, c', _, h', ?_⟩⟩
    rw [made, List.append_nil]
    exact haccounts.append buffer
  | overflowed parser' c' hover h' =>
    have hlimit := hholds.holds.length_le_limit
    rw [hholds.limit_eq] at hlimit
    refine ⟨_, parser', rfl, .inr ⟨rfl, c', _, stream ++ buffer.take (524288 - items.length), h',
      ?_, ?_, ?_, ?_⟩⟩
    · rw [List.length_append, List.length_take]
      omega
    · exact List.prefix_append_right_inj stream |>.mpr (List.take_prefix _ _)
    · rw [List.length_append, List.length_append, List.length_take]
      omega
    · rw [made, List.append_nil]
      exact haccounts.append _

theorem Stuck.step (h : Stuck native sid stream returned parser) (buffer : List UInt8) :
    ∃ e parser', (receive native buffer).run parser = .thrown e parser' ∧
      (e = indexError ∨ e = fullError) ∧
      Stuck native sid (stream ++ buffer) returned parser' := by
  obtain ⟨c, items, front, hholds, hfull, hprefix, hlost, haccounts⟩ := h
  obtain ⟨e, parser', c', hrun, he, h'⟩ := receive_full native hholds hfull buffer
  refine ⟨e, parser', hrun, he, c', items, front, h', hfull,
    hprefix.trans (List.prefix_append _ _), ?_, haccounts⟩
  rw [List.length_append]
  omega

/-- The run lemma. -/
theorem run_flows (native : Endian) (sid : Int64) (chunks : List (List UInt8)) :
    ∃ results parser, runAll (chunks.map (receive native)) (new sid) = some (results, parser) ∧
      ((.error fullError ∉ results ∧
          Flowing native sid chunks.flatten (returnedMessages results) parser) ∨
        (.error fullError ∈ results ∧
          Stuck native sid chunks.flatten (returnedMessages results) parser)) := by
  induction chunks using List.reverseRecOn with
  | nil => exact ⟨[], new sid, rfl, .inl ⟨List.not_mem_nil, new_flowing native sid⟩⟩
  | append_singleton chunks chunk ih =>
    obtain ⟨results, parser, hrun, hflow⟩ := ih
    have hconcat : ∀ {result parser'}, outcome ((receive native chunk).run parser) =
        some (result, parser') → runAll ((chunks ++ [chunk]).map (receive native)) (new sid) =
          some (results ++ [result], parser') := by
      intro result parser' hchunk
      rw [List.map_append, List.map_singleton]
      refine runAll_append_some hrun ?_
      rw [runAll_cons, hchunk]
      rfl
    rw [List.flatten_append, List.flatten_singleton]
    rcases hflow with ⟨hnone, hflowing⟩ | ⟨hsome, hstuck⟩
    · obtain ⟨result, parser', hchunk, hcases⟩ := hflowing.step chunk
      refine ⟨_, parser', hconcat hchunk, ?_⟩
      rw [returnedMessages_concat]
      rcases hcases with ⟨hne, hflowing'⟩ | ⟨heq, hstuck⟩
      · refine .inl ⟨fun hmem => ?_, hflowing'⟩
        rcases List.mem_append.mp hmem with hold | hnew
        · exact hnone hold
        · exact hne (List.mem_singleton.mp hnew).symm
      · exact .inr ⟨heq ▸ List.mem_append_right _ (List.mem_singleton_self _), hstuck⟩
    · obtain ⟨e, parser', hchunk, _, hstuck'⟩ := hstuck.step chunk
      refine ⟨_, parser', hconcat (by rw [hchunk]; rfl), .inr ⟨List.mem_append_left _ hsome, ?_⟩⟩
      rw [returnedMessages_concat, made, List.append_nil]
      exact hstuck'

/-! ## What is kept and what is lost -/

/-- The bytes a message has taken off the wire. -/
def wireLength (message : ClientMessage) : Nat := (reencode message).length

theorem length_decodeStream (native : Endian) (sid : Int64) (xs : List UInt8) :
    ((decodeStream native sid xs).1.map wireLength).sum +
      (decodeStream native sid xs).2.length = xs.length := by
  have hitems := congrArg List.length (Framing.decode_items (F := framing native) xs)
  rw [List.length_append, List.length_flatMap] at hitems
  rw [decodeStream, List.map_map, ← hitems]
  congr 2
  exact List.map_congr_left fun f _ => (length_reencode f).symm

/-- The bytes returned and the bytes held are the bytes received. -/
theorem Accounts.length_eq (h : Accounts native sid stream returned items) :
    (returned.map wireLength).sum + items.length = stream.length := by
  have hstream := length_decodeStream native sid stream
  have hitems := length_decodeStream native sid items
  unfold Accounts at h
  rw [h] at hstream
  simp only [List.map_append, List.sum_append] at hstream
  omega

theorem Accounts.returned_of_stream (h : Accounts native sid stream returned items) :
    returned <+: (decodeStream native sid stream).1 := by
  unfold Accounts at h
  rw [h]
  exact List.prefix_append _ _

theorem decodeStream_mono (native : Endian) (sid : Int64) {xs ys : List UInt8} (h : xs <+: ys) :
    (decodeStream native sid xs).1 <+: (decodeStream native sid ys).1 :=
  List.IsPrefix.map (toMessage sid) (Framing.decode_mono h)

/-- A ring that is stuck refuses every later chunk and keeps what it holds. -/
theorem Stuck.refuses (chunks : List (List UInt8)) :
    ∀ {stream : List UInt8} {parser : StreamParser}, Stuck native sid stream returned parser →
      ∃ (errors : List StdException) (parser' : StreamParser),
        runAll (chunks.map (receive native)) parser = some (errors.map .error, parser') ∧
        Stuck native sid (stream ++ chunks.flatten) returned parser' := by
  induction chunks with
  | nil =>
    intro stream parser h
    refine ⟨[], parser, rfl, ?_⟩
    rwa [List.flatten_nil, List.append_nil]
  | cons chunk chunks ih =>
    intro stream parser h
    obtain ⟨e, parser₁, hrun, _, h₁⟩ := h.step chunk
    obtain ⟨errors, parser', hrest, h'⟩ := ih h₁
    refine ⟨e :: errors, parser', ?_, ?_⟩
    · simp only [List.map_cons, runAll, hrun, hrest, Option.map_some]
    · rwa [List.append_assoc, ← List.flatten_cons] at h'

theorem parsed_of_stream (native : Endian) (sid : Int64) (chunks : List (List UInt8)) :
    parsed native sid chunks <+: (decodeStream native sid chunks.flatten).1 := by
  obtain ⟨results, parser, hrun, hflow⟩ := run_flows native sid chunks
  rw [Connection.parsed_eq hrun]
  rcases hflow with ⟨_, c, items, _, haccounts⟩ | ⟨_, c, items, front, _, _, hprefix, _, haccounts⟩
  · exact haccounts.returned_of_stream
  · exact haccounts.returned_of_stream.trans (decodeStream_mono native sid hprefix)

/-- What a connection's parser does with its chunks, whatever they are.  Until a
chunk fails to fit, the messages returned and the bytes held are those of the
whole stream, though parses may have thrown.  From then on nothing is returned
any more. -/
theorem receive_law (native : Endian) (sid : Int64) (chunks : List (List UInt8)) :
    ∃ results parser, runAll (chunks.map (receive native)) (new sid) = some (results, parser) ∧
      returnedMessages results <+: (decodeStream native sid chunks.flatten).1 ∧
      (.error fullError ∉ results →
        decodeStream native sid chunks.flatten =
            (returnedMessages results ++ (decodeStream native sid parser.buffer.contents).1,
              (decodeStream native sid parser.buffer.contents).2) ∧
          ((returnedMessages results).map wireLength).sum + parser.buffer.size =
            chunks.flatten.length) ∧
      (.error fullError ∈ results →
        parser.buffer.size = 524288 ∧
          ∀ more : List (List UInt8), ∃ (errors : List StdException) (parser' : StreamParser),
            runAll (more.map (receive native)) parser = some (errors.map .error, parser')) := by
  have hprefix := parsed_of_stream native sid chunks
  obtain ⟨results, parser, hrun, hflow⟩ := run_flows native sid chunks
  rw [Connection.parsed_eq hrun] at hprefix
  refine ⟨results, parser, hrun, hprefix, ?_⟩
  rcases hflow with ⟨hnone, c, items, h, haccounts⟩ | ⟨hsome, hstuck⟩
  · refine ⟨fun _ => ?_, fun hmem => absurd hmem hnone⟩
    rw [h.holds.contents_eq, h.holds.size_eq]
    exact ⟨haccounts, haccounts.length_eq⟩
  · refine ⟨fun hnone => absurd hsome hnone, fun _ => ⟨?_, fun more => ?_⟩⟩
    · obtain ⟨c, items, front, h, hfull, _⟩ := hstuck
      rw [h.holds.size_eq, hfull]
    · obtain ⟨errors, parser', hmore, _⟩ := Stuck.refuses more hstuck
      exact ⟨errors, parser', hmore⟩

/-! ## Small frames -/

/-- On a ring that has not grown, a chunk that leaves a cell free is parsed. -/
theorem receive_small (native : Endian) (h : HoldsStream parser sid 8192 items)
    {buffer : List UInt8} (hroom : items.length + buffer.length < 8192) :
    ∃ parser', (receive native buffer).run parser =
        .ok (decodeStream native sid (items ++ buffer)).1 parser' ∧
      HoldsStream parser' sid 8192 (decodeStream native sid (items ++ buffer)).2 := by
  obtain ⟨parser₁, c, hwrite, h₁, hgrows⟩ :=
    write_ok h (show 0 + buffer.length ≤ buffer.length by omega) (by omega)
  obtain rfl := hgrows.eq_self (Nat.le_of_lt hroom)
  rw [slice_all] at h₁
  obtain ⟨parser₂, hparse, h₂⟩ :=
    parse_ok native h₁ (by rw [List.length_append]; exact hroom)
  refine ⟨parser₂, ?_, h₂⟩
  rw [receive, run_bind, hwrite, Exit.andThen_ok, hparse]

/-- Small messages in the format the host reads, received a little at a time.  A part
of a message and one more chunk never fill the first ring. -/
structure Gentle (native : Endian) (messages : List WireMessage) (chunks : List (List UInt8))
    (frame chunk : Nat) : Prop where
  frame_le : ∀ message ∈ messages, (message.hostBytes native).length ≤ frame
  chunk_le : ∀ buffer ∈ chunks, buffer.length ≤ chunk
  stream : chunks.flatten <+: messages.flatMap (WireMessage.hostBytes native)
  room : frame + chunk ≤ 8192

theorem Gentle.front {messages : List WireMessage} {chunks : List (List UInt8)} {last : List UInt8}
    {frame chunk : Nat} (h : Gentle native messages (chunks ++ [last]) frame chunk) :
    Gentle native messages chunks frame chunk where
  frame_le := h.frame_le
  chunk_le buffer hbuffer := h.chunk_le buffer (List.mem_append_left _ hbuffer)
  stream := by
    refine List.IsPrefix.trans ?_ h.stream
    rw [List.flatten_append]
    exact List.prefix_append _ _
  room := h.room

/-- What is left of a message and a chunk behind it leave a cell free. -/
theorem Gentle.room_left (sid : Int64) {messages : List WireMessage} {chunks : List (List UInt8)}
    {last : List UInt8} {frame chunk : Nat}
    (h : Gentle native messages (chunks ++ [last]) frame chunk) :
    (decodeStream native sid chunks.flatten).2.length + last.length < 8192 := by
  have hlast := h.chunk_le last (List.mem_append_right _ (List.mem_singleton_self _))
  have hroom := h.room
  obtain ⟨front, back, hmessages, _, _, hcut⟩ := decodeStream_cut sid h.front.stream
  rcases hcut with hnil | ⟨message, hmem, hlt⟩
  · rw [hnil, List.length_nil]
    rcases messages with _ | ⟨message, messages⟩
    · have hstream := h.stream
      rw [List.flatMap_nil, List.prefix_nil, List.flatten_append, List.flatten_singleton] at hstream
      rw [(List.append_eq_nil_iff.mp hstream).2, List.length_nil]
      decide
    · have hframe := h.frame_le message List.mem_cons_self
      have hheader : 11 ≤ (message.hostBytes native).length := by
        rw [← message.items_frame native, Framing.length_items]
        exact Nat.le_add_right _ _
      omega
  · have hframe := h.frame_le message (by
      rw [hmessages]
      exact List.mem_append_right _ (List.mem_of_mem_head? hmem))
    omega

theorem run_gentle {messages : List WireMessage} {chunks : List (List UInt8)} {frame chunk : Nat}
    (sid : Int64) (h : Gentle native messages chunks frame chunk) :
    ∃ (lists : List (List ClientMessage)) (parser : StreamParser),
      runAll (chunks.map (receive native)) (new sid) = some (lists.map .ok, parser) ∧
      lists.flatten = (decodeStream native sid chunks.flatten).1 ∧
      HoldsStream parser sid 8192 (decodeStream native sid chunks.flatten).2 := by
  induction chunks using List.reverseRecOn with
  | nil =>
    have hnone : Framing.next (framing native) [] = none :=
      (Framing.next_eq_none_iff []).mpr (Nat.lt_of_lt_of_le (framing native).headerLength_pos
        (Nat.le_add_right _ _))
    refine ⟨[], new sid, rfl, ?_⟩
    rw [List.flatten_nil, List.flatten_nil, decodeStream, Framing.decode_of_none hnone]
    exact ⟨rfl, new_holds sid⟩
  | append_singleton chunks last ih =>
    obtain ⟨lists, parser, hrun, hlists, hholds⟩ := ih h.front
    obtain ⟨parser', hlast, h'⟩ := receive_small native hholds (h.room_left sid)
    refine ⟨lists ++ [(decodeStream native sid
      ((decodeStream native sid chunks.flatten).2 ++ last)).1], parser', ?_, ?_, ?_⟩
    · rw [List.map_append, List.map_singleton, List.map_append, List.map_singleton]
      exact runAll_concat_ok hrun hlast
    · rw [List.flatten_append, List.flatten_singleton, hlists, List.flatten_append,
        List.flatten_singleton, decodeStream_append native sid chunks.flatten]
    · rw [List.flatten_append, List.flatten_singleton,
        decodeStream_append native sid chunks.flatten]
      exact h'

/-- A client that sends messages of at most `frame` bytes, and is read at most
`chunk` bytes at a time, gets every message through as soon as its last byte is
there, and its ring never grows. -/
theorem small_frames_arrive {messages : List WireMessage} {chunks : List (List UInt8)}
    {frame chunk : Nat} (sid : Int64) (h : Gentle native messages chunks frame chunk) :
    ∃ (lists : List (List ClientMessage)) (parser : StreamParser) (front back : List WireMessage),
      runAll (chunks.map (receive native)) (new sid) = some (lists.map .ok, parser) ∧
      messages = front ++ back ∧ lists.flatten = front.map (WireMessage.received sid) ∧
      front.flatMap (WireMessage.hostBytes native) ++ parser.buffer.contents = chunks.flatten ∧
      (parser.buffer.size = 0 ∨
        ∃ message ∈ back.head?, parser.buffer.size < (message.hostBytes native).length) ∧
      parser.buffer.capacity = 8192 := by
  obtain ⟨lists, parser, hrun, hlists, hholds⟩ := run_gentle sid h
  obtain ⟨front, back, hmessages, hfront, hbytes, hcut⟩ :=
    decodeStream_cut sid h.stream
  refine ⟨lists, parser, front, back, hrun, hmessages, hlists.trans hfront, ?_, ?_,
    hholds.holds.capacity_eq⟩
  · rw [hholds.holds.contents_eq, hbytes]
  · rw [hholds.holds.size_eq]
    rcases hcut with hnil | hpart
    · exact .inl (by rw [hnil, List.length_nil])
    · exact .inr hpart

/-- The message `elevenBytes`, laid out for a little-endian host and read in two
pieces. -/
def twoPieces : List (List UInt8) :=
  [(elevenBytes.hostBytes .little).take 15, (elevenBytes.hostBytes .little).drop 15]

theorem gentle_twoPieces : Gentle .little [elevenBytes] twoPieces 22 15 where
  frame_le := by decide
  chunk_le := by decide
  stream := by decide
  room := by decide

theorem small_frames_arrive_twoPieces :
    ∃ (lists : List (List ClientMessage)) (parser : StreamParser) (front back : List WireMessage),
      runAll (twoPieces.map (receive .little)) (new 7) = some (lists.map .ok, parser) ∧
      [elevenBytes] = front ++ back ∧ lists.flatten = front.map (WireMessage.received 7) ∧
      front.flatMap (WireMessage.hostBytes .little) ++ parser.buffer.contents =
        twoPieces.flatten ∧
      (parser.buffer.size = 0 ∨
        ∃ message ∈ back.head?, parser.buffer.size < (message.hostBytes .little).length) ∧
      parser.buffer.capacity = 8192 :=
  small_frames_arrive 7 gentle_twoPieces

end StreamParser

/-! ## From one end to the other -/

namespace World

open Connection StreamParser

variable {native : Endian} {w : World} {k : ConnectionId}

theorem run_announcing {t : Transport} {events : List Event}
    (hrun : (exclusiveMachine t native).run events = some w) : Announcing native w :=
  Machine.invariant (init_announcing native) (fun _ _ _ h hstep => step_announcing h hstep) hrun

/-- What the consumer has of a connection is a prefix of its stream. -/
theorem Announcing.dequeued_of_stream (h : Announcing native w) (hk : k ∈ w.opened) :
    sentBy k (w.dequeued (w.connections k).server) <+: (w.connections k).stream native := by
  rw [h.published k hk, World.published, sentBy_append, List.append_assoc]
  exact List.prefix_append _ _

/-- The consumer has of every connection its CONNECT, then messages its peer sent in
the format of the host, in order and without a gap, then its DISCONNECT.  However the
stream is cut into chunks, whatever the others do and whatever throws, it never sees
another one. -/
theorem messages_arrive (t : Transport) (native : Endian) (events : List Event) (w : World)
    (hrun : (exclusiveMachine t native).run events = some w) (k : ConnectionId)
    (hk : k ∈ w.opened) (messages : List WireMessage)
    (hstream : (w.connections k).chunks.flatten <+:
      messages.flatMap (WireMessage.hostBytes native)) :
    ∃ n, sentBy k (w.dequeued (w.connections k).server) <+:
      ClientMessage.ofType (w.connections k).handle .connect ::
        (messages.take n).map (WireMessage.received (w.connections k).handle) ++
        if (w.connections k).phase = .disconnected then
          [ClientMessage.ofType (w.connections k).handle .disconnect] else [] := by
  have hprefix := (run_announcing hrun).dequeued_of_stream hk
  have hparsed := parsed_of_stream native (w.connections k).handle (w.connections k).chunks
  have hdecode := decodeStream_mono native (w.connections k).handle hstream
  rw [decodeStream_hostBytes native (w.connections k).handle messages] at hdecode
  have htake := List.prefix_iff_eq_take.mp (hparsed.trans hdecode)
  rw [← List.map_take] at htake
  refine ⟨(parsed native (w.connections k).handle (w.connections k).chunks).length, ?_⟩
  rw [← htake]
  exact hprefix

/-- A client has been greeted and has sent one message. -/
def firstRequest : List Event := beforeRequest ++ [.received 0 palindrome.bytes, .effect 0, .recv 0,
  .recv 0]

theorem firstRequest_run :
    ∃ w, (exclusiveMachine .ws .little).run firstRequest = some w ∧ 0 ∈ w.opened ∧
      (w.connections 0).server = 0 ∧ (w.connections 0).handle = 5 ∧
      (w.connections 0).chunks = [palindrome.bytes] ∧ (w.dequeued 0).length = 2 := by
  obtain ⟨parser, hrun⟩ := request_run .ws
  rw [firstRequest, hrun]
  exact ⟨_, rfl, List.mem_singleton_self _, rfl, rfl, rfl, rfl⟩

theorem messages_arrive_firstRequest :
    ∃ w, (exclusiveMachine .ws .little).run firstRequest = some w ∧
      (w.dequeued 0).length = 2 ∧
      ∃ n, sentBy 0 (w.dequeued 0) <+:
        ClientMessage.ofType 5 .connect :: ([palindrome].take n).map (WireMessage.received 5) ++
          if (w.connections 0).phase = .disconnected then
            [ClientMessage.ofType 5 .disconnect] else [] := by
  obtain ⟨w, hrun, hk, hserver, hhandle, hchunks, hlength⟩ := firstRequest_run
  have hstream : (w.connections 0).chunks.flatten <+:
      [palindrome].flatMap (WireMessage.hostBytes .little) := by
    rw [hchunks]
    exact List.prefix_rfl
  have harrive := messages_arrive .ws .little firstRequest w hrun 0 hk [palindrome] hstream
  rw [hserver, hhandle] at harrive
  exact ⟨w, hrun, hlength, harrive⟩

/-- Of a client that sends small messages and is read a little at a time, all that
has arrived whole is published or about to be. -/
theorem gentle_client_served (t : Transport) (native : Endian) (events : List Event) (w : World)
    (hrun : (exclusiveMachine t native).run events = some w) (k : ConnectionId)
    (hk : k ∈ w.opened) (messages : List WireMessage) (frame chunk : Nat)
    (hgentle : Gentle native messages (w.connections k).chunks frame chunk) :
    ∃ front back rest, messages = front ++ back ∧
      front.flatMap (WireMessage.hostBytes native) ++ rest = (w.connections k).chunks.flatten ∧
      (rest = [] ∨ ∃ message ∈ back.head?, rest.length < (message.hostBytes native).length) ∧
      sentBy k (w.published (w.connections k).server) ++ pushes (w.connections k).pending =
        ClientMessage.ofType (w.connections k).handle .connect ::
          front.map (WireMessage.received (w.connections k).handle) ++
          if (w.connections k).phase = .disconnected then
            [ClientMessage.ofType (w.connections k).handle .disconnect] else [] := by
  obtain ⟨lists, parser, hparser, hlists, _⟩ := run_gentle (w.connections k).handle hgentle
  obtain ⟨front, back, hmessages, hfront, hbytes, hcut⟩ :=
    decodeStream_cut (w.connections k).handle hgentle.stream
  have hparsed : parsed native (w.connections k).handle (w.connections k).chunks =
      front.map (WireMessage.received (w.connections k).handle) := by
    rw [Connection.parsed_eq hparser, returnedMessages, List.flatMap_map, ← hfront, ← hlists,
      List.flatMap_def, List.map_id']
  refine ⟨front, back, _, hmessages, hbytes, hcut, ?_⟩
  rw [← (run_announcing hrun).published k hk, Connection.stream, hparsed]

theorem gentle_client_served_firstRequest :
    ∃ w, (exclusiveMachine .ws .little).run firstRequest = some w ∧
      ∃ front back rest, [palindrome] = front ++ back ∧
        front.flatMap (WireMessage.hostBytes .little) ++ rest = (w.connections 0).chunks.flatten ∧
        (rest = [] ∨
          ∃ message ∈ back.head?, rest.length < (message.hostBytes .little).length) ∧
        sentBy 0 (w.published (w.connections 0).server) ++ pushes (w.connections 0).pending =
          ClientMessage.ofType (w.connections 0).handle .connect ::
            front.map (WireMessage.received (w.connections 0).handle) ++
            if (w.connections 0).phase = .disconnected then
              [ClientMessage.ofType (w.connections 0).handle .disconnect] else [] := by
  obtain ⟨w, hrun, hk, _, _, hchunks, _⟩ := firstRequest_run
  refine ⟨w, hrun, gentle_client_served .ws .little firstRequest w hrun 0 hk [palindrome] 11 11 ?_⟩
  exact {
    frame_le := by decide
    chunk_le := by rw [hchunks]; decide
    stream := by rw [hchunks]; exact List.prefix_rfl
    room := by decide }

end World
end PlaySocket
