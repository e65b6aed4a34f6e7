import PlaySocket.StreamSocket.Intake

/-!
# No byte is lost

The messages a connection's parser has returned and the bytes it holds are enough
to write down the stream it was sent, since `onWire` gives the bytes of a message.
So this holds on either host, and for streams that are not what any peer meant,
where the messages themselves may be wrong.
-/

namespace PlaySocket
namespace StreamParser

open Exec RingBuffer

variable {native : Endian} {sid : Int64}

/-! ## The stream of a parser -/

variable {stream items : List UInt8} {returned : List ClientMessage} {chunks : List (List UInt8)}
  {parser : StreamParser} {results : List (Except StdException (List ClientMessage))}

theorem Accounts.onWire_eq (h : Accounts native sid stream returned items) :
    returned.flatMap (onWire native) ++ items = stream := by
  have hstream := decodeStream_onWire native sid stream
  unfold Accounts at h
  rw [h, List.flatMap_append, List.append_assoc, decodeStream_onWire] at hstream
  exact hstream

/-- A run goes on flowing until it sticks. -/
theorem flows_of_run
    (hrun : runAll (chunks.map (receive native)) (new sid) = some (results, parser)) :
    (.error fullError ∉ results ∧
        Flowing native sid chunks.flatten (returnedMessages results) parser) ∨
      (.error fullError ∈ results ∧
        Stuck native sid chunks.flatten (returnedMessages results) parser) := by
  obtain ⟨results', parser', hrun', hflow⟩ := run_flows native sid chunks
  rw [hrun] at hrun'
  cases hrun'
  exact hflow

theorem run_onWire
    (hrun : runAll (chunks.map (receive native)) (new sid) = some (results, parser)) :
    (returnedMessages results).flatMap (onWire native) ++ parser.buffer.contents <+:
        chunks.flatten ∧
      ((returnedMessages results).flatMap (onWire native) ++ parser.buffer.contents =
          chunks.flatten ↔ .error fullError ∉ results) := by
  rcases flows_of_run hrun with ⟨hnone, c, items, h, haccounts⟩ | ⟨hsome, c, items, front, h, _,
    hfront, hlost, haccounts⟩
  · rw [h.holds.contents_eq, haccounts.onWire_eq]
    exact ⟨List.prefix_rfl, fun _ => hnone, fun _ => rfl⟩
  · rw [h.holds.contents_eq, haccounts.onWire_eq]
    refine ⟨hfront, fun heq => ?_, fun hnone => absurd hsome hnone⟩
    rw [heq] at hlost
    exact absurd hlost (Nat.lt_irrefl _)

/-- A parser whose ring is empty has returned given messages exactly if it was sent
these messages, laid out for its host.  How the stream was cut and which parses
threw on the way makes no difference. -/
theorem read_back_iff
    (hrun : runAll (chunks.map (receive native)) (new sid) = some (results, parser))
    (hempty : parser.buffer.size = 0) (messages : List WireMessage) :
    returnedMessages results = messages.map (WireMessage.received sid) ↔
      chunks.flatten = messages.flatMap (WireMessage.hostBytes native) := by
  rcases flows_of_run hrun with ⟨_, c, items, h, haccounts⟩ | ⟨_, c, items, front, h, hfull, _⟩
  · rw [h.holds.size_eq] at hempty
    obtain rfl := List.eq_nil_of_length_eq_zero hempty
    constructor
    · intro hreturned
      have hbytes := haccounts.onWire_eq
      rw [hreturned, onWire_map_received, List.append_nil] at hbytes
      exact hbytes.symm
    · intro hstream
      have hnil : decodeStream native sid [] = ([], []) := decodeStream_hostBytes native sid []
      unfold Accounts at haccounts
      rw [hstream, decodeStream_hostBytes, hnil, List.append_nil] at haccounts
      exact (Prod.mk.inj haccounts).1.symm
  · rw [h.holds.size_eq, hfull] at hempty
    cases hempty

theorem read_back_iff_twoPieces :
    ∃ results parser, runAll (twoPieces.map (receive .little)) (new 7) = some (results, parser) ∧
      parser.buffer.size = 0 ∧
      (returnedMessages results = [elevenBytes].map (WireMessage.received 7) ↔
        twoPieces.flatten = [elevenBytes].flatMap (WireMessage.hostBytes .little)) := by
  obtain ⟨lists, parser, hrun, _, hholds⟩ := run_gentle 7 gentle_twoPieces
  have hstream : twoPieces.flatten = [elevenBytes].flatMap (WireMessage.hostBytes .little) := by
    decide
  rw [hstream, decodeStream_hostBytes] at hholds
  exact ⟨_, parser, hrun, hholds.holds.size_eq,
    read_back_iff hrun hholds.holds.size_eq [elevenBytes]⟩

end StreamParser

namespace World

open Connection Exec StreamParser

variable {native : Endian} {w : World} {k : ConnectionId}

theorem Orderly.live (h : Orderly native w) (hk : k ∈ w.opened) :
    Live native (w.connections k) := by
  cases h.shape k with
  | absent hphase _ => exact absurd hk (h.not_mem_of_phase hphase (by decide))
  | accepted hphase _ _ _ => exact absurd hk (h.not_mem_of_phase hphase (by decide))
  | connected _ hlive _ => exact hlive
  | disconnected _ hlive _ => exact hlive

/-- The messages of a stream that carry bytes are those of the parser. -/
theorem stream_onWire (native : Endian) (c : Connection) :
    (c.stream native).flatMap (onWire native) =
      (parsed native c.handle c.chunks).flatMap (onWire native) := by
  rw [Connection.stream, List.cons_append, List.flatMap_cons, List.flatMap_append]
  split
  · exact List.append_nil _
  · exact List.append_nil _

/-- The messages of a connection that have been received, are queued and are yet
to be pushed, and the bytes in its ring. -/
def laidOut (native : Endian) (w : World) (k : ConnectionId) (parser : StreamParser) :
    List UInt8 :=
  (sentBy k (w.dequeued (w.connections k).server)).flatMap (onWire native) ++
    ((sentBy k (w.sockets (w.connections k).server).recvBuffer).flatMap (onWire native) ++
      ((pushes (w.connections k).pending).flatMap (onWire native) ++ parser.buffer.contents))

/-- In every run, each byte that a connection's peer has sent is in a message the
consumer has received, in one that is queued or about to be, or in the ring of the
parser.  Laid out in this order they are the beginning of what was sent, and all
of it exactly if every chunk has fitted the ring. -/
theorem bytes_conserved (t : Transport) (native : Endian) (events : List Event) (w : World)
    (hrun : (exclusiveMachine t native).run events = some w) (k : ConnectionId)
    (hk : k ∈ w.opened) :
    ∃ parser results, (w.connections k).session.parser = some parser ∧
      runAll ((w.connections k).chunks.map (receive native)) (new (w.connections k).handle) =
        some (results, parser) ∧
      laidOut native w k parser <+: (w.connections k).chunks.flatten ∧
      (laidOut native w k parser = (w.connections k).chunks.flatten ↔
        .error RingBuffer.fullError ∉ results) := by
  have hannouncing := run_announcing hrun
  obtain ⟨parser, results, hsession, hparser⟩ := hannouncing.replying.orderly.live hk
  have hbytes := congrArg (List.flatMap (onWire native)) (hannouncing.published k hk)
  rw [stream_onWire, Connection.parsed_eq hparser, World.published, sentBy_append,
    List.flatMap_append, List.flatMap_append] at hbytes
  have hlaid : laidOut native w k parser =
      (returnedMessages results).flatMap (onWire native) ++ parser.buffer.contents := by
    rw [laidOut, hbytes, List.append_assoc, List.append_assoc]
  refine ⟨parser, results, by rw [hsession], hparser, ?_⟩
  rw [hlaid]
  exact run_onWire hparser

theorem bytes_conserved_firstRequest :
    ∃ w parser results, (exclusiveMachine .ws .little).run firstRequest = some w ∧
      (w.connections 0).session.parser = some parser ∧
      runAll ([palindrome.bytes].map (receive .little)) (new 5) = some (results, parser) ∧
      laidOut .little w 0 parser <+: palindrome.bytes ∧
      (laidOut .little w 0 parser = palindrome.bytes ↔ .error RingBuffer.fullError ∉ results) := by
  obtain ⟨w, hrun, hk, _, hhandle, hchunks, _⟩ := firstRequest_run
  have hconserved := bytes_conserved .ws .little firstRequest w hrun 0 hk
  rw [hhandle, hchunks, List.flatten_singleton] at hconserved
  obtain ⟨parser, results, hconserved⟩ := hconserved
  exact ⟨w, parser, results, hrun, hconserved⟩

end World
end PlaySocket
