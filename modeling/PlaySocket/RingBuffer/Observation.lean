import PlaySocket.RingBuffer.Resize

/-!
# What can be observed of a ring

`ByteQueue` is a ring as its callers see it, the bytes held and the two numbers
that decide what fits.  It has no vector and no index.  Every call on a ring,
integers read and peeked included, gives what it gives on the queue, and leaves
the queue's bytes and capacity.  So no sequence of calls tells apart two rings
that hold the same bytes at different offsets.

`RingCall` leaves out `capacity`, `size` and `resizeBuffer`.  With these the two
numbers themselves are seen, and the offset still is not, for a resize starts
the new vector at the reader whether it keeps the queue or spoils the indices.
-/

namespace PlaySocket

open Exec Doubling

structure ByteQueue where
  items : List UInt8
  capacity : Nat
  maxCapacity : Nat
deriving DecidableEq, Repr

namespace ByteQueue

def push (item : UInt8) : Exec StdException ByteQueue Unit := do
  let q ← self
  when (q.items.length = q.capacity)
    (if q.maxCapacity < 2 * q.capacity then raise RingBuffer.fullError
      else update fun q => { q with capacity := 2 * q.capacity })
  update fun q => { q with items := q.items ++ [item] }

/-- The exception a call answers with that takes bytes which are not there.  An
integer is not there either while the queue is full. -/
def refuses (q : ByteQueue) : RingCall → Option StdException
  | .operation .pop | .operation .peek | .readInt8 =>
    if q.items = [] then some (.runtimeError "Queue is empty") else none
  | .operation (.clearCount count) =>
    if q.items.length < count then some (.invalidArgument "count exceeds queue size") else none
  | .readInt16 | .peekInt16 =>
    if q.items.length < 2 ∨ q.items.length = q.capacity then some RingBuffer.indexError else none
  | .readInt32 | .peekInt32 =>
    if q.items.length < 4 ∨ q.items.length = q.capacity then some RingBuffer.indexError else none
  | .operation _ => none

/-- The call on the queue. -/
def exec (call : RingCall) : Exec StdException ByteQueue RingResult := do
  let q ← self
  match q.refuses call with
  | some e => raise e
  | none => do
    forEach push call.offers
    update fun q' => { q' with items := q'.items.drop (call.takes q.items) }
    pure (call.yields q.items)

theorem exec_refused {q : ByteQueue} {call : RingCall} {e : StdException}
    (h : q.refuses call = some e) : (exec call).run q = .thrown e q := by
  rw [exec, run_bind, run_self, Exit.andThen_ok, h, run_raise]

theorem exec_admitted {q : ByteQueue} {call : RingCall} (h : q.refuses call = none) :
    (exec call).run q = ((forEach push call.offers).run q).andThen fun _ q' =>
      .ok (call.yields q.items) { q' with items := q'.items.drop (call.takes q.items) } := by
  rw [exec, run_bind, run_self, Exit.andThen_ok, h]
  rfl

end ByteQueue

namespace RingBuffer

variable {s s' : RingBuffer} {q : ByteQueue} {c m : Nat} {items : List UInt8}

/-- The ring holds what the queue does. -/
def Represents (s : RingBuffer) (q : ByteQueue) : Prop := Holds s q.capacity q.maxCapacity q.items

/-- The queue a valid ring represents. -/
def toQueue (s : RingBuffer) : ByteQueue :=
  { items := s.contents, capacity := s.capacity, maxCapacity := s.maxCapacity }

theorem Valid.represents (h : Valid s) : Represents s s.toQueue := h.holds

/-! ## One call -/

theorem push_represents (item : UInt8) : Sim Represents (push item) (ByteQueue.push item) := by
  intro s q h
  have hholds : Holds s q.capacity q.maxCapacity q.items := h
  rw [ByteQueue.push, run_bind, run_self, Exit.andThen_ok, run_bind]
  by_cases hfull : q.items.length = q.capacity
  · rw [run_when hfull]
    by_cases hmax : q.maxCapacity < 2 * q.capacity
    · rw [push_full hholds hfull hmax, if_pos hmax, run_raise, Exit.andThen_thrown]
      exact .thrown _ h
    · obtain ⟨s', hrun, h'⟩ := push_grow hholds hfull (Nat.le_of_not_lt hmax) item
      rw [hrun, if_neg hmax, run_update, Exit.andThen_ok, run_update]
      exact .ok () h'
  · obtain ⟨s', hrun, h'⟩ :=
      push_room hholds (Nat.lt_of_le_of_ne hholds.length_le hfull) item
    rw [hrun, run_when_not hfull, Exit.andThen_ok, run_update]
    exact .ok () h'

theorem store_represents {op : RingOp} (hstores : op.Stores)
    (hadmits : ∀ q : ByteQueue, q.refuses (.operation op) = none) :
    Sim Represents (RingCall.operation op).exec (ByteQueue.exec (.operation op)) := by
  intro s q h
  have hpush := Sim.forEach push_represents op.offers s q h
  rw [RingCall.exec, run_bind, exec_store hstores, run_bind, pushVector,
    ByteQueue.exec_admitted (hadmits q), takes_store hstores, yields_store hstores,
    RingCall.offers]
  generalize (forEach push op.offers).run s = ex at hpush
  generalize (forEach ByteQueue.push op.offers).run q = ey at hpush
  cases hpush with
  | ok a h' => exact .ok _ h'
  | thrown e h' => exact .thrown e h'

theorem rel_of_returned {call : RingCall} (hoffers : call.offers = [])
    (hadmits : q.refuses call = none) (hrun : call.exec.run s = .ok (call.yields q.items) s')
    (h' : Holds s' q.capacity q.maxCapacity (q.items.drop (call.takes q.items))) :
    Exit.Rel Represents (call.exec.run s) ((ByteQueue.exec call).run q) := by
  rw [hrun, ByteQueue.exec_admitted hadmits, hoffers]
  exact .ok _ h'

theorem rel_of_thrown (h : Represents s q) {call : RingCall} {e : StdException}
    (hrefuses : q.refuses call = some e) (hrun : call.exec.run s = .thrown e s) :
    Exit.Rel Represents (call.exec.run s) ((ByteQueue.exec call).run q) := by
  rw [hrun, ByteQueue.exec_refused hrefuses]
  exact .thrown e h

/-- An integer read, of either width, gives the integer or is refused. -/
theorem integer_represents {α : Type} {x : RingExec α} {call : RingCall} {width : Nat}
    {wrap : α → RingResult} (hexec : ∀ s, call.exec.run s = (x.run s).andThen fun a t =>
      .ok (wrap a) t) (hoffers : call.offers = [])
    (hrefuses : ∀ q : ByteQueue, q.refuses call =
      if q.items.length < width ∨ q.items.length = q.capacity then some indexError else none)
    (hok : ∀ s c m items, Holds s c m items → width ≤ items.length → items.length < c →
      ∃ a s', x.run s = .ok a s' ∧ wrap a = call.yields items ∧
        Holds s' c m (items.drop (call.takes items)))
    (hthrown : ∀ s c m items, Holds s c m items → items.length < width ∨ items.length = c →
      x.run s = .thrown indexError s) : Sim Represents call.exec (ByteQueue.exec call) := by
  intro s q h
  rcases integer_cases h width with hlong | hshort
  · obtain ⟨a, s', hrun, hwrap, h'⟩ := hok s _ _ _ h hlong.1 hlong.2
    refine rel_of_returned hoffers ?_ ?_ h'
    · rw [hrefuses, if_neg (by omega)]
    · rw [hexec, hrun, Exit.andThen_ok, hwrap]
  · refine rel_of_thrown (e := indexError) h ?_ ?_
    · rw [hrefuses, if_pos hshort]
    · rw [hexec, hthrown s _ _ _ h hshort, Exit.andThen_thrown]

/-- A call that needs a first byte gives it or is refused. -/
theorem front_represents {call : RingCall} (hoffers : call.offers = [])
    (hrefuses : ∀ q : ByteQueue, q.refuses call =
      if q.items = [] then some (.runtimeError "Queue is empty") else none)
    (hok : ∀ s c m item rest, Holds s c m (item :: rest) →
      ∃ s', call.exec.run s = .ok (call.yields (item :: rest)) s' ∧
        Holds s' c m ((item :: rest).drop (call.takes (item :: rest))))
    (hthrown : ∀ s c m, Holds s c m [] →
      call.exec.run s = .thrown (.runtimeError "Queue is empty") s) :
    Sim Represents call.exec (ByteQueue.exec call) := by
  intro s q h
  obtain ⟨items, capacity, maxCapacity⟩ := q
  cases items with
  | nil => exact rel_of_thrown h (hrefuses _) (hthrown s _ _ h)
  | cons item rest =>
    obtain ⟨s', hrun, h'⟩ := hok s _ _ item rest h
    exact rel_of_returned hoffers (hrefuses _) hrun h'

/-- The step lemma: every call on the ring simulates the call on the queue. -/
theorem exec_represents (call : RingCall) :
    Sim Represents call.exec (ByteQueue.exec call) := by
  cases call with
  | operation op =>
    cases op with
    | push _ | pushVector _ | write _ _ _ _ | writeSpan _ | writeU16 _ | writeU32 _ | writeI16 _
    | writeI32 _ | writeU8 _ | writeI8 _ => exact store_represents trivial fun _ => rfl
    | pop =>
      refine front_represents rfl (fun _ => rfl) ?_ ?_
      · intro s c m item rest h
        obtain ⟨s', hpop, h'⟩ := pop_cons h
        refine ⟨s', ?_, h'⟩
        simp only [RingCall.exec, RingOp.exec, run_bind, hpop, Exit.andThen_ok, run_pure]
        rfl
      · intro s c m h
        simp only [RingCall.exec, RingOp.exec, run_bind, pop_nil h, Exit.andThen_thrown]
    | peek =>
      refine front_represents rfl (fun _ => rfl) ?_ ?_
      · intro s c m item rest h
        refine ⟨s, ?_, h⟩
        simp only [RingCall.exec, RingOp.exec, run_bind, peek_cons h, Exit.andThen_ok, run_pure]
        rfl
      · intro s c m h
        simp only [RingCall.exec, RingOp.exec, run_bind, peek_nil h, Exit.andThen_thrown]
    | clear =>
      intro s q h
      obtain ⟨s', hclear, h'⟩ := clear_holds h
      refine rel_of_returned rfl rfl (?_ : _ = Exit.ok _ s') ?_
      · simp only [RingCall.exec, RingOp.exec, run_bind, hclear, Exit.andThen_ok, run_pure]
        rfl
      · rw [RingCall.takes, List.drop_length]
        exact h'
    | clearCount count =>
      intro s q h
      by_cases hover : q.items.length < count
      · refine rel_of_thrown h (if_pos hover) ?_
        simp only [RingCall.exec, RingOp.exec, run_bind, clearCount_over h hover,
          Exit.andThen_thrown]
      · obtain ⟨s', hclear, h'⟩ := clearCount_ok h (Nat.le_of_not_lt hover)
        refine rel_of_returned rfl (if_neg hover) ?_ h'
        simp only [RingCall.exec, RingOp.exec, run_bind, hclear, Exit.andThen_ok, run_pure]
        rfl
    | read offset count =>
      intro s q h
      obtain ⟨s', hread, h'⟩ := read_holds h offset count
      refine rel_of_returned rfl rfl ?_ h'
      simp only [RingCall.exec, RingOp.exec, run_bind, hread, Exit.andThen_ok, run_pure]
      rfl
  | readInt8 =>
    refine front_represents rfl (fun _ => rfl) ?_ ?_
    · intro s c m item rest h
      obtain ⟨s', hread, h'⟩ := readInt8_ok h
      refine ⟨s', ?_, h'⟩
      simp only [RingCall.exec, run_bind, hread, Exit.andThen_ok, run_pure]
      rfl
    · intro s c m h
      simp only [RingCall.exec, readInt8, run_bind, pop_nil h, Exit.andThen_thrown]
  | readInt16 =>
    refine integer_represents (fun _ => rfl) rfl (fun _ => rfl) ?_ ?_
    · intro s c m items h hlong hroom
      obtain ⟨s', hread, h'⟩ := readInt16_ok h hlong hroom
      exact ⟨_, s', hread, rfl, h'⟩
    · exact fun _ _ _ _ h hshort => readInt16_thrown h hshort
  | readInt32 =>
    refine integer_represents (fun _ => rfl) rfl (fun _ => rfl) ?_ ?_
    · intro s c m items h hlong hroom
      obtain ⟨s', hread, h'⟩ := readInt32_ok h hlong hroom
      exact ⟨_, s', hread, rfl, h'⟩
    · exact fun _ _ _ _ h hshort => readInt32_thrown h hshort
  | peekInt16 =>
    refine integer_represents (fun _ => rfl) rfl (fun _ => rfl) ?_ ?_
    · exact fun s _ _ _ h hlong hroom => ⟨_, s, peekInt16_ok h hlong hroom, rfl, h⟩
    · exact fun _ _ _ _ h hshort => peekInt16_thrown h hshort
  | peekInt32 =>
    refine integer_represents (fun _ => rfl) rfl (fun _ => rfl) ?_ ?_
    · exact fun s _ _ _ h hlong hroom => ⟨_, s, peekInt32_ok h hlong hroom, rfl, h⟩
    · exact fun _ _ _ _ h hshort => peekInt32_thrown h hshort

/-- Any run on a ring is the run on its queue. -/
theorem run_represents (h : Represents s q) (calls : List RingCall) :
    ∃ results s' q', runAll (calls.map RingCall.exec) s = some (results, s') ∧
      runAll (calls.map ByteQueue.exec) q = some (results, q') ∧ Represents s' q' :=
  Sim.runAll exec_represents calls s q h

end RingBuffer

/-! ## Queues no caller tells apart -/

namespace ByteQueue

variable {q q' : ByteQueue}

structure WellFormed (q : ByteQueue) : Prop where
  pos : 0 < q.capacity
  length_le : q.items.length ≤ q.capacity
  le_max : q.capacity ≤ q.maxCapacity

/-- The same bytes, and the same number of bytes at most.  The capacities may
differ where no integer fits the smaller one and leaves a cell of it free. -/
structure Alike (q q' : ByteQueue) : Prop where
  left : q.WellFormed
  right : q'.WellFormed
  items_eq : q.items = q'.items
  limit_eq : limit q.capacity q.maxCapacity = limit q'.capacity q'.maxCapacity
  capacity_eq : q.capacity = q'.capacity ∨ q.capacity ≤ 2 ∧ q'.capacity ≤ 2

/-- The queue after a push that found room or made it. -/
def pushed (q : ByteQueue) (item : UInt8) : ByteQueue :=
  { q with
    items := q.items ++ [item],
    capacity := if q.items.length = q.capacity then 2 * q.capacity else q.capacity }

theorem push_run (h : q.WellFormed) (item : UInt8) :
    (push item).run q =
      if q.items.length = limit q.capacity q.maxCapacity then .thrown RingBuffer.fullError q
      else .ok () (q.pushed item) := by
  have hdouble : 2 * q.capacity ≤ q.maxCapacity ↔ q.capacity < limit q.capacity q.maxCapacity :=
    double_le_iff h.pos
  have hlength := h.length_le
  have hlimit := le_limit q.capacity q.maxCapacity
  rw [push, run_bind, run_self, Exit.andThen_ok, run_bind]
  by_cases hfull : q.items.length = q.capacity
  · rw [run_when hfull]
    by_cases hmax : q.maxCapacity < 2 * q.capacity
    · rw [if_pos hmax, run_raise, Exit.andThen_thrown, if_pos (by omega)]
    · rw [if_neg hmax, run_update, Exit.andThen_ok, run_update, if_neg (by omega), pushed,
        if_pos hfull]
  · rw [run_when_not hfull, Exit.andThen_ok, run_update, if_neg (by omega), pushed, if_neg hfull]

theorem pushed_wellFormed (h : q.WellFormed)
    (hroom : q.items.length ≠ limit q.capacity q.maxCapacity) (item : UInt8) :
    (q.pushed item).WellFormed ∧ limit (q.pushed item).capacity (q.pushed item).maxCapacity =
      limit q.capacity q.maxCapacity := by
  have hpos := h.pos
  have hlength := h.length_le
  have hmax := h.le_max
  have hdouble : 2 * q.capacity ≤ q.maxCapacity ↔ q.capacity < limit q.capacity q.maxCapacity :=
    double_le_iff hpos
  have hlimit := le_limit q.capacity q.maxCapacity
  rw [pushed]
  by_cases hfull : q.items.length = q.capacity
  · rw [if_pos hfull]
    have hle : 2 * q.capacity ≤ q.maxCapacity := hdouble.mpr (by omega)
    refine ⟨⟨?_, ?_, hle⟩, limit_double hpos hle⟩
    · show 0 < 2 * q.capacity
      omega
    · show (q.items ++ [item]).length ≤ 2 * q.capacity
      rw [List.length_append, List.length_singleton]
      omega
  · rw [if_neg hfull]
    refine ⟨⟨hpos, ?_, hmax⟩, rfl⟩
    show (q.items ++ [item]).length ≤ q.capacity
    rw [List.length_append, List.length_singleton]
    omega

theorem push_alike (item : UInt8) : Sim Alike (push item) (push item) := by
  intro q q' h
  rw [push_run h.left, push_run h.right, ← h.items_eq, ← h.limit_eq]
  by_cases hfull : q.items.length = limit q.capacity q.maxCapacity
  · rw [if_pos hfull, if_pos hfull]
    exact .thrown _ h
  · rw [if_neg hfull, if_neg hfull]
    have hleft := pushed_wellFormed h.left hfull item
    have hfull' : q'.items.length ≠ limit q'.capacity q'.maxCapacity := by
      rwa [← h.items_eq, ← h.limit_eq]
    have hright := pushed_wellFormed h.right hfull' item
    refine .ok () ⟨hleft.1, hright.1, ?_, ?_, ?_⟩
    · show q.items ++ [item] = q'.items ++ [item]
      rw [h.items_eq]
    · rw [hleft.2, hright.2, h.limit_eq]
    · have hpos := h.left.pos
      have hpos' := h.right.pos
      have hlength := h.left.length_le
      have hlength' := h.right.length_le
      have hcapacity := h.capacity_eq
      rw [← h.items_eq] at hlength'
      show (if q.items.length = q.capacity then 2 * q.capacity else q.capacity) =
          (if q'.items.length = q'.capacity then 2 * q'.capacity else q'.capacity) ∨
        (if q.items.length = q.capacity then 2 * q.capacity else q.capacity) ≤ 2 ∧
          (if q'.items.length = q'.capacity then 2 * q'.capacity else q'.capacity) ≤ 2
      rw [← h.items_eq]
      split <;> split <;> omega

/-- Of two capacities no integer fits into, neither is seen. -/
theorem Alike.refuses_eq (h : Alike q q') (call : RingCall) :
    q.refuses call = q'.refuses call := by
  have hlength := h.left.length_le
  have hlength' := h.right.length_le
  have hcapacity := h.capacity_eq
  rw [← h.items_eq] at hlength'
  have hinteger : ∀ width, 2 ≤ width →
      ((q.items.length < width ∨ q.items.length = q.capacity) ↔
        (q.items.length < width ∨ q.items.length = q'.capacity)) := by
    intro width hwidth
    omega
  cases call with
  | operation op => cases op <;> simp only [refuses, h.items_eq]
  | readInt8 => simp only [refuses, h.items_eq]
  | readInt16 | peekInt16 => simp only [refuses, ← h.items_eq, hinteger 2 (Nat.le_refl 2)]
  | readInt32 | peekInt32 => simp only [refuses, ← h.items_eq, hinteger 4 (by decide)]

/-- Bytes taken from both leave them alike. -/
theorem Alike.dropped (h : Alike q q') (count : Nat) :
    Alike { q with items := q.items.drop count } { q' with items := q'.items.drop count } := by
  have hdrop : ∀ items : List UInt8, (items.drop count).length ≤ items.length := by
    intro items
    rw [List.length_drop]
    exact Nat.sub_le _ _
  exact {
    left := ⟨h.left.pos, Nat.le_trans (hdrop _) h.left.length_le, h.left.le_max⟩
    right := ⟨h.right.pos, Nat.le_trans (hdrop _) h.right.length_le, h.right.le_max⟩
    items_eq := congrArg (List.drop count) h.items_eq
    limit_eq := h.limit_eq
    capacity_eq := h.capacity_eq }

theorem exec_alike (call : RingCall) : Sim Alike (exec call) (exec call) := by
  intro q q' h
  have hrefuses := h.refuses_eq call
  cases hcall : q.refuses call with
  | some e =>
    rw [exec_refused hcall, exec_refused (hrefuses ▸ hcall)]
    exact .thrown e h
  | none =>
    rw [exec_admitted hcall, exec_admitted (hrefuses ▸ hcall), ← h.items_eq]
    have hpush := Sim.forEach push_alike call.offers q q' h
    generalize (forEach push call.offers).run q = x at hpush
    generalize (forEach push call.offers).run q' = y at hpush
    cases hpush with
    | ok a h' => exact .ok _ (h'.dropped _)
    | thrown e h' => exact .thrown e h'

end ByteQueue

namespace RingBuffer

variable {s s' : RingBuffer} {c m : Nat} {items : List UInt8}

/-- What the calls of a run return and throw. -/
def results (calls : List RingCall) (s : RingBuffer) :
    Option (List (Except StdException RingResult)) :=
  resultsOf (calls.map RingCall.exec) s

/-- No sequence of calls that read or write tells the rings apart. -/
def Indistinguishable (s s' : RingBuffer) : Prop := ∀ calls, results calls s = results calls s'

theorem Valid.wellFormed (h : Valid s) : s.toQueue.WellFormed where
  pos := h.capacity_pos
  length_le := h.holds.length_le
  le_max := h.capacity_le

theorem indistinguishable_of_alike (h : Valid s) (h' : Valid s')
    (halike : s.toQueue.Alike s'.toQueue) : Indistinguishable s s' := by
  intro calls
  obtain ⟨rs, t, q, hrun, hqueue, _⟩ := run_represents h.represents calls
  obtain ⟨rs', t', q', hrun', hqueue', _⟩ := run_represents h'.represents calls
  obtain ⟨both, u, u', hleft, hright, _⟩ := Sim.runAll ByteQueue.exec_alike calls _ _ halike
  rw [hqueue] at hleft
  rw [hqueue'] at hright
  cases hleft
  cases hright
  rw [results, results, resultsOf, resultsOf, hrun, hrun', Option.map_some, Option.map_some]

/-! ## What tells rings apart -/

/-- Enough of a read gives the bytes held. -/
theorem results_read (h : Valid s) {count : Nat} (hle : s.size ≤ count) :
    results [.operation (.read 0 count)] s =
      some [.ok (.value (.stores s.contents.length (storesFrom 0 s.contents)))] := by
  obtain ⟨t, hread, _⟩ := read_holds h.holds 0 count
  have hall : s.contents.take count = s.contents :=
    List.take_of_length_le (h.holds.size_eq ▸ hle)
  rw [hall] at hread
  apply resultsOf_ok
  simp only [RingCall.exec, RingOp.exec, run_bind, hread, Exit.andThen_ok, run_pure]
  rfl

theorem Indistinguishable.symm (h : Indistinguishable s s') : Indistinguishable s' s :=
  fun calls => (h calls).symm

theorem Indistinguishable.contents_eq (hsame : Indistinguishable s s') (h : Valid s)
    (h' : Valid s') : s.contents = s'.contents := by
  have hread := hsame [.operation (.read 0 (s.size + s'.size))]
  rw [results_read h (Nat.le_add_right _ _), results_read h' (Nat.le_add_left _ _)] at hread
  have hstores : storesFrom 0 s.contents = storesFrom 0 s'.contents := by
    simp only [Option.some.injEq, List.cons.injEq, Except.ok.injEq, RingResult.value.injEq,
      RingValue.stores.injEq, and_true] at hread
    exact hread.2
  rw [← storesFrom_values s.contents 0, hstores, storesFrom_values]

theorem exec_pushVector_ok (h : Valid s) (data : List UInt8)
    (hfit : s.size + data.length ≤ limit s.capacity s.maxCapacity) :
    ∃ t c, (RingCall.operation (.pushVector data)).exec.run s = .ok (.value .unit) t ∧
      Holds t c s.maxCapacity (s.contents ++ data) ∧
      Grows s.capacity c (s.size + data.length) := by
  rw [h.holds.size_eq] at hfit ⊢
  obtain ⟨t, c, hpush, ht, hgrows⟩ := pushVector_ok h.holds data hfit
  refine ⟨t, c, ?_, ht, hgrows⟩
  simp only [RingCall.exec, RingOp.exec, run_bind, hpush, Exit.andThen_ok, run_pure]

/-- As many zeros as take a ring to `n` bytes. -/
def zerosTo (n : Nat) (s : RingBuffer) : List UInt8 := List.replicate (n - s.size) 0

theorem size_zerosTo {n : Nat} (hle : s.size ≤ n) : s.size + (zerosTo n s).length = n := by
  rw [zerosTo, List.length_replicate]
  omega

/-- Zeros up to the limit of one ring would overflow one of a lower limit. -/
theorem Indistinguishable.limit_le (hsame : Indistinguishable s s') (h : Valid s)
    (h' : Valid s') : limit s.capacity s.maxCapacity ≤ limit s'.capacity s'.maxCapacity := by
  have hsize : s.size = s'.size := by
    rw [h.holds.size_eq, h'.holds.size_eq, hsame.contents_eq h h']
  have hle := h.holds.length_le_limit
  rw [← h.holds.size_eq] at hle
  have hfit := size_zerosTo hle
  generalize zerosTo (limit s.capacity s.maxCapacity) s = zeros at hfit
  obtain ⟨t, _, hrun, _⟩ := exec_pushVector_ok h zeros (Nat.le_of_eq hfit)
  have hfill := hsame [.operation (.pushVector zeros)]
  by_contra hlt
  obtain ⟨t', _, hthrown, _⟩ := pushVector_thrown h'.holds zeros (by
    rw [← h'.holds.size_eq]
    omega)
  have hrun' : (RingCall.operation (.pushVector zeros)).exec.run s' = .thrown fullError t' := by
    simp only [RingCall.exec, RingOp.exec, run_bind, hthrown, Exit.andThen_thrown]
  rw [results, results, List.map_singleton, resultsOf_ok hrun, resultsOf_thrown hrun'] at hfill
  simp only [Option.some.injEq, List.cons.injEq, reduceCtorEq, false_and] at hfill

/-- Fill a ring up to `n` bytes, then look at the integer in front. -/
def probe (n : Nat) (s : RingBuffer) : List RingCall :=
  [.operation (.pushVector (zerosTo n s)), .peekInt16]

/-- The integer is refused exactly when the bytes have filled the ring. -/
theorem results_probe (h : Valid s) {n : Nat} (hsize : s.size ≤ n) (hlong : 2 ≤ n)
    (hle : n ≤ limit s.capacity s.maxCapacity) :
    results (probe n s) s = some [.ok (.value .unit), .error indexError] ↔
      ∃ k, n = s.capacity * 2 ^ k := by
  have hsum := size_zerosTo hsize
  rw [probe]
  generalize zerosTo n s = zeros at hsum
  obtain ⟨t, c, hrun, ht, hgrows⟩ := exec_pushVector_ok h zeros (by omega)
  have hlength : (s.contents ++ zeros).length = n := by
    rw [List.length_append, ← h.holds.size_eq]
    exact hsum
  rw [hsum] at hgrows
  rw [← hgrows.full_iff (hlength ▸ ht.length_le), results, List.map_cons,
    List.map_singleton, resultsOf_cons, hrun, outcome, Option.bind_some]
  rcases integer_cases ht 2 with hroom | hfull
  · have hpeek : RingCall.peekInt16.exec.run t =
        .ok (.int16 (int16OfBE (s.contents ++ zeros))) t := by
      simp only [RingCall.exec, run_bind, peekInt16_ok ht hroom.1 hroom.2, Exit.andThen_ok,
        run_pure]
    simp only [resultsOf_ok hpeek, Option.map_some, Option.some.injEq, List.cons.injEq,
      reduceCtorEq, false_and, and_false, false_iff]
    omega
  · have hpeek : RingCall.peekInt16.exec.run t = .thrown indexError t := by
      simp only [RingCall.exec, run_bind, peekInt16_thrown ht hfull, Exit.andThen_thrown]
    simp only [resultsOf_thrown hpeek, Option.map_some, true_iff]
    omega

/-- A smaller capacity shows once its cells are filled. -/
theorem Indistinguishable.capacity_le_two (hsame : Indistinguishable s s') (h : Valid s)
    (h' : Valid s') (hlt : s.capacity < s'.capacity) : s'.capacity ≤ 2 := by
  by_contra hover
  have hsize : s.size = s'.size := by
    rw [h.holds.size_eq, h'.holds.size_eq, hsame.contents_eq h h']
  have hsizele := h.size_le
  have hpos := h.capacity_pos
  have hlimit := hsame.symm.limit_le h' h
  have hlimit' := le_limit s'.capacity s'.maxCapacity
  obtain ⟨n, hn⟩ : ∃ n, n = max s.capacity 2 := ⟨_, rfl⟩
  have hfull : results (probe n s) s = some [.ok (.value .unit), .error indexError] := by
    refine (results_probe h (by omega) (by omega) (by omega)).mpr ?_
    by_cases hone : s.capacity = 1
    · exact ⟨1, by omega⟩
    · exact ⟨0, by omega⟩
  have hprobe : probe n s = probe n s' := by rw [probe, probe, zerosTo, zerosTo, hsize]
  rw [hsame, hprobe] at hfull
  obtain ⟨k, hk⟩ := (results_probe h' (by omega) (by omega) (by omega)).mp hfull
  have hmul : s'.capacity ≤ s'.capacity * 2 ^ k := Nat.le_mul_of_pos_right _ (Nat.two_pow_pos k)
  omega

/-- Calls that read or write see the bytes a ring holds, the number of bytes it
can reach, and its capacity unless that is at most two. -/
theorem indistinguishable_iff_limit (h : Valid s) (h' : Valid s') :
    Indistinguishable s s' ↔ s.contents = s'.contents ∧
      limit s.capacity s.maxCapacity = limit s'.capacity s'.maxCapacity ∧
      (s.capacity = s'.capacity ∨ s.capacity ≤ 2 ∧ s'.capacity ≤ 2) := by
  constructor
  · intro hsame
    refine ⟨hsame.contents_eq h h',
      Nat.le_antisymm (hsame.limit_le h h') (hsame.symm.limit_le h' h), ?_⟩
    rcases Nat.lt_trichotomy s.capacity s'.capacity with hlt | heq | hgt
    · have htwo := hsame.capacity_le_two h h' hlt
      exact .inr ⟨by omega, htwo⟩
    · exact .inl heq
    · have htwo := hsame.symm.capacity_le_two h' h hgt
      exact .inr ⟨htwo, by omega⟩
  · intro halike
    obtain ⟨hcontents, hlimit, hcapacity⟩ := halike
    exact indistinguishable_of_alike h h'
      ⟨h.wellFormed, h'.wellFormed, hcontents, hlimit, hcapacity⟩

end RingBuffer

/-! ## Every public member function -/

/-- A call on any public member function. -/
inductive OutsideCall where
  | call (call : PublicCall)
  | capacity
  | size

def OutsideCall.exec : OutsideCall → RingExec (RingResult ⊕ Nat)
  | call c => do
    let result ← c.exec
    pure (.inl result)
  | capacity => do
    let s ← self
    pure (.inr s.capacity)
  | size => do
    let s ← self
    pure (.inr s.size)

namespace RingBuffer

variable {s s' : RingBuffer} {q : ByteQueue} {c m : Nat} {items : List UInt8}

/-- What calls from outside return and throw. -/
def outsideResults (calls : List OutsideCall) (s : RingBuffer) :
    Option (List (Except StdException (RingResult ⊕ Nat))) :=
  resultsOf (calls.map OutsideCall.exec) s

/-- No sequence of calls from outside tells the rings apart. -/
def Interchangeable (s s' : RingBuffer) : Prop :=
  ∀ calls, outsideResults calls s = outsideResults calls s'

/-- Both rings represent one queue, or they are the same and perhaps spoilt. -/
def Twins (s s' : RingBuffer) : Prop := s = s' ∨ ∃ q, Represents s q ∧ Represents s' q

theorem member_twins (h : Represents s q) (h' : Represents s' q) (call : RingCall) :
    Exit.Same Twins (call.exec.run s) (call.exec.run s') := by
  have hleft := exec_represents call s q h
  have hright := exec_represents call s' q h'
  generalize call.exec.run s = x at hleft
  generalize call.exec.run s' = y at hright
  generalize (ByteQueue.exec call).run q = z at hleft hright
  cases hleft with
  | ok a h₁ => cases hright with | ok _ h₂ => exact .ok a (.inr ⟨_, h₁, h₂⟩)
  | thrown e h₁ => cases hright with | thrown _ h₂ => exact .thrown e (.inr ⟨_, h₁, h₂⟩)

/-- A resize that is too tight spoils two rings in the same way. -/
theorem resizeBuffer_twins (h : Represents s q) (h' : Represents s' q) (newCapacity : Nat) :
    Exit.Same Twins ((resizeBuffer newCapacity).run s) ((resizeBuffer newCapacity).run s') := by
  have hmax : s.maxCapacity = q.maxCapacity := h.maxCapacity_eq
  have hmax' : s'.maxCapacity = q.maxCapacity := h'.maxCapacity_eq
  by_cases hover : q.maxCapacity < newCapacity
  · rw [resizeBuffer_over (hmax ▸ hover), resizeBuffer_over (hmax' ▸ hover)]
    exact .thrown _ (.inr ⟨q, h, h'⟩)
  · have hle : newCapacity ≤ q.maxCapacity := Nat.le_of_not_lt hover
    rcases Nat.lt_trichotomy newCapacity q.items.length with hlt | heq | hgt
    · rw [resizeBuffer_short h hlt hle, resizeBuffer_short h' hlt hle]
      exact .fault _
    · obtain ⟨buffer, hrun, hsize, hwindow⟩ := resizeBuffer_copies h (Nat.le_of_eq heq.symm) hle
      obtain ⟨buffer', hrun', hsize', hwindow'⟩ :=
        resizeBuffer_copies h' (Nat.le_of_eq heq.symm) hle
      have hbuffer : buffer = buffer' :=
        Cyclic.eq_of_window (hsize.trans heq) (hsize'.trans heq) (hwindow.trans hwindow'.symm)
      rw [hrun, hrun', hbuffer, hmax, hmax', h.size_eq, h'.size_eq]
      exact .ok () (.inl rfl)
    · obtain ⟨t, hrun, ht⟩ := resizeBuffer_holds h hgt hle
      obtain ⟨t', hrun', ht'⟩ := resizeBuffer_holds h' hgt hle
      rw [hrun, hrun']
      exact .ok () (.inr ⟨{ q with capacity := newCapacity }, ht, ht'⟩)

/-- The step lemma. -/
theorem outside_twins (call : OutsideCall) (s s' : RingBuffer) (h : Twins s s') :
    Exit.Same Twins (call.exec.run s) (call.exec.run s') := by
  rcases h with rfl | ⟨q, h, h'⟩
  · exact Exit.Same.refl (fun _ => .inl rfl) _
  · have hboth : Twins s s' := .inr ⟨q, h, h'⟩
    cases call with
    | call call =>
      cases call with
      | member call => exact (member_twins h h' call).andThen fun _ _ _ ht => .ok _ ht
      | resizeBuffer newCapacity =>
        exact ((resizeBuffer_twins h h' newCapacity).andThen fun _ _ _ ht => .ok _ ht).andThen
          fun _ _ _ ht => .ok _ ht
    | capacity =>
      simp only [OutsideCall.exec, run_bind, run_self, Exit.andThen_ok, run_pure, h.capacity_eq,
        h'.capacity_eq]
      exact .ok _ hboth
    | size =>
      simp only [OutsideCall.exec, run_bind, run_self, Exit.andThen_ok, run_pure, h.size_eq,
        h'.size_eq]
      exact .ok _ hboth

theorem Interchangeable.symm (h : Interchangeable s s') : Interchangeable s' s :=
  fun calls => (h calls).symm

theorem map_inl_inj {ε α β : Type} (x y : Except ε α)
    (h : x.map (Sum.inl : α → α ⊕ β) = y.map Sum.inl) : x = y := by
  cases x with
  | error e =>
    cases y with
    | error e' => cases h; rfl
    | ok b => cases h
  | ok a =>
    cases y with
    | error e' => cases h
    | ok b => cases h; rfl

/-- Who makes all calls sees no less than who reads and writes. -/
theorem Interchangeable.indistinguishable (hsame : Interchangeable s s') :
    Indistinguishable s s' := by
  intro calls
  have hwrap : ∀ t, outsideResults (calls.map fun call => .call (.member call)) t =
      (results calls t).map (List.map (Except.map Sum.inl)) := by
    intro t
    rw [outsideResults, List.map_map]
    exact resultsOf_map (fun _ _ => rfl) calls t
  have hboth := hsame (calls.map fun call => .call (.member call))
  rw [hwrap, hwrap] at hboth
  exact (Option.map_inj_right fun _ _ => (List.map_inj_right map_inl_inj).mp).mp hboth

theorem Interchangeable.capacity_eq (hsame : Interchangeable s s') :
    s.capacity = s'.capacity := by
  have hone : ∀ t, outsideResults [.capacity] t = some [.ok (.inr t.capacity)] := fun _ => rfl
  have hboth := hsame [.capacity]
  rw [hone, hone] at hboth
  simpa only [Option.some.injEq, List.cons.injEq, Except.ok.injEq, Sum.inr.injEq, and_true]
    using hboth

/-- One ring refuses to be resized to a larger maximum than its own. -/
theorem Interchangeable.max_le (hsame : Interchangeable s s') (h : Valid s) :
    s.maxCapacity ≤ s'.maxCapacity := by
  by_contra hlt
  have hthrown := resizeBuffer_over (Nat.lt_of_not_le hlt)
  obtain ⟨buffer, hrun, _⟩ := resizeBuffer_copies h.holds
    (Nat.le_trans h.holds.length_le h.capacity_le) (Nat.le_refl _)
  have hleft : outsideResults [.call (.resizeBuffer s.maxCapacity)] s =
      some [.ok (.inl (.value .unit))] := by
    apply resultsOf_ok
    simp only [OutsideCall.exec, PublicCall.exec, run_bind, hrun, Exit.andThen_ok, run_pure]
    rfl
  have hright : outsideResults [.call (.resizeBuffer s.maxCapacity)] s' =
      some [.error fullError] := by
    refine resultsOf_thrown (t := s') ?_
    simp only [OutsideCall.exec, PublicCall.exec, run_bind, hthrown, Exit.andThen_thrown]
    rfl
  rw [hsame, hright] at hleft
  simp only [Option.some.injEq, List.cons.injEq, reduceCtorEq, false_and] at hleft

/-- All public calls together see the bytes held, the capacity and the maximum. -/
theorem interchangeable_iff (h : Valid s) (h' : Valid s') :
    Interchangeable s s' ↔ s.contents = s'.contents ∧ s.capacity = s'.capacity ∧
      s.maxCapacity = s'.maxCapacity := by
  constructor
  · intro hsame
    exact ⟨hsame.indistinguishable.contents_eq h h', hsame.capacity_eq,
      Nat.le_antisymm (hsame.max_le h) (hsame.symm.max_le h')⟩
  · rintro ⟨hcontents, hcapacity, hmax⟩ calls
    have hqueue : s.toQueue = s'.toQueue := by
      rw [toQueue, toQueue, hcontents, hcapacity, hmax]
    refine resultsOf_same outside_twins calls s s' (.inr ⟨s.toQueue, h.represents, ?_⟩)
    rw [hqueue]
    exact h'.represents

/-- What a ring is to its callers.  To those that read and write it is the bytes
it holds, the number of bytes it can reach, and its capacity unless that is at
most two.  To those that use every public member function it is the bytes, the
capacity and the maximum.  The offset of the bytes in the vector is no part of it. -/
theorem indistinguishable_iff (h : Valid s) (h' : Valid s') :
    (Indistinguishable s s' ↔ s.contents = s'.contents ∧
      limit s.capacity s.maxCapacity = limit s'.capacity s'.maxCapacity ∧
      (s.capacity = s'.capacity ∨ s.capacity ≤ 2 ∧ s'.capacity ≤ 2)) ∧
    (Interchangeable s s' ↔ s.contents = s'.contents ∧ s.capacity = s'.capacity ∧
      s.maxCapacity = s'.maxCapacity) :=
  ⟨indistinguishable_iff_limit h h', interchangeable_iff h h'⟩

/-- One byte in the first cell of four. -/
def straight : RingBuffer :=
  { buffer := #[7, 0, 0, 0], readerIndex := 0, headerIndex := 1, size := 1, maxCapacity := 8 }

/-- The same byte in the last cell. -/
def wrapped : RingBuffer :=
  { buffer := #[0, 0, 0, 7], readerIndex := 3, headerIndex := 0, size := 1, maxCapacity := 8 }

theorem indistinguishable_iff_wrapped :
    (Indistinguishable straight wrapped ∧ Interchangeable straight wrapped) ∧
      Indistinguishable (init 1 2) (init 2 2) ∧ ¬Interchangeable (init 1 2) (init 2 2) := by
  have hstraight : Valid straight := ⟨by decide, by decide, by decide, by decide⟩
  have hwrapped : Valid wrapped := ⟨by decide, by decide, by decide, by decide⟩
  have hone : Valid (init 1 2) := ⟨by decide, by decide, by decide, by decide⟩
  have htwo : Valid (init 2 2) := ⟨by decide, by decide, by decide, by decide⟩
  have hoffset := indistinguishable_iff hstraight hwrapped
  have hsmall := indistinguishable_iff hone htwo
  refine ⟨⟨hoffset.1.mpr ⟨by decide, by decide, .inl rfl⟩,
    hoffset.2.mpr ⟨by decide, by decide, by decide⟩⟩, ?_, fun hsame => ?_⟩
  · exact hsmall.1.mpr ⟨by decide, by decide, .inr ⟨by decide, by decide⟩⟩
  · exact absurd (hsmall.2.mp hsame).2.1 (by decide)

/-! ## The check before a write -/

/-- `isWriteIndexValid` counts the bytes held as the steps from the reader to the
header, and there are none of these on a full ring. -/
theorem isWriteIndexValid_run (h : Holds s c m items) (n : Nat) :
    (isWriteIndexValid n).run s =
      .ok (decide (((if items.length = c then 0 else items.length) + n) % 2 ^ 64 ≤ c)) s := by
  have hreader : s.readerIndex < c := h.capacity_eq ▸ h.readerIndex_lt
  have hlength := h.length_le
  have hheader : s.headerIndex = (s.readerIndex + items.length) % c := by
    rw [h.headerIndex_eq, h.size_eq, h.capacity_eq]
  have hdistance : (if s.headerIndex ≥ s.readerIndex then s.headerIndex - s.readerIndex
      else s.capacity - s.readerIndex + s.headerIndex) =
        if items.length = c then 0 else items.length := by
    rw [hheader, h.capacity_eq]
    rcases Nat.lt_or_ge (s.readerIndex + items.length) c with hlt | hge
    · rw [Nat.mod_eq_of_lt hlt]
      split <;> split <;> omega
    · rw [Nat.mod_eq_sub_mod hge, Nat.mod_eq_of_lt (by omega)]
      split <;> split <;> omega
  rw [isWriteIndexValid, run_bind, run_self, Exit.andThen_ok, run_pure, hdistance, h.capacity_eq,
    UInt64.toNat_ofNat']

/-- In every state that calls from outside reach, as long as each resize among them
asks for more than the maximum or for more cells than there are bytes, the check
answers whether `n` bytes fit the cells there are, except that a full ring lets
pass what an empty one would hold, and a sum past the word what no ring holds. -/
theorem isWriteIndexValid_exact_iff (hpos : 1 ≤ c) (hle : c ≤ m) {calls : List PublicCall}
    (hroomy : PublicCall.AllRoomy calls (init c m)) {n : Nat} (hword : n < 2 ^ 64)
    (hmemory : m < 2 ^ 64) :
    ∃ ring results s' valid, construct c m = .ok ring ∧
      runAll (calls.map PublicCall.exec) ring = some (results, s') ∧
      (isWriteIndexValid n).run s' = .ok valid s' ∧
      ((valid = true ↔ s'.size + n ≤ s'.capacity) ↔
        if s'.size = s'.capacity then n = 0 ∨ s'.capacity < n else s'.size + n < 2 ^ 64) := by
  obtain ⟨results, s', hrun, c', items, h⟩ :=
    run_usable calls ⟨c, [], init_holds hpos hle⟩ hroomy
  refine ⟨init c m, results, s', _, construct_eq hle, hrun, isWriteIndexValid_run h n, ?_⟩
  have hmax := h.le_max
  have hlength := h.length_le
  rw [h.size_eq, h.capacity_eq, decide_eq_true_eq]
  split
  · rw [Nat.zero_add, Nat.mod_eq_of_lt hword]
    omega
  · rcases Nat.lt_or_ge (items.length + n) (2 ^ 64) with hlt | hge
    · rw [Nat.mod_eq_of_lt hlt]
      omega
    · rw [Nat.mod_eq_sub_mod hge, Nat.mod_eq_of_lt (by omega)]
      omega

/-- A ring resized to three cells and filled. -/
def filledAfterResize : List PublicCall :=
  [.member (.operation (.push 1)), .resizeBuffer 3, .member (.operation (.writeU16 258))]

theorem isWriteIndexValid_exact_iff_resized :
    ∃ ring results s' valid, construct 2 8 = .ok ring ∧
      runAll (filledAfterResize.map PublicCall.exec) ring = some (results, s') ∧
      (isWriteIndexValid 1).run s' = .ok valid s' ∧
      ((valid = true ↔ s'.size + 1 ≤ s'.capacity) ↔
        if s'.size = s'.capacity then 1 = 0 ∨ s'.capacity < 1 else s'.size + 1 < 2 ^ 64) := by
  have hroomy : PublicCall.AllRoomy filledAfterResize (init 2 8) := by
    refine ⟨trivial, fun result t hpush => ?_⟩
    cases hpush
    exact ⟨.inr (by decide), fun _ _ _ => ⟨trivial, fun _ _ _ => trivial⟩⟩
  exact isWriteIndexValid_exact_iff (by decide) (by decide) hroomy (by decide) (by decide)

end RingBuffer
end PlaySocket
