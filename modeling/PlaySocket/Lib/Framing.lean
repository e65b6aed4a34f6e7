import Mathlib.Data.List.Basic

/-!
# Length-prefixed frames

A framing cuts a stream into frames.  A frame is a header of a fixed length
followed by a body whose length the header announces.  `decode` takes frames off
the front as long as whole ones are there and returns them with the part of the
stream that is left.

`next_iff` says when a frame comes off the front, and everything else follows
from it: decoding loses nothing (`decode_items`), a stream put together from
frames is decoded into them (`decode_frames`), and decoding a prefix first and
the rest later changes nothing (`decode_append`).
-/

structure Framing (α : Type) where
  headerLength : Nat
  headerLength_pos : 0 < headerLength
  bodyLength : List α → Nat

/-- A header and a body of the lengths the framing asks for. -/
structure Frame {α : Type} (F : Framing α) where
  header : List α
  body : List α
  length_header : header.length = F.headerLength
  length_body : body.length = F.bodyLength header

variable {α : Type}

namespace Framing

/-- The frame as it stands in a stream. -/
def items {F : Framing α} (f : Frame F) : List α := f.header ++ f.body

theorem length_items {F : Framing α} (f : Frame F) :
    (items f).length = F.headerLength + F.bodyLength f.header := by
  rw [items, List.length_append, f.length_header, f.length_body]

variable (F : Framing α)

/-- The frame at the front and what follows it. -/
def next (xs : List α) : Option (Frame F × List α) :=
  if h : F.headerLength + F.bodyLength (xs.take F.headerLength) ≤ xs.length then
    some
      ({ header := xs.take F.headerLength
         body := (xs.drop F.headerLength).take (F.bodyLength (xs.take F.headerLength))
         length_header := List.length_take_of_le (by omega)
         length_body := List.length_take_of_le (by rw [List.length_drop]; omega) },
        xs.drop (F.headerLength + F.bodyLength (xs.take F.headerLength)))
  else none

variable {F}

theorem next_frame (f : Frame F) (rest : List α) : next F (items f ++ rest) = some (f, rest) := by
  obtain ⟨header, body, hheader, hbody⟩ := f
  have htake : (items ⟨header, body, hheader, hbody⟩ ++ rest).take F.headerLength = header := by
    rw [items, List.append_assoc, List.take_left' hheader]
  have hdrop : (items ⟨header, body, hheader, hbody⟩ ++ rest).drop F.headerLength =
      body ++ rest := by
    rw [items, List.append_assoc, List.drop_left' hheader]
  have hlength := length_items ⟨header, body, hheader, hbody⟩
  have hwhole : F.headerLength + F.bodyLength header ≤
      (items ⟨header, body, hheader, hbody⟩ ++ rest).length := by
    rw [List.length_append, hlength]
    exact Nat.le_add_right _ _
  unfold next
  simp only [htake, hdrop, ← List.drop_drop, List.take_left' hbody, List.drop_left' hbody]
  exact dif_pos hwhole

/-- A frame comes off the front exactly when the stream starts with it. -/
theorem next_iff (xs rest : List α) (f : Frame F) :
    next F xs = some (f, rest) ↔ xs = items f ++ rest := by
  constructor
  · intro h
    unfold next at h
    split at h
    · cases h
      rw [items, List.append_assoc, ← List.drop_drop, List.take_append_drop,
        List.take_append_drop]
    · cases h
  · intro h
    rw [h]
    exact next_frame f rest

theorem next_length {xs rest : List α} {f : Frame F} (h : next F xs = some (f, rest)) :
    rest.length < xs.length := by
  have hpos := F.headerLength_pos
  rw [(next_iff xs rest f).mp h, List.length_append, length_items]
  omega

theorem next_eq_none_iff (xs : List α) :
    next F xs = none ↔ xs.length < F.headerLength + F.bodyLength (xs.take F.headerLength) := by
  constructor
  · intro h
    by_contra hle
    unfold next at h
    rw [dif_pos (Nat.le_of_not_lt hle)] at h
    cases h
  · intro h
    exact dif_neg (Nat.not_le.mpr h)

/-! ## Whole streams -/

variable (F) in
/-- The frames at the front and what is left. -/
def decode (xs : List α) : List (Frame F) × List α :=
  match _h : next F xs with
  | none => ([], xs)
  | some (f, rest) => (f :: (decode rest).1, (decode rest).2)
termination_by xs.length
decreasing_by exact next_length _h

theorem decode_of_none {xs : List α} (h : next F xs = none) : decode F xs = ([], xs) := by
  rw [decode]
  split
  · rfl
  · simp_all

theorem decode_of_frame (f : Frame F) (rest : List α) :
    decode F (items f ++ rest) = (f :: (decode F rest).1, (decode F rest).2) := by
  rw [decode]
  split
  · next h => rw [next_frame] at h; cases h
  · next h => rw [next_frame] at h; cases h; rfl

/-- Induction on the frames at the front of a stream. -/
theorem decode_induction {P : List α → Prop} (stuck : ∀ xs, next F xs = none → P xs)
    (frame : ∀ (f : Frame F) rest, P rest → P (items f ++ rest)) (xs : List α) : P xs := by
  induction h : xs.length using Nat.strongRecOn generalizing xs with
  | ind n ih =>
    cases hnext : next F xs with
    | none => exact stuck xs hnext
    | some fr =>
      obtain ⟨f, rest⟩ := fr
      have hlt := next_length hnext
      rw [(next_iff xs rest f).mp hnext]
      exact frame f rest (ih rest.length (h ▸ hlt) rest rfl)

/-- Nothing is lost. -/
theorem decode_items (xs : List α) : (decode F xs).1.flatMap items ++ (decode F xs).2 = xs := by
  induction xs using decode_induction (F := F) with
  | stuck xs h => rw [decode_of_none h, List.flatMap_nil, List.nil_append]
  | frame f rest ih => rw [decode_of_frame, List.flatMap_cons, List.append_assoc, ih]

/-- What is left starts with no whole frame. -/
theorem next_decode (xs : List α) : next F (decode F xs).2 = none := by
  induction xs using decode_induction (F := F) with
  | stuck xs h => rw [decode_of_none h, h]
  | frame f rest ih => rw [decode_of_frame, ih]

theorem decode_frames (fs : List (Frame F)) {rest : List α} (h : next F rest = none) :
    decode F (fs.flatMap items ++ rest) = (fs, rest) := by
  induction fs with
  | nil => rw [List.flatMap_nil, List.nil_append, decode_of_none h]
  | cons f fs ih => rw [List.flatMap_cons, List.append_assoc, decode_of_frame, ih]

/-- The stream may be cut anywhere. -/
theorem decode_append (xs ys : List α) :
    decode F (xs ++ ys) =
      ((decode F xs).1 ++ (decode F ((decode F xs).2 ++ ys)).1,
        (decode F ((decode F xs).2 ++ ys)).2) := by
  induction xs using decode_induction (F := F) with
  | stuck xs h => rw [decode_of_none h, List.nil_append]
  | frame f rest ih =>
    rw [List.append_assoc, decode_of_frame, ih, decode_of_frame, List.cons_append]

/-- More of the stream makes more frames. -/
theorem decode_mono {xs ys : List α} (h : xs <+: ys) : (decode F xs).1 <+: (decode F ys).1 := by
  obtain ⟨zs, rfl⟩ := h
  rw [decode_append]
  exact List.prefix_append _ _

/-- A stream of frames, cut anywhere, is some of the frames and a part of the next. -/
theorem decode_cut {fs : List (Frame F)} {xs : List α} (h : xs <+: fs.flatMap items) :
    ∃ back, fs = (decode F xs).1 ++ back ∧
      ((decode F xs).2 = [] ∨ ∃ f ∈ back.head?, (decode F xs).2.length < (items f).length) := by
  induction fs generalizing xs with
  | nil =>
    rw [List.flatMap_nil, List.prefix_nil] at h
    have hnone : next F xs = none := by
      rw [next_eq_none_iff, h]
      exact Nat.lt_of_lt_of_le F.headerLength_pos (Nat.le_add_right _ _)
    rw [decode_of_none hnone]
    exact ⟨[], rfl, .inl h⟩
  | cons f fs ih =>
    rw [List.flatMap_cons] at h
    rcases Nat.lt_or_ge xs.length (items f).length with hshort | hlong
    · have hnone : next F xs = none := by
        rcases Option.eq_none_or_eq_some (next F xs) with hnone | hsome
        · exact hnone
        · obtain ⟨⟨g, rest⟩, hnext⟩ := hsome
          obtain ⟨more, hmore⟩ := h
          have hboth : next F (items f ++ fs.flatMap items) = some (g, rest ++ more) := by
            rw [← hmore, (next_iff xs rest g).mp hnext, List.append_assoc, next_frame]
          rw [next_frame] at hboth
          obtain ⟨rfl, _⟩ := Prod.mk.inj (Option.some.inj hboth)
          rw [(next_iff xs rest f).mp hnext, List.length_append] at hshort
          omega
      rw [decode_of_none hnone]
      exact ⟨f :: fs, rfl, .inr ⟨f, rfl, hshort⟩⟩
    · obtain ⟨more, hmore⟩ := h
      obtain ⟨rest, rfl⟩ : items f <+: xs :=
        List.prefix_of_prefix_length_le (List.prefix_append _ _) ⟨more, hmore⟩ hlong
      rw [List.append_assoc, List.append_cancel_left_eq] at hmore
      obtain ⟨back, hfs, hcut⟩ := ih ⟨more, hmore⟩
      rw [decode_of_frame]
      exact ⟨back, by rw [List.cons_append, ← hfs], hcut⟩

end Framing

/-- Two ways to lay out a list in pieces of equal lengths give the same whole
only if they give the same pieces. -/
theorem List.flatMap_inj_of_length {β γ : Type} {f g : β → List γ} {xs : List β}
    (hlength : ∀ x ∈ xs, (f x).length = (g x).length) (h : xs.flatMap f = xs.flatMap g) :
    ∀ x ∈ xs, f x = g x := by
  induction xs with
  | nil => intro x hx; cases hx
  | cons y ys ih =>
    rw [List.flatMap_cons, List.flatMap_cons] at h
    obtain ⟨hhead, htail⟩ := List.append_inj h (hlength y List.mem_cons_self)
    intro x hx
    rcases List.mem_cons.mp hx with heq | hmem
    · rw [heq, hhead]
    · exact ih (fun z hz => hlength z (List.mem_cons_of_mem y hz)) htail x hmem
