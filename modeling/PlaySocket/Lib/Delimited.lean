import Mathlib.Data.List.Basic

/-!
# Delimited text

`pieces sep` cuts a text as a loop of `getline` does.  A delimiter ends a piece,
the end of the text ends one that has begun, and no piece begins at the end.  Of
pieces that are not empty and hold no delimiter the text with one delimiter
between any two gives them back (`pieces_intercalate`).
-/

namespace Delimited

variable {α : Type} [DecidableEq α]

/-- The pieces of a text of which `piece` has been read. -/
def piecesFrom (sep : α) : List α → List α → List (List α)
  | [], [] => []
  | x :: piece, [] => [x :: piece]
  | piece, x :: xs =>
    if x = sep then piece :: piecesFrom sep [] xs else piecesFrom sep (piece ++ [x]) xs

def pieces (sep : α) (text : List α) : List (List α) := piecesFrom sep [] text

variable {sep : α}

theorem piecesFrom_append {xs : List α} (h : sep ∉ xs) :
    ∀ piece rest, piecesFrom sep piece (xs ++ rest) = piecesFrom sep (piece ++ xs) rest := by
  induction xs with
  | nil => intro piece rest; rw [List.nil_append, List.append_nil]
  | cons x xs ih =>
    intro piece rest
    have hx : x ≠ sep := fun heq => h (heq ▸ List.mem_cons_self)
    have hxs : sep ∉ xs := fun hmem => h (List.mem_cons_of_mem x hmem)
    have hpiece : piece ++ x :: xs = piece ++ [x] ++ xs := by
      rw [List.append_assoc, List.singleton_append]
    rw [List.cons_append, piecesFrom, if_neg hx, ih hxs, hpiece]

theorem pieces_single {xs : List α} (hne : xs ≠ []) (h : sep ∉ xs) : pieces sep xs = [xs] := by
  have happend := piecesFrom_append h [] []
  rw [List.append_nil, List.nil_append] at happend
  rw [pieces, happend]
  cases xs with
  | nil => exact absurd rfl hne
  | cons x xs => rfl

theorem pieces_delimited {xs : List α} (h : sep ∉ xs) (rest : List α) :
    pieces sep (xs ++ sep :: rest) = xs :: pieces sep rest := by
  rw [pieces, piecesFrom_append h, List.nil_append]
  cases xs with
  | nil => rw [piecesFrom, if_pos rfl, pieces]
  | cons x xs => rw [piecesFrom, if_pos rfl, pieces]

theorem pieces_intercalate {texts : List (List α)}
    (h : ∀ text ∈ texts, text ≠ [] ∧ sep ∉ text) :
    pieces sep ([sep].intercalate texts) = texts := by
  induction texts with
  | nil => rfl
  | cons text texts ih =>
    obtain ⟨hne, hsep⟩ := h text List.mem_cons_self
    have htail := ih fun other hmem => h other (List.mem_cons_of_mem text hmem)
    cases texts with
    | nil =>
      rw [List.intercalate_singleton]
      exact pieces_single hne hsep
    | cons other texts =>
      rw [List.intercalate_cons_cons, List.append_assoc, List.singleton_append,
        pieces_delimited hsep, htail]

end Delimited
