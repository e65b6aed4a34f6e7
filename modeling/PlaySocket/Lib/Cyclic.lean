import Mathlib.Data.Nat.ModEq

/-!
# Cyclic windows

`window buf start n` is what a reader of `n` cells sees who starts at index
`start` of an array and goes on at index zero after the last one.
-/

namespace Cyclic

variable {α : Type} [Inhabited α]

def window (buf : Array α) (start n : Nat) : List α :=
  (List.range n).map fun i => buf[(start + i) % buf.size]!

@[simp] theorem length_window (buf : Array α) (start n : Nat) :
    (window buf start n).length = n := by
  rw [window, List.length_map, List.length_range]

theorem getElem_window {buf : Array α} {start n i : Nat} (h : i < (window buf start n).length) :
    (window buf start n)[i] = buf[(start + i) % buf.size]! := by
  simp only [window, List.getElem_map, List.getElem_range]

theorem window_congr {buf buf' : Array α} {start start' n : Nat}
    (h : ∀ i, i < n → buf[(start + i) % buf.size]! = buf'[(start' + i) % buf'.size]!) :
    window buf start n = window buf' start' n :=
  List.map_congr_left fun i hi => h i (List.mem_range.mp hi)

/-- A window over all cells from the first on is the array. -/
theorem eq_of_window {buf buf' : Array α} {n : Nat} (hsize : buf.size = n)
    (hsize' : buf'.size = n) (h : window buf 0 n = window buf' 0 n) : buf = buf' := by
  refine Array.ext (hsize.trans hsize'.symm) fun i hi hi' => ?_
  have hcell : (window buf 0 n)[i]? = (window buf' 0 n)[i]? := by rw [h]
  rw [window, window, List.getElem?_map, List.getElem?_map,
    List.getElem?_range (hsize ▸ hi), Option.map_some, Option.map_some, Nat.zero_add,
    Nat.mod_eq_of_lt hi, Nat.mod_eq_of_lt hi', getElem!_pos buf i hi,
    getElem!_pos buf' i hi'] at hcell
  exact Option.some.inj hcell

theorem window_mod (buf : Array α) (start n : Nat) :
    window buf (start % buf.size) n = window buf start n :=
  window_congr fun i _ => by rw [Nat.mod_add_mod]

/-- The last cell of a window. -/
theorem window_succ (buf : Array α) (start n : Nat) :
    window buf start (n + 1) = window buf start n ++ [buf[(start + n) % buf.size]!] := by
  simp only [window, List.range_succ, List.map_append, List.map_cons, List.map_nil]

/-- Moving the reader drops cells from the front. -/
theorem drop_window (buf : Array α) (start n k : Nat) :
    (window buf start n).drop k = window buf (start + k) (n - k) := by
  refine List.ext_getElem (by simp) (fun i h₁ h₂ => ?_)
  rw [List.getElem_drop, getElem_window, getElem_window, Nat.add_assoc]

theorem getElem!_set {buf : Array α} {i j : Nat} (hi : i < buf.size) (v : α) :
    (buf.set i v hi)[j]! = if i = j then v else buf[j]! := by
  rw [Array.getElem!_eq_getD, Array.getD_eq_getD_getElem?, Array.getElem?_set,
    Array.getElem!_eq_getD, Array.getD_eq_getD_getElem?]
  split <;> rfl

/-- Offsets below the number of cells lead to different cells. -/
theorem mod_ne_mod {start i j size : Nat} (hij : i < j) (hj : j < size) :
    (start + i) % size ≠ (start + j) % size := by
  intro h
  have hmod : i % size = j % size := Nat.ModEq.add_left_cancel' start h
  rw [Nat.mod_eq_of_lt (by omega), Nat.mod_eq_of_lt hj] at hmod
  omega

/-- Writing the cell behind a window that is not full extends the window. -/
theorem window_set {buf : Array α} {start n : Nat} (hn : n < buf.size)
    (hi : (start + n) % buf.size < buf.size) (v : α) :
    window (buf.set ((start + n) % buf.size) v hi) start (n + 1) = window buf start n ++ [v] := by
  rw [window_succ, Array.size_set, getElem!_set, if_pos rfl]
  congr 1
  refine window_congr (fun i hin => ?_)
  rw [Array.size_set, getElem!_set, if_neg (mod_ne_mod hin hn).symm]

end Cyclic
