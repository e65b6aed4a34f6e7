import Mathlib.Data.List.Basic

/-!
# Channels

A channel keeps what is put into it in order and may lose some of it on the way.
`Conveys reliable given underway taken` says that what has been taken out and what
is under way make up what was put in, apart from what was lost, and that nothing
was lost if the channel is reliable.  One lemma for each thing that can happen
to a channel says that it stays so.
-/

variable {α : Type}

structure Conveys (reliable : Prop) (given underway taken : List α) : Prop where
  sound : (taken ++ underway).Sublist given
  complete : reliable → taken ++ underway = given

namespace Conveys

variable {reliable reliable' : Prop} {given underway underway' taken xs : List α}

theorem start (reliable : Prop) : Conveys reliable ([] : List α) [] [] :=
  ⟨List.Sublist.refl _, fun _ => rfl⟩

theorem weaken (h : Conveys reliable given underway taken) (himp : reliable' → reliable) :
    Conveys reliable' given underway taken :=
  ⟨h.sound, fun hreliable => h.complete (himp hreliable)⟩

theorem give (h : Conveys reliable given underway taken) (xs : List α) :
    Conveys reliable (given ++ xs) (underway ++ xs) taken where
  sound := by
    rw [← List.append_assoc]
    exact List.Sublist.append h.sound (List.Sublist.refl xs)
  complete hreliable := by rw [← List.append_assoc, h.complete hreliable]

theorem discard (h : Conveys reliable given underway taken) (xs : List α)
    (hunreliable : xs ≠ [] → ¬reliable) : Conveys reliable (given ++ xs) underway taken where
  sound := h.sound.trans (List.sublist_append_left _ _)
  complete hreliable := by
    have hnil : xs = [] := by
      by_contra hne
      exact hunreliable hne hreliable
    rw [hnil, List.append_nil, h.complete hreliable]

theorem take (h : Conveys reliable given (xs ++ underway) taken) :
    Conveys reliable given underway (taken ++ xs) where
  sound := by
    rw [List.append_assoc]
    exact h.sound
  complete hreliable := by rw [List.append_assoc, h.complete hreliable]

theorem lose (h : Conveys reliable given underway taken) (hunderway : underway'.Sublist underway)
    (hunreliable : ¬reliable) : Conveys reliable given underway' taken where
  sound := (List.Sublist.append (List.Sublist.refl taken) hunderway).trans h.sound
  complete hreliable := absurd hreliable hunreliable

end Conveys
