import Mathlib.Logic.Function.Basic

/-!
# Transition machines

A machine has an initial state and a partial step on events, and a run is a list
of events each of which the state before it admits.  What holds at the start and
is kept by every step holds after every run (`run_induction`), and it may speak
of the events so far.  A machine may be restricted to the events a predicate
admits.  Machines may run side by side, one for each key, and a run of a machine
that uses a number up is as long as the number.
-/

structure Machine (σ ε : Type) where
  init : σ
  step : σ → ε → Option σ

namespace Machine

variable {σ ε : Type}

def runFrom (M : Machine σ ε) (s : σ) : List ε → Option σ
  | [] => some s
  | e :: events => (M.step s e).bind fun t => M.runFrom t events

def run (M : Machine σ ε) (events : List ε) : Option σ := M.runFrom M.init events

theorem runFrom_append (M : Machine σ ε) (events : List ε) :
    ∀ (s : σ) (rest : List ε),
      M.runFrom s (events ++ rest) = (M.runFrom s events).bind fun t => M.runFrom t rest := by
  induction events with
  | nil => intro s rest; rfl
  | cons e events ih =>
    intro s rest
    rw [List.cons_append, runFrom, runFrom, Option.bind_assoc]
    exact Option.bind_congr fun t _ => ih t rest

/-- The last step of a run, and the run before it. -/
theorem run_concat {M : Machine σ ε} {events : List ε} {e : ε} {s : σ} :
    M.run (events ++ [e]) = some s ↔ ∃ t, M.run events = some t ∧ M.step t e = some s := by
  rw [run, runFrom_append, Option.bind_eq_some_iff]
  simp only [runFrom, Option.bind_fun_some]
  rfl

def restrict (M : Machine σ ε) (admits : σ → ε → Bool) : Machine σ ε where
  init := M.init
  step s e := if admits s e = true then M.step s e else none

theorem step_of_restrict {M : Machine σ ε} {admits : σ → ε → Bool} {s t : σ} {e : ε}
    (h : (M.restrict admits).step s e = some t) : admits s e = true ∧ M.step s e = some t := by
  change (if admits s e = true then M.step s e else none) = some t at h
  by_cases hadmits : admits s e = true
  · rw [if_pos hadmits] at h
    exact ⟨hadmits, h⟩
  · rw [if_neg hadmits] at h
    cases h

theorem step_restrict {M : Machine σ ε} {admits : σ → ε → Bool} {s : σ} {e : ε}
    (h : admits s e = true) : (M.restrict admits).step s e = M.step s e := if_pos h

theorem runFrom_induction {M : Machine σ ε} {P : List ε → σ → Prop}
    (hstep : ∀ events s e t, P events s → M.step s e = some t → P (events ++ [e]) t)
    (events : List ε) :
    ∀ past s t, P past s → M.runFrom s events = some t → P (past ++ events) t := by
  induction events with
  | nil =>
    intro past s t h hrun
    cases hrun
    rwa [List.append_nil]
  | cons e events ih =>
    intro past s t h hrun
    obtain ⟨s₁, hs₁, hrest⟩ := Option.bind_eq_some_iff.mp hrun
    have h₁ := ih (past ++ [e]) s₁ t (hstep past s e s₁ h hs₁) hrest
    rwa [List.append_assoc, List.singleton_append] at h₁

theorem run_induction {M : Machine σ ε} {P : List ε → σ → Prop} (hinit : P [] M.init)
    (hstep : ∀ events s e t, P events s → M.step s e = some t → P (events ++ [e]) t)
    {events : List ε} {s : σ} (hrun : M.run events = some s) : P events s :=
  runFrom_induction hstep events [] M.init s hinit hrun

/-- The case of a property of the state alone. -/
theorem invariant {M : Machine σ ε} {P : σ → Prop} (hinit : P M.init)
    (hstep : ∀ s e t, P s → M.step s e = some t → P t) {events : List ε} {s : σ}
    (hrun : M.run events = some s) : P s := by
  apply run_induction (P := fun _ s => P s) hinit _ hrun
  intro _ s e t h hs
  exact hstep s e t h hs

/-! ## Machines side by side

One machine for each key, which an event with that key moves. -/

variable {κ : Type} [DecidableEq κ]

def keyed (M : Machine σ ε) (key : ε → κ) : Machine (κ → σ) ε where
  init := fun _ => M.init
  step s e := (M.step (s (key e)) e).map fun t => Function.update s (key e) t

/-- The machines run together if each of them runs on the events with its key. -/
theorem runFrom_keyed_iff (M : Machine σ ε) (key : ε → κ) (events : List ε) :
    ∀ s s' : κ → σ, (M.keyed key).runFrom s events = some s' ↔
      ∀ k, M.runFrom (s k) (events.filter fun e => decide (key e = k)) = some (s' k) := by
  induction events with
  | nil =>
    intro s s'
    constructor
    · intro h k
      cases h
      rfl
    · intro h
      exact congrArg some (funext fun k => Option.some.inj (h k))
  | cons e events ih =>
    intro s s'
    have hself : (e :: events).filter (fun e' => decide (key e' = key e)) =
        e :: events.filter fun e' => decide (key e' = key e) :=
      List.filter_cons_of_pos (decide_eq_true rfl)
    rw [runFrom]
    cases hstep : M.step (s (key e)) e with
    | none =>
      have hnone : (M.keyed key).step s e = none := by
        show (M.step (s (key e)) e).map _ = none
        rw [hstep, Option.map_none]
      rw [hnone, Option.bind_none]
      constructor
      · intro h
        cases h
      · intro h
        have hkey := h (key e)
        rw [hself, runFrom, hstep, Option.bind_none] at hkey
        cases hkey
    | some t =>
      have hsome : (M.keyed key).step s e = some (Function.update s (key e) t) := by
        show (M.step (s (key e)) e).map _ = _
        rw [hstep, Option.map_some]
      rw [hsome, Option.bind_some, ih]
      refine forall_congr' fun k => ?_
      by_cases hk : key e = k
      · subst hk
        rw [Function.update_self, hself, runFrom, hstep, Option.bind_some]
      · have hother : (e :: events).filter (fun e' => decide (key e' = k)) =
            events.filter fun e' => decide (key e' = k) :=
          List.filter_cons_of_neg fun h => hk (of_decide_eq_true h)
        rw [Function.update_of_ne fun h => hk h.symm, hother]

/-! ## Runs that use something up

A machine each of whose steps lowers a number by one, and which has a step while
the number is not zero, runs that many steps and stops, whatever it chooses. -/

/-- A rank of the states that satisfy `P`, and the number of steps left. -/
structure Ranked (M : Machine σ ε) (P : σ → Prop) (rank : σ → Nat) : Prop where
  keeps : ∀ {s e t}, P s → M.step s e = some t → P t
  lowers : ∀ {s e t}, P s → M.step s e = some t → rank t + 1 = rank s
  moves : ∀ {s}, P s → rank s ≠ 0 → ∃ e t, M.step s e = some t

theorem Ranked.runFrom {M : Machine σ ε} {P : σ → Prop} {rank : σ → Nat} (h : Ranked M P rank)
    (events : List ε) :
    ∀ {s t : σ}, P s → M.runFrom s events = some t → P t ∧ events.length + rank t = rank s := by
  induction events with
  | nil =>
    intro s t hs hrun
    cases hrun
    exact ⟨hs, Nat.zero_add _⟩
  | cons e events ih =>
    intro s t hs hrun
    obtain ⟨s₁, hstep, hrest⟩ := Option.bind_eq_some_iff.mp hrun
    obtain ⟨ht, hlength⟩ := ih (h.keeps hs hstep) hrest
    have hlowers := h.lowers hs hstep
    rw [List.length_cons]
    exact ⟨ht, by omega⟩

theorem Ranked.exhausts {M : Machine σ ε} {P : σ → Prop} {rank : σ → Nat} (h : Ranked M P rank)
    {s : σ} (hs : P s) : ∃ events t, M.runFrom s events = some t ∧ rank t = 0 := by
  induction hrank : rank s generalizing s with
  | zero => exact ⟨[], s, rfl, hrank⟩
  | succ n ih =>
    obtain ⟨e, s₁, hstep⟩ := h.moves hs (by omega)
    have hlowers := h.lowers hs hstep
    obtain ⟨events, t, hrun, hzero⟩ := ih (h.keeps hs hstep) (by omega)
    refine ⟨e :: events, t, ?_, hzero⟩
    rw [Machine.runFrom, hstep, Option.bind_some, hrun]

end Machine
