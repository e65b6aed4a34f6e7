import Mathlib.Logic.Basic

/-!
# Calls that return, throw, or go wrong

A member function of an object reads and writes the object, may throw, and may
run into behaviour its language leaves undefined.  `Exec ε σ α` is such a call
on an object of type `σ`.  An exception keeps the state it left behind, since a
caller that catches it goes on with that object.  A fault keeps nothing, since
no later state is defined.

`Sim R x y` says that two calls, on objects of two types related by `R`, do the
same thing as far as a caller can see, and `Keeps P x` that a call keeps an
invariant.  `runAll` makes calls one after another, going on after an exception,
and `Sim.runAll` and `Keeps.runAll` carry what the single calls do to whole runs.
`Exit.Same` compares ends that may be faults, and `resultsOf_same` the runs.
-/

/-- Ways a run can leave defined behaviour.  `diverged` stands for a loop that
used up the number of rounds it was given. -/
inductive Fault where
  | outOfBounds
  | moduloZero
  | nullPointer
  | diverged
deriving DecidableEq, Repr

/-- How a call ends. -/
inductive Exit (ε σ α : Type) where
  | ok (a : α) (s : σ)
  | thrown (e : ε) (s : σ)
  | fault (w : Fault)
deriving DecidableEq, Repr

structure Exec (ε σ α : Type) where
  run : σ → Exit ε σ α

variable {ε σ τ α β : Type}

/-- Go on with `f` if the call returned. -/
def Exit.andThen : Exit ε σ α → (α → σ → Exit ε σ β) → Exit ε σ β
  | .ok a s, f => f a s
  | .thrown e s, _ => .thrown e s
  | .fault w, _ => .fault w

@[simp] theorem Exit.andThen_ok (a : α) (s : σ) (f : α → σ → Exit ε σ β) :
    (Exit.ok a s : Exit ε σ α).andThen f = f a s := rfl

@[simp] theorem Exit.andThen_thrown (e : ε) (s : σ) (f : α → σ → Exit ε σ β) :
    (Exit.thrown e s : Exit ε σ α).andThen f = .thrown e s := rfl

@[simp] theorem Exit.andThen_fault (w : Fault) (f : α → σ → Exit ε σ β) :
    (Exit.fault w : Exit ε σ α).andThen f = .fault w := rfl

theorem Exit.andThen_unit (x : Exit ε σ Unit) : (x.andThen fun _ t => .ok () t) = x := by
  cases x <;> rfl

namespace Exec

instance : Monad (Exec ε σ) where
  pure a := ⟨fun s => .ok a s⟩
  bind x f := ⟨fun s => (x.run s).andThen fun a t => (f a).run t⟩

/-- The object as it stands. -/
def self : Exec ε σ σ := ⟨fun s => .ok s s⟩

def update (f : σ → σ) : Exec ε σ Unit := ⟨fun s => .ok () (f s)⟩

def raise (e : ε) : Exec ε σ α := ⟨fun s => .thrown e s⟩

def undefined (w : Fault) : Exec ε σ α := ⟨fun _ => .fault w⟩

/-- A call that leaves the object alone. -/
def fromExcept : Except ε α → Exec ε σ α
  | .ok a => pure a
  | .error e => raise e

/-- A call on a part of the object. -/
def zoom (get : σ → τ) (put : τ → σ → σ) (x : Exec ε τ α) : Exec ε σ α :=
  ⟨fun s =>
    match x.run (get s) with
    | .ok a t => .ok a (put t s)
    | .thrown e t => .thrown e (put t s)
    | .fault w => .fault w⟩

/-- `try { x } catch (e) { handler(e) }`. -/
def attempt (x : Exec ε σ α) (handler : ε → Exec ε σ α) : Exec ε σ α :=
  ⟨fun s =>
    match x.run s with
    | .ok a t => .ok a t
    | .thrown e t => (handler e).run t
    | .fault w => .fault w⟩

/-- `if (c) x;` -/
def when (c : Prop) [Decidable c] (x : Exec ε σ Unit) : Exec ε σ Unit :=
  if c then x else pure ()

/-- `for (i = start; i < start + count; i++) acc = body(i, acc)`. -/
def forRange (body : Nat → β → Exec ε σ β) : Nat → Nat → β → Exec ε σ β
  | _, 0, acc => pure acc
  | i, count + 1, acc => do
    let acc ← body i acc
    forRange body (i + 1) count acc

/-- `for (x : xs) body(x)`. -/
def forEach (body : α → Exec ε σ Unit) : List α → Exec ε σ Unit
  | [] => pure ()
  | x :: xs => do
    body x
    forEach body xs

@[simp] theorem run_pure (a : α) (s : σ) : (pure a : Exec ε σ α).run s = .ok a s := rfl

@[simp] theorem run_bind (x : Exec ε σ α) (f : α → Exec ε σ β) (s : σ) :
    (x >>= f).run s = (x.run s).andThen fun a t => (f a).run t := rfl

@[simp] theorem run_self (s : σ) : (self : Exec ε σ σ).run s = .ok s s := rfl

@[simp] theorem run_update (f : σ → σ) (s : σ) :
    (update f : Exec ε σ Unit).run s = .ok () (f s) := rfl

@[simp] theorem run_raise (e : ε) (s : σ) : (raise e : Exec ε σ α).run s = .thrown e s := rfl

@[simp] theorem run_fromExcept_ok (a : α) (s : σ) :
    (fromExcept (.ok a) : Exec ε σ α).run s = .ok a s := rfl

@[simp] theorem run_fromExcept_error (e : ε) (s : σ) :
    (fromExcept (.error e) : Exec ε σ α).run s = .thrown e s := rfl

@[simp] theorem run_undefined (w : Fault) (s : σ) :
    (undefined w : Exec ε σ α).run s = .fault w := rfl

theorem run_zoom_ok {get : σ → τ} {put : τ → σ → σ} {x : Exec ε τ α} {s : σ} {a : α} {t : τ}
    (h : x.run (get s) = .ok a t) : (zoom get put x).run s = .ok a (put t s) := by
  simp only [zoom, h]

theorem run_zoom_thrown {get : σ → τ} {put : τ → σ → σ} {x : Exec ε τ α} {s : σ} {e : ε} {t : τ}
    (h : x.run (get s) = .thrown e t) : (zoom get put x).run s = .thrown e (put t s) := by
  simp only [zoom, h]

theorem run_when {c : Prop} [Decidable c] (h : c) (x : Exec ε σ Unit) (s : σ) :
    (when c x).run s = x.run s := by
  rw [when, if_pos h]

theorem run_when_not {c : Prop} [Decidable c] (h : ¬c) (x : Exec ε σ Unit) (s : σ) :
    (when c x).run s = .ok () s := by
  rw [when, if_neg h, run_pure]

/-- A loop may be cut anywhere. -/
theorem forRange_add (body : Nat → β → Exec ε σ β) (rest : Nat) :
    ∀ (count i : Nat) (acc : β) (s : σ), (forRange body i (count + rest) acc).run s =
      ((forRange body i count acc).run s).andThen fun acc t =>
        (forRange body (i + count) rest acc).run t
  | 0, i, acc, s => by rw [Nat.zero_add, forRange, run_pure, Exit.andThen_ok, Nat.add_zero]
  | count + 1, i, acc, s => by
    rw [Nat.add_right_comm, forRange, forRange, run_bind, run_bind]
    cases (body i acc).run s with
    | ok acc' t =>
      rw [Exit.andThen_ok, Exit.andThen_ok, forRange_add body rest count, Nat.add_right_comm]
      rfl
    | thrown e t => rfl
    | fault w => rfl

/-- Total rule for a counted loop: `P i acc s` holds before round `i`. -/
theorem forRange_ok {body : Nat → β → Exec ε σ β} (P : Nat → β → σ → Prop) :
    ∀ (count i : Nat) (acc : β) (s : σ), P i acc s →
      (∀ j acc s, i ≤ j → j < i + count → P j acc s →
        ∃ acc' s', (body j acc).run s = .ok acc' s' ∧ P (j + 1) acc' s') →
      ∃ acc' s', (forRange body i count acc).run s = .ok acc' s' ∧ P (i + count) acc' s'
  | 0, _, acc, s, h, _ => ⟨acc, s, rfl, h⟩
  | count + 1, i, acc, s, h, hstep => by
    obtain ⟨acc₁, s₁, hrun, h₁⟩ := hstep i acc s (Nat.le_refl i) (by omega) h
    obtain ⟨acc₂, s₂, hrest, h₂⟩ := forRange_ok P count (i + 1) acc₁ s₁ h₁
      (fun j acc s hij hj => hstep j acc s (by omega) (by omega))
    refine ⟨acc₂, s₂, ?_, by rw [show i + (count + 1) = i + 1 + count by omega]; exact h₂⟩
    rw [forRange, run_bind, hrun, Exit.andThen_ok, hrest]

/-! ## Runs -/

end Exec

/-- Two ends that look alike to a caller: the same value or the same exception,
in related states.  A fault is like nothing. -/
inductive Exit.Rel (R : σ → τ → Prop) : Exit ε σ α → Exit ε τ α → Prop where
  | ok (a : α) {s : σ} {t : τ} (h : R s t) : Rel R (.ok a s) (.ok a t)
  | thrown (e : ε) {s : σ} {t : τ} (h : R s t) : Rel R (.thrown e s) (.thrown e t)

/-- Two ends no caller tells apart, where a fault is like itself. -/
inductive Exit.Same (R : σ → τ → Prop) : Exit ε σ α → Exit ε τ α → Prop where
  | ok (a : α) {s : σ} {t : τ} (h : R s t) : Same R (.ok a s) (.ok a t)
  | thrown (e : ε) {s : σ} {t : τ} (h : R s t) : Same R (.thrown e s) (.thrown e t)
  | fault (w : Fault) : Same R (.fault w) (.fault w)

theorem Exit.Same.refl {R : σ → σ → Prop} (hR : ∀ s, R s s) (x : Exit ε σ α) :
    Exit.Same R x x := by
  cases x with
  | ok a s => exact .ok a (hR s)
  | thrown e s => exact .thrown e (hR s)
  | fault w => exact .fault w

theorem Exit.Same.andThen {R : σ → τ → Prop} {x : Exit ε σ α} {y : Exit ε τ α}
    {f : α → σ → Exit ε σ β} {g : α → τ → Exit ε τ β} (h : Exit.Same R x y)
    (hf : ∀ a s t, R s t → Exit.Same R (f a s) (g a t)) :
    Exit.Same R (x.andThen f) (y.andThen g) := by
  cases h with
  | ok a h' => exact hf a _ _ h'
  | thrown e h' => exact .thrown e h'
  | fault w => exact .fault w

namespace Exec

def Sim (R : σ → τ → Prop) (x : Exec ε σ α) (y : Exec ε τ α) : Prop :=
  ∀ s t, R s t → Exit.Rel R (x.run s) (y.run t)

theorem Sim.pure {R : σ → τ → Prop} (a : α) :
    Sim R (Pure.pure a : Exec ε σ α) (Pure.pure a : Exec ε τ α) := by
  intro s t h
  exact .ok a h

theorem Sim.bind {R : σ → τ → Prop} {x : Exec ε σ α} {y : Exec ε τ α} {f : α → Exec ε σ β}
    {g : α → Exec ε τ β} (hx : Sim R x y) (hf : ∀ a, Sim R (f a) (g a)) :
    Sim R (x >>= f) (y >>= g) := by
  intro s t h
  have hxy := hx s t h
  rw [run_bind, run_bind]
  generalize x.run s = ex at hxy
  generalize y.run t = ey at hxy
  cases hxy with
  | ok a h' => exact hf a _ _ h'
  | thrown e h' => exact .thrown e h'

theorem Sim.forEach {R : σ → τ → Prop} {f : α → Exec ε σ Unit} {g : α → Exec ε τ Unit}
    (hf : ∀ x, Sim R (f x) (g x)) (xs : List α) :
    Sim R (Exec.forEach f xs) (Exec.forEach g xs) := by
  induction xs with
  | nil => exact Sim.pure ()
  | cons x xs ih => exact Sim.bind (hf x) fun _ => ih

/-- Make the calls in order.  An exception ends its own call only, and a fault
ends the run. -/
def runAll : List (Exec ε σ α) → σ → Option (List (Except ε α) × σ)
  | [], s => some ([], s)
  | x :: xs, s =>
    match x.run s with
    | .ok a t => (runAll xs t).map fun r => (.ok a :: r.1, r.2)
    | .thrown e t => (runAll xs t).map fun r => (.error e :: r.1, r.2)
    | .fault _ => none

/-- What a run records of a call, and the object it goes on with. -/
def outcome : Exit ε σ α → Option (Except ε α × σ)
  | .ok a s => some (.ok a, s)
  | .thrown e s => some (.error e, s)
  | .fault _ => none

theorem runAll_cons (x : Exec ε σ α) (xs : List (Exec ε σ α)) (s : σ) :
    runAll (x :: xs) s =
      (outcome (x.run s)).bind fun r => (runAll xs r.2).map fun q => (r.1 :: q.1, q.2) := by
  rw [runAll]
  cases x.run s <;> rfl

/-- The first call of a run, and the run behind it. -/
theorem runAll_cons_cases {x : Exec ε σ α} {xs : List (Exec ε σ α)} {s t : σ}
    {results : List (Except ε α)} (h : runAll (x :: xs) s = some (results, t)) :
    ∃ result s' rest, outcome (x.run s) = some (result, s') ∧ results = result :: rest ∧
      runAll xs s' = some (rest, t) := by
  rw [runAll_cons] at h
  obtain ⟨r, hx, hxs⟩ := Option.bind_eq_some_iff.mp h
  obtain ⟨q, hrun, hq⟩ := Option.map_eq_some_iff.mp hxs
  cases hq
  exact ⟨r.1, r.2, q.1, hx, rfl, hrun⟩

theorem outcome_ok {y : Exit ε σ α} {a : α} {s : σ} (h : outcome y = some (.ok a, s)) :
    y = .ok a s := by
  cases y with
  | ok a s => cases h; rfl
  | thrown e s => cases h
  | fault w => cases h

theorem outcome_error {y : Exit ε σ α} {e : ε} {s : σ} (h : outcome y = some (.error e, s)) :
    y = .thrown e s := by
  cases y with
  | ok a s => cases h
  | thrown e s => cases h; rfl
  | fault w => cases h

/-- In a run without exceptions the first call returned and so did the rest. -/
theorem runAll_returned {x : Exec ε σ α} {xs : List (Exec ε σ α)} {s t : σ} {as : List α}
    (h : runAll (x :: xs) s = some (as.map .ok, t)) :
    ∃ a s' rest, x.run s = .ok a s' ∧ as = a :: rest ∧ runAll xs s' = some (rest.map .ok, t) := by
  obtain ⟨result, s', results, hx, hresults, hrest⟩ := runAll_cons_cases h
  cases as with
  | nil => cases hresults
  | cons a rest =>
    cases hresults
    exact ⟨a, s', rest, outcome_ok hx, rfl, hrest⟩

/-- A run has one result for each call. -/
theorem runAll_length {xs : List (Exec ε σ α)} {s t : σ} {results : List (Except ε α)}
    (h : runAll xs s = some (results, t)) : results.length = xs.length := by
  induction xs generalizing s results with
  | nil => cases h; rfl
  | cons x xs ih =>
    obtain ⟨result, s', rest, _, rfl, hrest⟩ := runAll_cons_cases h
    rw [List.length_cons, List.length_cons, ih hrest]

/-- A run may be cut anywhere. -/
theorem runAll_append {xs ys : List (Exec ε σ α)} {s t : σ} {results : List (Except ε α)}
    (h : runAll (xs ++ ys) s = some (results, t)) :
    ∃ front s' rest, results = front ++ rest ∧ runAll xs s = some (front, s') ∧
      runAll ys s' = some (rest, t) := by
  induction xs generalizing s results with
  | nil => exact ⟨[], s, results, rfl, rfl, h⟩
  | cons x xs ih =>
    rw [List.cons_append] at h
    obtain ⟨result, s₁, results, hx, rfl, hrun⟩ := runAll_cons_cases h
    obtain ⟨front, s', rest, rfl, hfront, hrest⟩ := ih hrun
    refine ⟨result :: front, s', rest, rfl, ?_, hrest⟩
    rw [runAll_cons, hx, Option.bind_some, hfront, Option.map_some]

/-- Two runs, one after the other. -/
theorem runAll_append_some {xs ys : List (Exec ε σ α)} {s s' t : σ}
    {front rest : List (Except ε α)} (hfront : runAll xs s = some (front, s'))
    (hrest : runAll ys s' = some (rest, t)) : runAll (xs ++ ys) s = some (front ++ rest, t) := by
  induction xs generalizing s front with
  | nil => cases hfront; exact hrest
  | cons x xs ih =>
    obtain ⟨result, s₁, results, hx, rfl, hrun⟩ := runAll_cons_cases hfront
    rw [List.cons_append, runAll_cons, hx, Option.bind_some, ih hrun, Option.map_some,
      List.cons_append]

theorem runAll_append_returned {xs ys : List (Exec ε σ α)} {as : List α} {s t : σ}
    (h : runAll (xs ++ ys) s = some (as.map .ok, t)) :
    ∃ front s' rest, as = front ++ rest ∧ runAll xs s = some (front.map .ok, s') ∧
      runAll ys s' = some (rest.map .ok, t) := by
  obtain ⟨front, s', rest, hresults, hfront, hrest⟩ := runAll_append h
  obtain ⟨as₁, as₂, rfl, rfl, rfl⟩ := List.map_eq_append_iff.mp hresults
  exact ⟨as₁, s', as₂, rfl, hfront, hrest⟩

theorem runAll_concat_ok {xs : List (Exec ε σ α)} {x : Exec ε σ α} {s t t' : σ} {a : α}
    {results : List (Except ε α)} (h : runAll xs s = some (results, t))
    (hx : x.run t = .ok a t') : runAll (xs ++ [x]) s = some (results ++ [.ok a], t') := by
  refine runAll_append_some h ?_
  rw [runAll, hx]
  rfl

theorem runAll_concat_thrown {xs : List (Exec ε σ α)} {x : Exec ε σ α} {s t t' : σ} {e : ε}
    {results : List (Except ε α)} (h : runAll xs s = some (results, t))
    (hx : x.run t = .thrown e t') : runAll (xs ++ [x]) s = some (results ++ [.error e], t') := by
  refine runAll_append_some h ?_
  rw [runAll, hx]
  rfl

/-- The last call of a run, and the run before it. -/
theorem runAll_concat_cases {xs : List (Exec ε σ α)} {x : Exec ε σ α} {s t : σ}
    {results : List (Except ε α)} (h : runAll (xs ++ [x]) s = some (results, t)) :
    ∃ front s' result, runAll xs s = some (front, s') ∧
      outcome (x.run s') = some (result, t) ∧ results = front ++ [result] := by
  obtain ⟨front, s', rest, rfl, hfront, hlast⟩ := runAll_append h
  obtain ⟨result, s₁, rest', hx, rfl, hnil⟩ := runAll_cons_cases hlast
  cases hnil
  exact ⟨front, s', result, hfront, hx, rfl⟩

def ThrowsAt (x : Exec ε σ α) (s : σ) : Prop := ∃ e t, x.run s = .thrown e t

theorem throwsAt_of_thrown {x : Exec ε σ α} {s t : σ} {e : ε} (h : x.run s = .thrown e t) :
    ThrowsAt x s := ⟨e, t, h⟩

theorem not_throwsAt_of_ok {x : Exec ε σ α} {s t : σ} {a : α} (h : x.run s = .ok a t) :
    ¬ThrowsAt x s := by
  intro hthrows
  obtain ⟨_, _, hthrown⟩ := hthrows
  rw [h] at hthrown
  cases hthrown

/-- A call that does not fault and keeps `P`, whether it returns or throws. -/
def Keeps (P : σ → Prop) (x : Exec ε σ α) : Prop :=
  ∀ s, P s → (∃ a t, x.run s = .ok a t ∧ P t) ∨ ∃ e t, x.run s = .thrown e t ∧ P t

theorem Keeps.pure {P : σ → Prop} (a : α) : Keeps P (Pure.pure a : Exec ε σ α) := by
  intro s h
  exact .inl ⟨a, s, rfl, h⟩

theorem Keeps.bind {P : σ → Prop} {x : Exec ε σ α} {f : α → Exec ε σ β} (hx : Keeps P x)
    (hf : ∀ a, Keeps P (f a)) : Keeps P (x >>= f) := by
  intro s h
  rw [run_bind]
  rcases hx s h with hret | hthrown
  · obtain ⟨a, t, hrun, ht⟩ := hret
    rw [hrun, Exit.andThen_ok]
    exact hf a t ht
  · obtain ⟨e, t, hrun, ht⟩ := hthrown
    rw [hrun, Exit.andThen_thrown]
    exact .inr ⟨e, t, rfl, ht⟩

/-- A call that keeps `P` and throws nothing outside `E`. -/
def KeepsRaising (P : σ → Prop) (E : ε → Prop) (x : Exec ε σ α) : Prop :=
  ∀ s, P s → (∃ a t, x.run s = .ok a t ∧ P t) ∨ ∃ e t, x.run s = .thrown e t ∧ E e ∧ P t

theorem KeepsRaising.runAll {P : σ → Prop} {E : ε → Prop} {xs : List (Exec ε σ α)}
    (hkeeps : ∀ x ∈ xs, KeepsRaising P E x) :
    ∀ s, P s → ∃ results t, Exec.runAll xs s = some (results, t) ∧ P t ∧
      ∀ e, .error e ∈ results → E e := by
  induction xs with
  | nil => intro s h; exact ⟨[], s, rfl, h, fun e he => by cases he⟩
  | cons x xs ih =>
    intro s h
    have htail := ih fun y hy => hkeeps y (List.mem_cons_of_mem x hy)
    unfold Exec.runAll
    rcases hkeeps x List.mem_cons_self s h with hret | hthrown
    · obtain ⟨a, t, hrun, ht⟩ := hret
      obtain ⟨results, t', hrest, ht', herrors⟩ := htail t ht
      refine ⟨.ok a :: results, t', by simp only [hrun, hrest, Option.map_some], ht', ?_⟩
      intro e he
      rcases List.mem_cons.mp he with heq | hmem
      · cases heq
      · exact herrors e hmem
    · obtain ⟨e, t, hrun, hE, ht⟩ := hthrown
      obtain ⟨results, t', hrest, ht', herrors⟩ := htail t ht
      refine ⟨.error e :: results, t', by simp only [hrun, hrest, Option.map_some], ht', ?_⟩
      intro e' he
      rcases List.mem_cons.mp he with heq | hmem
      · cases heq
        exact hE
      · exact herrors e' hmem

theorem Keeps.runAll {P : σ → Prop} {xs : List (Exec ε σ α)} (hkeeps : ∀ x ∈ xs, Keeps P x)
    (s : σ) (h : P s) : ∃ results t, Exec.runAll xs s = some (results, t) ∧ P t := by
  have hraising : ∀ x ∈ xs, KeepsRaising P (fun _ : ε => True) x := by
    intro x hx s h
    rcases hkeeps x hx s h with hret | hthrown
    · exact .inl hret
    · obtain ⟨e, t, hrun, ht⟩ := hthrown
      exact .inr ⟨e, t, hrun, trivial, ht⟩
  obtain ⟨results, t, hrun, ht, _⟩ := KeepsRaising.runAll hraising s h
  exact ⟨results, t, hrun, ht⟩

/-- Runs of simulating calls give the same results and end in related states. -/
theorem Sim.runAll {ι : Type} {R : σ → τ → Prop} {x : ι → Exec ε σ α} {y : ι → Exec ε τ α}
    (hsim : ∀ i, Sim R (x i) (y i)) (is : List ι) :
    ∀ s t, R s t → ∃ results s' t', Exec.runAll (is.map x) s = some (results, s') ∧
      Exec.runAll (is.map y) t = some (results, t') ∧ R s' t' := by
  induction is with
  | nil => intro s t h; exact ⟨[], s, t, rfl, rfl, h⟩
  | cons i is ih =>
    intro s t h
    have hi := hsim i s t h
    simp only [List.map_cons, Exec.runAll]
    generalize (x i).run s = ex at hi
    generalize (y i).run t = ey at hi
    cases hi with
    | ok a h' =>
      obtain ⟨rs, s', t', hs, ht, hR⟩ := ih _ _ h'
      exact ⟨.ok a :: rs, s', t', by simp [hs], by simp [ht], hR⟩
    | thrown e h' =>
      obtain ⟨rs, s', t', hs, ht, hR⟩ := ih _ _ h'
      exact ⟨.error e :: rs, s', t', by simp [hs], by simp [ht], hR⟩

/-- What the calls of a run return and throw, if none of them goes wrong. -/
def resultsOf (xs : List (Exec ε σ α)) (s : σ) : Option (List (Except ε α)) :=
  (Exec.runAll xs s).map Prod.fst

theorem resultsOf_cons (x : Exec ε σ α) (xs : List (Exec ε σ α)) (s : σ) :
    resultsOf (x :: xs) s =
      (outcome (x.run s)).bind fun r => (resultsOf xs r.2).map (r.1 :: ·) := by
  rw [resultsOf, runAll_cons, Option.map_bind]
  refine congrArg _ (funext fun r => ?_)
  rw [Function.comp_apply, resultsOf, Option.map_map, Option.map_map]
  rfl

theorem resultsOf_ok {x : Exec ε σ α} {s t : σ} {a : α} (h : x.run s = .ok a t) :
    resultsOf [x] s = some [.ok a] := by
  rw [resultsOf_cons, h]
  rfl

theorem resultsOf_thrown {x : Exec ε σ α} {s t : σ} {e : ε} (h : x.run s = .thrown e t) :
    resultsOf [x] s = some [.error e] := by
  rw [resultsOf_cons, h]
  rfl

/-- Calls that wrap up what others return give the same results, wrapped up. -/
theorem resultsOf_map {ι : Type} {f : α → β} {x : ι → Exec ε σ α} {y : ι → Exec ε σ β}
    (hwrap : ∀ i s, (y i).run s = ((x i).run s).andThen fun a t => .ok (f a) t) (is : List ι) :
    ∀ s, resultsOf (is.map y) s =
      (resultsOf (is.map x) s).map (List.map (Except.map f)) := by
  induction is with
  | nil => intro s; rfl
  | cons i is ih =>
    intro s
    rw [List.map_cons, List.map_cons, resultsOf_cons, resultsOf_cons, hwrap]
    cases (x i).run s with
    | ok a t =>
      simp only [Exit.andThen_ok, outcome, Option.bind_some, ih, Option.map_map]
      rfl
    | thrown e t =>
      simp only [Exit.andThen_thrown, outcome, Option.bind_some, ih, Option.map_map]
      rfl
    | fault w => rfl

/-- Runs of calls that no single call tells apart give the same results. -/
theorem resultsOf_same {ι : Type} {R : σ → τ → Prop} {x : ι → Exec ε σ α} {y : ι → Exec ε τ α}
    (hsame : ∀ i s t, R s t → Exit.Same R ((x i).run s) ((y i).run t)) (is : List ι) :
    ∀ s t, R s t → resultsOf (is.map x) s = resultsOf (is.map y) t := by
  induction is with
  | nil => intro s t _; rfl
  | cons i is ih =>
    intro s t h
    have hi := hsame i s t h
    rw [List.map_cons, List.map_cons, resultsOf_cons, resultsOf_cons]
    generalize (x i).run s = ex at hi
    generalize (y i).run t = ey at hi
    cases hi with
    | ok a h' => rw [outcome, outcome, Option.bind_some, Option.bind_some, ih _ _ h']
    | thrown e h' => rw [outcome, outcome, Option.bind_some, Option.bind_some, ih _ _ h']
    | fault w => rfl

end Exec
