import Mathlib.Logic.Basic

/-!
# Programs That Can Fail and Keep Their State

A program reads and writes a state and may stop with an error. What it has written by then
stays written, so a caller that goes on after an error finds the state as it was left.

- `Fallible.run` is the outcome of a program with the state it leaves,
- `run_bind_of_ok` and `run_bind_of_error` run a program that goes on,
- `run_bind_ok_iff` is their converse for a program that succeeds,
- `Keeps` is a property that the state has after every step, also after the last one.
-/

namespace Library

/-- A program over states of type `σ` that fails with an `ε`. -/
abbrev Fallible (ε σ α : Type) := ExceptT ε (StateM σ) α

namespace Fallible

variable {ε σ α β : Type}

/-- The outcome of a program, and the state it leaves. -/
def run (x : Fallible ε σ α) (s : σ) : Except ε α × σ := StateT.run (ExceptT.run x) s

/-- Change the state. -/
def update (f : σ → σ) : Fallible ε σ Unit := ExceptT.mk fun s => (.ok (), f s)

/-- Go on if a property of the state holds. -/
def check (error : ε) (P : σ → Bool) : Fallible ε σ Unit :=
  ExceptT.mk fun s => (if P s then .ok () else .error error, s)

/-- Go on with the value of a computation that does not look at the state. -/
def lift (x : Except ε α) : Fallible ε σ α := ExceptT.mk fun s => (x, s)

theorem run_pure (a : α) (s : σ) : run (pure a : Fallible ε σ α) s = (.ok a, s) := rfl

theorem run_update (f : σ → σ) (s : σ) : run (update f : Fallible ε σ Unit) s = (.ok (), f s) := rfl

theorem run_lift (x : Except ε α) (s : σ) : run (lift x) s = (x, s) := rfl

theorem run_check (error : ε) (P : σ → Bool) (s : σ) :
    run (check error P) s = (if P s then .ok () else .error error, s) := rfl

variable {x : Fallible ε σ α} {f : α → Fallible ε σ β} {s t : σ} {a : α} {b : β} {e : ε}

theorem run_bind_of_ok (h : run x s = (.ok a, t)) : run (x >>= f) s = run (f a) t := by
  have hx : (ExceptT.run x) s = (.ok a, t) := h
  unfold run
  show StateT.bind (ExceptT.run x) (ExceptT.bindCont f) s = _
  unfold StateT.bind
  rw [hx]
  rfl

theorem run_bind_of_error (h : run x s = (.error e, t)) : run (x >>= f) s = (.error e, t) := by
  have hx : (ExceptT.run x) s = (.error e, t) := h
  unfold run
  show StateT.bind (ExceptT.run x) (ExceptT.bindCont f) s = _
  unfold StateT.bind
  rw [hx]
  rfl

/-- What is done first succeeded, with what is done next on the state it left. -/
theorem run_bind_ok_iff :
    run (x >>= f) s = (.ok b, t) ↔ ∃ a r, run x s = (.ok a, r) ∧ run (f a) r = (.ok b, t) := by
  rcases hx : run x s with ⟨outcome, r⟩
  cases outcome with
  | error e =>
    rw [run_bind_of_error hx]
    simp
  | ok a =>
    rw [run_bind_of_ok hx]
    constructor
    · intro h
      exact ⟨a, r, rfl, h⟩
    · rintro ⟨_, _, hsame, h⟩
      cases hsame
      exact h

/-- A program after a check succeeds if the property holds. -/
theorem run_check_bind_ok_iff {P : σ → Bool} {f : Unit → Fallible ε σ β} :
    run (check e P >>= f) s = (.ok b, t) ↔ P s = true ∧ run (f ()) s = (.ok b, t) := by
  by_cases hP : P s = true
  · rw [run_bind_of_ok (a := ()) (t := s) (by rw [run_check, if_pos hP]), and_iff_right hP]
  · rw [run_bind_of_error (e := e) (t := s) (by rw [run_check, if_neg hP])]
    simp [hP]

theorem run_lift_bind_ok_iff {y : Except ε α} :
    run (lift y >>= f) s = (.ok b, t) ↔ ∃ a, y = .ok a ∧ run (f a) s = (.ok b, t) := by
  cases y with
  | error e =>
    rw [run_bind_of_error (run_lift _ _)]
    simp
  | ok a =>
    rw [run_bind_of_ok (run_lift _ _)]
    constructor
    · intro h
      exact ⟨a, rfl, h⟩
    · rintro ⟨_, hsame, h⟩
      cases hsame
      exact h

theorem run_update_bind (change : σ → σ) (f : Unit → Fallible ε σ β) :
    run (update change >>= f) s = run (f ()) (change s) :=
  run_bind_of_ok (run_update change s)

theorem run_pure_ok_iff {a' : α} :
    run (pure a : Fallible ε σ α) s = (.ok a', t) ↔ a' = a ∧ t = s := by
  rw [run_pure]
  simp [eq_comm]

/-! ## Invariants -/

/-- A program leaves a property of the state true, whether it fails or not. -/
def Keeps (P : σ → Prop) (x : Fallible ε σ α) : Prop := ∀ s, P s → P (run x s).2

variable {P : σ → Prop}

theorem keeps_pure (a : α) : Keeps P (pure a : Fallible ε σ α) := by
  intro s hs
  rw [run_pure]
  exact hs

theorem keeps_lift (y : Except ε α) : Keeps P (lift y : Fallible ε σ α) := by
  intro s hs
  rw [run_lift]
  exact hs

theorem keeps_check (error : ε) (Q : σ → Bool) : Keeps P (check error Q) := by
  intro s hs
  rw [run_check]
  exact hs

theorem keeps_update {change : σ → σ} (h : ∀ s, P s → P (change s)) :
    Keeps P (update change : Fallible ε σ Unit) := by
  intro s hs
  rw [run_update]
  exact h s hs

theorem Keeps.bind (hx : Keeps P x) (hf : ∀ a, Keeps P (f a)) : Keeps P (x >>= f) := by
  intro s hs
  have hfirst := hx s hs
  rcases h : run x s with ⟨outcome, r⟩
  rw [h] at hfirst
  cases outcome with
  | error e =>
    rw [run_bind_of_error h]
    exact hfirst
  | ok a =>
    rw [run_bind_of_ok h]
    exact hf a r hfirst

end Fallible

end Library
