import Mathlib.Data.List.Induction

/-!
# Runs of a Step Function

A component that answers calls one at a time is a function from a state and an input to
an output and a new state. A run feeds it a list of inputs; its trace pairs each input
with the output it got.

The rule of this file is `run_invariant`: what holds of the empty trace and is kept by
every step holds of every run. Each step may use that its inputs are a prefix of the run's
inputs, which is how an assumption on the whole input (a clock that never goes back)
reaches the step.
-/

namespace Library.Machine

variable {σ ι ο : Type} (step : σ → ι → ο × σ)

/-- The state after the inputs. -/
def final (s : σ) (inputs : List ι) : σ :=
  inputs.foldl (fun s i => (step s i).2) s

/-- Every input with the output it got, in order. -/
def trace : σ → List ι → List (ι × ο)
  | _, [] => []
  | s, i :: inputs => (i, (step s i).1) :: trace (step s i).2 inputs

@[simp] theorem final_nil (s : σ) : final step s [] = s := rfl

@[simp] theorem final_cons (s : σ) (i : ι) (inputs : List ι) :
    final step s (i :: inputs) = final step (step s i).2 inputs := rfl

theorem final_append (s : σ) (xs ys : List ι) :
    final step s (xs ++ ys) = final step (final step s xs) ys :=
  List.foldl_append

theorem trace_append (s : σ) (xs ys : List ι) :
    trace step s (xs ++ ys) = trace step s xs ++ trace step (final step s xs) ys := by
  induction xs generalizing s with
  | nil => rfl
  | cons x xs ih => simp only [List.cons_append, trace, final_cons, ih]

@[simp] theorem final_concat (s : σ) (xs : List ι) (i : ι) :
    final step s (xs ++ [i]) = (step (final step s xs) i).2 :=
  final_append step s xs [i]

@[simp] theorem trace_concat (s : σ) (xs : List ι) (i : ι) :
    trace step s (xs ++ [i]) =
      trace step s xs ++ [(i, (step (final step s xs) i).1)] :=
  trace_append step s xs [i]

@[simp] theorem trace_map_fst (s : σ) (inputs : List ι) :
    (trace step s inputs).map Prod.fst = inputs := by
  induction inputs generalizing s with
  | nil => rfl
  | cons i inputs ih => simp only [trace, List.map_cons, ih]

/-- Every input of a run gets an output, in some state. -/
theorem mem_trace_of_mem (s : σ) {i : ι} {inputs : List ι} (h : i ∈ inputs) :
    ∃ r, (i, (step r i).1) ∈ trace step s inputs := by
  induction inputs generalizing s with
  | nil => cases h
  | cons first rest ih =>
    rcases List.mem_cons.mp h with rfl | hrest
    · exact ⟨s, List.mem_cons_self ..⟩
    · obtain ⟨r, hr⟩ := ih (step s first).2 hrest
      exact ⟨r, List.mem_cons_of_mem _ hr⟩

/-- An output of a run was given to one of its inputs, in some state. -/
theorem of_mem_trace {s : σ} {i : ι} {o : ο} {inputs : List ι}
    (h : (i, o) ∈ trace step s inputs) : i ∈ inputs ∧ ∃ r, o = (step r i).1 := by
  induction inputs generalizing s with
  | nil => cases h
  | cons first rest ih =>
    rcases List.mem_cons.mp h with hfirst | hrest
    · obtain ⟨rfl, rfl⟩ := Prod.mk.inj hfirst
      exact ⟨List.mem_cons_self .., s, rfl⟩
    · obtain ⟨hmem, hgiven⟩ := ih hrest
      exact ⟨List.mem_cons_of_mem _ hmem, hgiven⟩

/-- **Run rule**: what holds at the start and is kept by each step of the run holds at
its end. -/
theorem run_invariant {s : σ} {inputs : List ι} (P : List (ι × ο) → σ → Prop)
    (start : P [] s)
    (keep : ∀ xs i, xs ++ [i] <+: inputs → P (trace step s xs) (final step s xs) →
      P (trace step s (xs ++ [i])) (final step s (xs ++ [i]))) :
    P (trace step s inputs) (final step s inputs) := by
  -- induction on the prefixes of the run, longest last
  suffices h : ∀ xs, xs <+: inputs → P (trace step s xs) (final step s xs) from
    h inputs (List.prefix_refl _)
  intro xs
  induction xs using List.reverseRecOn with
  | nil => exact fun _ => start
  | append_singleton xs i ih =>
    intro hpre
    exact keep xs i hpre (ih ((List.prefix_append xs [i]).trans hpre))

/-- **Invariant rule**: what holds of the first state and is kept by every step holds of
every state. -/
theorem final_invariant (Inv : σ → Prop) (keep : ∀ s i, Inv s → Inv (step s i).2) {s : σ}
    (start : Inv s) (inputs : List ι) : Inv (final step s inputs) := by
  induction inputs generalizing s with
  | nil => exact start
  | cons i inputs ih => exact ih (keep s i start)

/-- What holds at every step of a run, of the state it is taken in and its input. -/
def AtEachStep (s : σ) (inputs : List ι) (P : σ → ι → Prop) : Prop :=
  ∀ before i after, inputs = before ++ i :: after → P (final step s before) i

theorem atEachStep_nil (s : σ) (P : σ → ι → Prop) : AtEachStep step s [] P := by
  intro before i after h
  simp at h

theorem atEachStep_cons {s : σ} {i : ι} {inputs : List ι} {P : σ → ι → Prop} :
    AtEachStep step s (i :: inputs) P ↔ P s i ∧ AtEachStep step (step s i).2 inputs P := by
  constructor
  · intro h
    refine ⟨h [] i inputs rfl, fun before j after hinputs => ?_⟩
    exact h (i :: before) j after (by rw [hinputs, List.cons_append])
  · rintro ⟨hfirst, hrest⟩ before j after hinputs
    cases before with
    | nil =>
      obtain ⟨rfl, -⟩ := List.cons.inj hinputs
      exact hfirst
    | cons k before =>
      obtain ⟨rfl, hrestInputs⟩ := List.cons.inj hinputs
      exact hrest before j after hrestInputs

instance decidableAtEachStep (P : σ → ι → Prop) [∀ s i, Decidable (P s i)] :
    ∀ (s : σ) (inputs : List ι), Decidable (AtEachStep step s inputs P)
  | s, [] => .isTrue (atEachStep_nil step s P)
  | s, i :: inputs =>
    have := decidableAtEachStep P (step s i).2 inputs
    decidable_of_iff _ (atEachStep_cons step).symm

/-- In the states of an invariant two properties of a step may come to the same. -/
theorem atEachStep_congr (Inv : σ → Prop) (keep : ∀ s i, Inv s → Inv (step s i).2) {s : σ}
    (start : Inv s) (inputs : List ι) {P Q : σ → ι → Prop}
    (h : ∀ s i, Inv s → (P s i ↔ Q s i)) :
    AtEachStep step s inputs P ↔ AtEachStep step s inputs Q := by
  have hreached := final_invariant step Inv keep start
  unfold AtEachStep
  constructor
  · intro hP before i after hinputs
    exact (h _ i (hreached before)).mp (hP before i after hinputs)
  · intro hQ before i after hinputs
    exact (h _ i (hreached before)).mpr (hQ before i after hinputs)

/-- **Guarded invariant rule**: if the steps that meet a condition keep an invariant and have
good outputs, then so does a run whose steps all meet it. -/
theorem atEachStep_invariant (Inv : σ → Prop) (Good : ο → Prop) (Cond : σ → ι → Prop)
    (keep : ∀ s i, Inv s → Cond s i → Inv (step s i).2 ∧ Good (step s i).1) {s : σ}
    (start : Inv s) {inputs : List ι} (hcond : AtEachStep step s inputs Cond) :
    Inv (final step s inputs) ∧ ∀ e ∈ trace step s inputs, Good e.2 := by
  apply run_invariant step (fun steps state => Inv state ∧ ∀ e ∈ steps, Good e.2)
  · exact ⟨start, by simp⟩
  · rintro xs i ⟨later, hprefix⟩ ⟨hinv, hgood⟩
    have hnow : Cond (final step s xs) i := by
      apply hcond xs i later
      rw [← hprefix, List.append_assoc, List.singleton_append]
    obtain ⟨hkept, hout⟩ := keep _ i hinv hnow
    rw [final_concat, trace_concat]
    refine ⟨hkept, fun e he => ?_⟩
    rcases List.mem_append.mp he with he | he
    · exact hgood e he
    · rw [List.mem_singleton.mp he]
      exact hout

/-! ## Lazily kept marks

A component that reads a clock may store a mark of its last reading, such as the window it
fell into, and bring it up to date in some of its steps only. -/

/-- If a step sets the mark from its own reading or leaves it, the mark is never ahead of
a reading at or after all those of the run. -/
theorem mark_le (mark : σ → Nat) {time : ι → Nat} {read : Nat → Nat}
    (hread : ∀ {t t'}, t ≤ t' → read t ≤ read t')
    (hstep : ∀ s i, mark (step s i).2 = read (time i) ∨ mark (step s i).2 = mark s)
    {s : σ} {start : Nat} (hstart : mark s = read start) (inputs : List ι) {now : Nat}
    (hnow : ∀ t ∈ start :: inputs.map time, t ≤ now) :
    mark (final step s inputs) ≤ read now := by
  -- Induction on the inputs from the last one: the mark is as old as the step that set it.
  induction inputs using List.reverseRecOn with
  | nil =>
    rw [final_nil, hstart]
    exact hread (hnow start (List.mem_cons_self ..))
  | append_singleton inputs i ih =>
    rw [final_concat]
    rcases hstep (final step s inputs) i with hset | hleft
    · -- the last step read the clock itself
      rw [hset]
      exact hread (hnow (time i) (by simp))
    · -- the mark is an older one
      rw [hleft]
      apply ih
      intro t ht
      apply hnow
      simp only [List.map_append, List.mem_cons, List.mem_append] at ht ⊢
      exact ht.imp_right .inl

/-! ## Simulation

Two components that are asked the same may keep quite different states. If the one takes
some steps that mean nothing to the other, the rest of its run is a run of the other. -/

section Simulation

variable {τ ο' : Type} (step' : τ → ι → ο' × τ) (time : ι → Nat) (answer : ο → ο')

/-- **Simulation rule**: let `Rel t` relate the states of two components at time `t`. If the
steps of the first one that are left out keep it, and its other steps keep it together with
the step of the second one and get the same answer, then the first run without the steps
that are left out is a run of the second component. -/
theorem filter_trace_simulates (kept : ι × ο → Bool) (Rel : Nat → σ → τ → Prop)
    (hlater : ∀ {t t' s r}, t ≤ t' → Rel t s r → Rel t' s r)
    (homit : ∀ {s r i}, kept (i, (step s i).1) = false → Rel (time i) s r →
      Rel (time i) (step s i).2 r)
    (hkeep : ∀ {s r i}, kept (i, (step s i).1) = true → Rel (time i) s r →
      answer (step s i).1 = (step' r i).1 ∧ Rel (time i) (step s i).2 (step' r i).2)
    {s : σ} {r : τ} {start : Nat} (hrel : Rel start s r) {inputs : List ι}
    (hclock : (start :: inputs.map time).Pairwise (· ≤ ·)) :
    let remaining := (trace step s inputs).filter kept
    remaining.map (fun e => (e.1, answer e.2)) = trace step' r (remaining.map Prod.fst) := by
  intro remaining
  induction inputs generalizing s r start with
  | nil => rfl
  | cons i inputs ih =>
    obtain ⟨hstart, hrest⟩ := List.pairwise_cons.mp hclock
    have hnow : Rel (time i) s r := hlater (hstart (time i) (by simp)) hrel
    simp only [remaining, trace]
    cases hi : kept (i, (step s i).1) with
    | false =>
      -- the second component does not see this step
      rw [List.filter_cons_of_neg (by simp [hi])]
      exact ih (homit hi hnow) hrest
    | true =>
      obtain ⟨hanswer, hthen⟩ := hkeep hi hnow
      rw [List.filter_cons_of_pos hi, List.map_cons, List.map_cons, trace, ih hthen hrest,
        hanswer]

end Simulation

/-! ## Inputs of one party

Several parties may use one component. If the inputs of the others leave what it has to say
to one of them, that one gets the answers it would get alone. -/

theorem map_fst_filter_trace (mine : ι → Bool) (s : σ) (inputs : List ι) :
    ((trace step s inputs).filter fun e => mine e.1).map Prod.fst = inputs.filter mine := by
  have hfilter := List.filter_map (p := mine) (f := Prod.fst) (l := trace step s inputs)
  rw [trace_map_fst] at hfilter
  exact hfilter.symm

/-- **Confinement rule**: let `Same t` relate states that make no difference to a party from
time `t` on. If the inputs of the others keep it, and those of the party keep it and are
answered alike, then the part of a run that concerns the party is its run alone. -/
theorem filter_trace (time : ι → Nat) (mine : ι → Bool) (Same : Nat → σ → σ → Prop)
    (hlater : ∀ {t t' s r}, t ≤ t' → Same t s r → Same t' s r)
    (hother : ∀ {s r i}, mine i = false → Same (time i) s r → Same (time i) (step s i).2 r)
    (hmine : ∀ {s r i}, mine i = true → Same (time i) s r →
      (step s i).1 = (step r i).1 ∧ Same (time i) (step s i).2 (step r i).2)
    {s r : σ} {start : Nat} (hsame : Same start s r) {inputs : List ι}
    (hclock : (start :: inputs.map time).Pairwise (· ≤ ·)) :
    (trace step s inputs).filter (fun e => mine e.1) = trace step r (inputs.filter mine) := by
  have hsimulates := filter_trace_simulates step step time id (fun e => mine e.1) Same hlater
    hother hmine hsame hclock
  dsimp only at hsimulates
  rw [map_fst_filter_trace] at hsimulates
  rw [← hsimulates]
  exact (List.map_id' _).symm

end Library.Machine
