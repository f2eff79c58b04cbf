import Mathlib.Algebra.BigOperators.Group.List.Basic
import Mathlib.Algebra.Order.Ring.Nat
import Mathlib.Tactic.SplitIfs

/-!
# Two-Window Counters and Their Ledger

A sliding-window counter keeps two tables: what was charged in the current window and what
was charged in the one before. The tables roll over lazily, when somebody looks at the
clock. The ledger is the unbounded account they stand for: every charge ever made, with
the window it was made in.

- `Ledger.chargedIn` and `Ledger.chargedBefore` read a window, and the window before it,
  off the ledger.
- `TwoWindow.advance` and `TwoWindow.charge` are the two operations of the counter.
- `Tracks` says that the counter holds what the ledger says; it survives both operations,
  across adjacent windows and across idle gaps.
- `Alike` says that two counters have the same to say about one key from some window on,
  however often each of them looked at the clock before.
-/

namespace Library

/-- One charge: the window it was made in, the key it was made to and its amount. -/
structure Charge (κ : Type) where
  window : Nat
  key : κ
  amount : Nat
  deriving DecidableEq, Repr

namespace Ledger

variable {κ : Type} [DecidableEq κ]

/-! ## Sums over a ledger -/

/-- Total charged to `k` in window `w`. -/
def chargedIn (ledger : List (Charge κ)) (w : Nat) (k : κ) : Nat :=
  ((ledger.filter fun c => c.window = w ∧ c.key = k).map Charge.amount).sum

/-- Total charged to `k` in the window before `w`; nothing precedes window zero. -/
def chargedBefore (ledger : List (Charge κ)) (w : Nat) (k : κ) : Nat :=
  ((ledger.filter fun c => c.window + 1 = w ∧ c.key = k).map Charge.amount).sum

theorem chargedIn_append (xs ys : List (Charge κ)) (w : Nat) (k : κ) :
    chargedIn (xs ++ ys) w k = chargedIn xs w k + chargedIn ys w k := by
  simp [chargedIn]

theorem chargedBefore_append (xs ys : List (Charge κ)) (w : Nat) (k : κ) :
    chargedBefore (xs ++ ys) w k = chargedBefore xs w k + chargedBefore ys w k := by
  simp [chargedBefore]

theorem chargedIn_singleton (c : Charge κ) (w : Nat) (k : κ) :
    chargedIn [c] w k = if c.window = w ∧ c.key = k then c.amount else 0 := by
  unfold chargedIn
  by_cases h : c.window = w ∧ c.key = k <;> simp [h]

theorem chargedBefore_singleton (c : Charge κ) (w : Nat) (k : κ) :
    chargedBefore [c] w k = if c.window + 1 = w ∧ c.key = k then c.amount else 0 := by
  unfold chargedBefore
  by_cases h : c.window + 1 = w ∧ c.key = k <;> simp [h]

/-- A charge counts in its own window. -/
theorem amount_le_chargedIn {ledger : List (Charge κ)} {c : Charge κ} (h : c ∈ ledger) :
    c.amount ≤ chargedIn ledger c.window c.key := by
  obtain ⟨xs, ys, rfl⟩ := List.mem_iff_append.mp h
  rw [← List.singleton_append, chargedIn_append, chargedIn_append, chargedIn_singleton,
    if_pos ⟨rfl, rfl⟩]
  omega

/-- The window before the successor of `w` is `w`. -/
theorem chargedBefore_succ (ledger : List (Charge κ)) (w : Nat) (k : κ) :
    chargedBefore ledger (w + 1) k = chargedIn ledger w k := by
  simp [chargedBefore, chargedIn]

theorem chargedIn_eq_zero {ledger : List (Charge κ)} {w : Nat}
    (h : ∀ c ∈ ledger, c.window ≠ w) (k : κ) : chargedIn ledger w k = 0 := by
  have hnone : ledger.filter (fun c => c.window = w ∧ c.key = k) = [] :=
    List.filter_eq_nil_iff.mpr fun c hc => by simp [h c hc]
  simp only [chargedIn, hnone, List.map_nil, List.sum_nil]

theorem chargedBefore_eq_zero {ledger : List (Charge κ)} {w : Nat}
    (h : ∀ c ∈ ledger, c.window + 1 ≠ w) (k : κ) : chargedBefore ledger w k = 0 := by
  have hnone : ledger.filter (fun c => c.window + 1 = w ∧ c.key = k) = [] :=
    List.filter_eq_nil_iff.mpr fun c hc => by simp [h c hc]
  simp only [chargedBefore, hnone, List.map_nil, List.sum_nil]

end Ledger

/-! ## The two-window counter -/

/-- The counts of one window and of the window before it. -/
structure TwoWindow (κ : Type) where
  index : Nat
  last : κ → Nat
  current : κ → Nat

namespace TwoWindow

variable {κ : Type}

/-- A counter that has seen nothing. -/
def fresh (w : Nat) : TwoWindow κ := ⟨w, fun _ => 0, fun _ => 0⟩

/-- Move to window `w`. The current counts become the last ones when `w` is the next
window and are forgotten when a window was skipped. -/
def advance (w : Nat) (s : TwoWindow κ) : TwoWindow κ :=
  if w = s.index then s
  else
    { index := w
      last := if s.index + 1 = w then s.current else fun _ => 0
      current := fun _ => 0 }

@[simp] theorem advance_self (s : TwoWindow κ) : s.advance s.index = s := if_pos rfl

theorem advance_of_ne {w : Nat} {s : TwoWindow κ} (h : w ≠ s.index) :
    s.advance w = ⟨w, if s.index + 1 = w then s.current else fun _ => 0, fun _ => 0⟩ :=
  if_neg h

@[simp] theorem advance_index (w : Nat) (s : TwoWindow κ) : (s.advance w).index = w := by
  by_cases h : w = s.index
  · rw [h, advance_self]
  · rw [advance_of_ne h]

/-- A stop on the way makes no difference. -/
theorem advance_advance {s : TwoWindow κ} {w w' : Nat} (hfirst : s.index ≤ w) (hthen : w ≤ w') :
    (s.advance w).advance w' = s.advance w' := by
  by_cases hstay : w = s.index
  · rw [hstay, advance_self]
  · by_cases hstop : w' = w
    · rw [hstop]
      have hself := advance_self (s.advance w)
      rwa [advance_index] at hself
    · -- two moves: the counts in between are empty, and so are those of a skipped window
      have hne : w' ≠ s.index := by omega
      have hskip : s.index + 1 ≠ w' := by omega
      have hstop' : w' ≠ (s.advance w).index := by rwa [advance_index]
      rw [advance_of_ne hstop', advance_of_ne hne, advance_of_ne hstay, if_neg hskip]
      dsimp only
      split_ifs with hnext
      · rfl
      · rfl

variable [DecidableEq κ]

/-- Add `v` to the current count of `k`. -/
def charge (k : κ) (v : Nat) (s : TwoWindow κ) : TwoWindow κ :=
  { s with current := fun k' => s.current k' + if k' = k then v else 0 }

/-! ## Tracking -/

/-- The counter holds exactly what the ledger says about its window and the one before,
and the ledger has no charge from a later window. -/
structure Tracks (s : TwoWindow κ) (ledger : List (Charge κ)) : Prop where
  bounded : ∀ c ∈ ledger, c.window ≤ s.index
  current : ∀ k, s.current k = Ledger.chargedIn ledger s.index k
  last : ∀ k, s.last k = Ledger.chargedBefore ledger s.index k

theorem tracks_fresh (w : Nat) : (fresh w : TwoWindow κ).Tracks [] where
  bounded := fun _ hc => absurd hc (List.not_mem_nil)
  current := fun _ => rfl
  last := fun _ => rfl

/-- Moving forward in time keeps the counter in step with its ledger, however many
windows are skipped. -/
theorem Tracks.advance {s : TwoWindow κ} {ledger : List (Charge κ)} (h : s.Tracks ledger)
    {w : Nat} (hw : s.index ≤ w) : (s.advance w).Tracks ledger := by
  -- Staying in the window changes nothing, and a new one starts with nothing charged.
  by_cases hsame : w = s.index
  · rw [hsame, advance_self]
    exact h
  · have hempty : ∀ c ∈ ledger, c.window ≠ w := fun c hc => by
      have := h.bounded c hc
      omega
    rw [advance_of_ne hsame]
    refine ⟨fun c hc => Nat.le_trans (h.bounded c hc) hw, fun k => ?_, fun k => ?_⟩
    · -- nobody has charged anything in a window to come
      exact (Ledger.chargedIn_eq_zero hempty k).symm
    · dsimp only
      split_ifs with hnext
      · -- the next window: the old current counts are the last ones
        subst hnext
        rw [Ledger.chargedBefore_succ]
        exact h.current k
      · -- a window was skipped: nothing was charged in the one just before
        have hgap : ∀ c ∈ ledger, c.window + 1 ≠ w := fun c hc => by
          have := h.bounded c hc
          omega
        exact (Ledger.chargedBefore_eq_zero hgap k).symm

/-- A charge made in the counter's own window is entered in both. -/
theorem Tracks.charge {s : TwoWindow κ} {ledger : List (Charge κ)} (h : s.Tracks ledger)
    (k : κ) (v : Nat) : (s.charge k v).Tracks (ledger ++ [⟨s.index, k, v⟩]) where
  bounded := fun c hc => by
    rcases List.mem_append.mp hc with hc | hc
    · exact h.bounded c hc
    · rw [List.mem_singleton.mp hc]
      exact Nat.le_refl _
  current := fun k' => by
    -- the new entry counts for `k` in this window
    rw [Ledger.chargedIn_append, Ledger.chargedIn_singleton]
    simp only [TwoWindow.charge, h.current k', true_and, eq_comm]
  last := fun k' => by
    -- and for nothing in the window before
    rw [Ledger.chargedBefore_append, Ledger.chargedBefore_singleton]
    simp [TwoWindow.charge, h.last k']

/-! ## Two counters -/

/-- From window `w` on, two counters say the same about `k`. -/
structure Alike (k : κ) (w : Nat) (s r : TwoWindow κ) : Prop where
  reached : s.index ≤ w
  reached' : r.index ≤ w
  current : (s.advance w).current k = (r.advance w).current k
  last : (s.advance w).last k = (r.advance w).last k

variable {k : κ} {w w' : Nat} {s r : TwoWindow κ}

omit [DecidableEq κ] in
theorem Alike.symm (h : Alike k w s r) : Alike k w r s :=
  ⟨h.reached', h.reached, h.current.symm, h.last.symm⟩

omit [DecidableEq κ] in
/-- Equal counters are alike from their window on. -/
theorem alike_of_eq (h : s = r) (hreached : s.index ≤ w) : Alike k w s r := by
  subst h
  exact ⟨hreached, hreached, rfl, rfl⟩

omit [DecidableEq κ] in
/-- Counters that are alike for every key are the same once both look at the clock. -/
theorem advance_eq_of_alike (h : ∀ k, Alike k w s r) : s.advance w = r.advance w := by
  have hcurrent : (s.advance w).current = (r.advance w).current := funext fun k => (h k).current
  have hlast : (s.advance w).last = (r.advance w).last := funext fun k => (h k).last
  have hindex : (s.advance w).index = (r.advance w).index := by
    rw [advance_index, advance_index]
  calc s.advance w
      = ⟨(s.advance w).index, (s.advance w).last, (s.advance w).current⟩ := rfl
    _ = r.advance w := by rw [hindex, hlast, hcurrent]

omit [DecidableEq κ] in
/-- Counters that have seen nothing are alike. -/
theorem alike_fresh {v v' : Nat} (hv : v ≤ w) (hv' : v' ≤ w) :
    Alike k w (fresh v : TwoWindow κ) (fresh v') := by
  refine ⟨hv, hv', ?_, ?_⟩
  · unfold advance fresh
    split_ifs <;> rfl
  · unfold advance fresh
    split_ifs <;> rfl

omit [DecidableEq κ] in
/-- In the same window, what two counters say about a key decides what they say later. -/
theorem advance_congr (hindex : s.index = r.index) (hcurrent : s.current k = r.current k)
    (hlast : s.last k = r.last k) (w : Nat) :
    (s.advance w).current k = (r.advance w).current k ∧
      (s.advance w).last k = (r.advance w).last k := by
  -- both counters roll over, or neither does
  by_cases hsame : w = s.index
  · have hsame' : w = r.index := hsame.trans hindex
    have hstay : s.advance w = s := if_pos hsame
    have hstay' : r.advance w = r := if_pos hsame'
    rw [hstay, hstay']
    exact ⟨hcurrent, hlast⟩
  · have hsame' : w ≠ r.index := by rwa [← hindex]
    rw [advance_of_ne hsame, advance_of_ne hsame', hindex]
    refine ⟨rfl, ?_⟩
    dsimp only
    split_ifs with hnext
    · exact hcurrent
    · rfl

omit [DecidableEq κ] in
theorem Alike.later (h : Alike k w s r) (hle : w ≤ w') : Alike k w' s r := by
  have hthen := advance_congr (s := s.advance w) (r := r.advance w) (by simp) h.current h.last w'
  rw [advance_advance h.reached hle, advance_advance h.reached' hle] at hthen
  exact ⟨h.reached.trans hle, h.reached'.trans hle, hthen.1, hthen.2⟩

omit [DecidableEq κ] in
/-- A counter that looks at the clock stays alike. -/
theorem Alike.advance_left (h : Alike k w s r) : Alike k w (s.advance w) r := by
  have hstop := advance_advance h.reached (le_refl w)
  refine ⟨by rw [advance_index], h.reached', ?_, ?_⟩
  · rw [hstop]
    exact h.current
  · rw [hstop]
    exact h.last

/-- A charge to another key goes unnoticed. -/
theorem Alike.charge_other (h : Alike k w s r) {other : κ} (hne : k ≠ other) (v : Nat) :
    Alike k w (s.charge other v) r := by
  have hcurrent : (s.charge other v).current k = s.current k := by
    simp [charge, hne]
  have hsame := advance_congr (s := s.charge other v) (r := s) rfl hcurrent rfl w
  exact ⟨h.reached, h.reached', hsame.1.trans h.current, hsame.2.trans h.last⟩

/-- The same charge on both sides keeps them alike. -/
theorem Alike.charge (h : Alike k w s r) (hs : s.index = w) (hr : r.index = w) (other : κ)
    (v : Nat) : Alike k w (s.charge other v) (r.charge other v) := by
  have hcurrent := h.current
  have hlast := h.last
  rw [advance, if_pos hs.symm, advance, if_pos hr.symm] at hcurrent hlast
  have hsame := advance_congr (k := k) (s := s.charge other v) (r := r.charge other v)
    (hs.trans hr.symm) (by simp [TwoWindow.charge, hcurrent]) hlast w
  exact ⟨h.reached, h.reached', hsame.1, hsame.2⟩

end TwoWindow

end Library
