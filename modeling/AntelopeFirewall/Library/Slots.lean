import Mathlib.Data.Nat.Periodic
import Mathlib.Data.List.Basic

/-!
# Slots of a Cycle

Elements with weights share a cycle that has as many slots as the weights add up to: the slots
of an element are as many as its weight and follow those of the elements before it.

- `Covers` says that a slot belongs to the element at a place,
- `existsUnique_covers` says that every slot belongs to one element,
- `card_covers_mod` counts the turns of an element in any whole turn of the cycle.
-/

namespace Library.Slots

variable {α : Type} {weight : α → Nat} {x : α} {xs : List α} {i slot : Nat}

/-- The slots of all elements. -/
def total (weight : α → Nat) (xs : List α) : Nat := (xs.map weight).sum

/-- The slots of the elements before a place. -/
def before (weight : α → Nat) (xs : List α) (i : Nat) : Nat := total weight (xs.take i)

/-- The slot belongs to the element at a place. -/
structure Covers (weight : α → Nat) (xs : List α) (i slot : Nat) : Prop where
  before_le : before weight xs i ≤ slot
  lt_before_succ : slot < before weight xs (i + 1)

instance (weight : α → Nat) (xs : List α) (i slot : Nat) : Decidable (Covers weight xs i slot) :=
  decidable_of_iff (before weight xs i ≤ slot ∧ slot < before weight xs (i + 1))
    ⟨fun h => ⟨h.1, h.2⟩, fun h => ⟨h.before_le, h.lt_before_succ⟩⟩

@[simp] theorem total_nil : total weight [] = 0 := rfl

@[simp] theorem total_cons : total weight (x :: xs) = weight x + total weight xs := by
  unfold total
  rw [List.map_cons, List.sum_cons]

@[simp] theorem before_zero : before weight xs 0 = 0 := rfl

@[simp] theorem before_nil : before weight [] i = 0 := by
  unfold before
  rw [List.take_nil, total_nil]

@[simp] theorem before_cons_succ :
    before weight (x :: xs) (i + 1) = weight x + before weight xs i := by
  unfold before
  rw [List.take_succ_cons, total_cons]

/-! ## One element owns a slot -/

theorem covers_cons_zero : Covers weight (x :: xs) 0 slot ↔ slot < weight x := by
  constructor
  · intro h
    simpa using h.lt_before_succ
  · intro h
    exact ⟨Nat.zero_le slot, by simpa using h⟩

/-- Behind the first element the slots are those of the rest. -/
theorem covers_cons_succ : Covers weight (x :: xs) (i + 1) slot ↔
    weight x ≤ slot ∧ Covers weight xs i (slot - weight x) := by
  constructor
  · intro h
    have hle := h.before_le
    have hlt := h.lt_before_succ
    rw [before_cons_succ] at hle hlt
    exact ⟨by omega, by omega, by omega⟩
  · rintro ⟨hfirst, hle, hlt⟩
    refine ⟨?_, ?_⟩
    · rw [before_cons_succ]
      omega
    · rw [before_cons_succ]
      omega

theorem not_covers_nil : ¬ Covers weight [] i slot := by
  intro h
  simpa using h.lt_before_succ

/-- There is an element where a slot belongs to. -/
theorem Covers.exists_getElem? (h : Covers weight xs i slot) : ∃ x, xs[i]? = some x := by
  induction xs generalizing i slot with
  | nil => exact absurd h not_covers_nil
  | cons x xs ih =>
    cases i with
    | zero => exact ⟨x, rfl⟩
    | succ i => exact ih (covers_cons_succ.mp h).2

/-- **Every slot of the cycle belongs to one element.** -/
theorem existsUnique_covers (h : slot < total weight xs) :
    ∃! i, Covers weight xs i slot := by
  induction xs generalizing slot with
  | nil => cases h
  | cons x xs ih =>
    by_cases hfirst : slot < weight x
    · refine ⟨0, covers_cons_zero.mpr hfirst, ?_⟩
      rintro (_ | i) hi
      · rfl
      · exact absurd (covers_cons_succ.mp hi).1 (Nat.not_le.mpr hfirst)
    · rw [total_cons] at h
      have hrest : slot - weight x < total weight xs := by omega
      obtain ⟨i, hcovers, hunique⟩ := ih hrest
      refine ⟨i + 1, covers_cons_succ.mpr ⟨by omega, hcovers⟩, ?_⟩
      rintro (_ | j) hj
      · exact absurd (covers_cons_zero.mp hj) hfirst
      · rw [hunique j (covers_cons_succ.mp hj).2]

/-! ## How many slots an element owns -/

/-- An element owns the slots from those before it on, as many as its weight. -/
theorem before_succ (h : xs[i]? = some x) :
    before weight xs (i + 1) = before weight xs i + weight x := by
  unfold before total
  rw [List.take_add_one, h, Option.toList_some, List.map_append, List.sum_append]
  simp

theorem before_le_total : before weight xs i ≤ total weight xs := by
  induction xs generalizing i with
  | nil => simp
  | cons x xs ih =>
    cases i with
    | zero => exact Nat.zero_le _
    | succ i =>
      rw [before_cons_succ, total_cons]
      exact Nat.add_le_add_left ih _

/-- An element owns as many slots of the cycle as its weight. -/
theorem count_covers (h : xs[i]? = some x) :
    Nat.count (Covers weight xs i) (total weight xs) = weight x := by
  have hslots : (Finset.range (total weight xs)).filter (Covers weight xs i) =
      Finset.Ico (before weight xs i) (before weight xs (i + 1)) := by
    ext slot
    rw [Finset.mem_filter, Finset.mem_range, Finset.mem_Ico]
    constructor
    · rintro ⟨-, hcovers⟩
      exact ⟨hcovers.before_le, hcovers.lt_before_succ⟩
    · rintro ⟨hle, hlt⟩
      exact ⟨lt_of_lt_of_le hlt before_le_total, hle, hlt⟩
  rw [Nat.count_eq_card_filter_range, hslots, Nat.card_Ico, before_succ h, Nat.add_sub_cancel_left]

/-- What holds of some slots holds as often in any whole turn of the cycle. -/
theorem card_mod (p : Nat → Prop) [DecidablePred p] (start period : Nat) :
    ((Finset.Ico start (start + period)).filter fun n => p (n % period)).card =
      Nat.count p period := by
  have hperiodic : Function.Periodic (fun n => p (n % period)) period := by
    intro n
    show p ((n + period) % period) = _
    rw [Nat.add_mod_right]
  rw [Nat.filter_Ico_card_eq_of_periodic start _ _ hperiodic, Nat.count_eq_card_filter_range,
    Nat.count_eq_card_filter_range]
  -- below the period the remainder is the number itself
  congr 1
  apply Finset.filter_congr
  intro n hn
  rw [Nat.mod_eq_of_lt (Finset.mem_range.mp hn)]

/-- **In any whole turn of the cycle an element has as many turns as its weight.** -/
theorem card_covers_mod (h : xs[i]? = some x) (start : Nat) :
    ((Finset.Ico start (start + total weight xs)).filter
      fun n => Covers weight xs i (n % total weight xs)).card = weight x := by
  rw [card_mod (Covers weight xs i), count_covers h]

end Library.Slots
