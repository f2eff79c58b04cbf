import Mathlib.Data.List.DropRight
import Mathlib.Algebra.Order.Ring.Nat
import Mathlib.Tactic.Ring

/-!
# Numbers in Groups of Bits

A word can be written as digits of a fixed number of bits, from its top down. If the number of
bits of the word is no multiple of it, the last digit is shorter.

- `cut` writes the low bits of a number, `paste` reads digits back, and digits that are missing
  at the end are zero,
- `paste_cut` says that reading undoes writing,
- `paste_rdropWhile` says that zeros at the end need not be written.
-/

namespace Library.BitGroups

/-- The digits of the low `left` bits of a number; every turn takes `width` of them, or all
that are left. -/
def cut (width n : Nat) : Nat → Nat → List Nat
  | 0, _ => []
  | _ + 1, 0 => []
  | turns + 1, left + 1 =>
    let taken := min width (left + 1)
    n / 2 ^ (left + 1 - taken) % 2 ^ taken :: cut width n turns (left + 1 - taken)

/-- The number of `left` bits that some digits stand for. -/
def paste (width : Nat) : Nat → List Nat → Nat
  | _, [] => 0
  | left, d :: ds =>
    let below := left - min width left
    d * 2 ^ below + paste width below ds

variable {width n : Nat}

/-- **Round trip**: with enough turns, the digits of the low bits stand for them. -/
theorem paste_cut (hwidth : 0 < width) {turns left : Nat} (hturns : left ≤ turns) :
    paste width left (cut width n turns left) = n % 2 ^ left := by
  induction turns generalizing left with
  | zero =>
    obtain rfl := Nat.le_zero.mp hturns
    rw [cut, paste, pow_zero, Nat.mod_one]
  | succ turns ih =>
    cases left with
    | zero => rw [cut, paste, pow_zero, Nat.mod_one]
    | succ left =>
      have htaken : 0 < min width (left + 1) := Nat.lt_min.mpr ⟨hwidth, Nat.succ_pos left⟩
      have hle : min width (left + 1) ≤ left + 1 := Nat.min_le_right ..
      rw [cut, paste]
      rw [ih (by omega)]
      generalize min width (left + 1) = taken at htaken hle
      -- the bits that are taken stand above those that are left
      have hsplit : 2 ^ (left + 1) = 2 ^ (left + 1 - taken) * 2 ^ taken := by
        rw [← pow_add, Nat.sub_add_cancel hle]
      rw [hsplit, Nat.mod_mul, Nat.mul_comm, Nat.add_comm]

/-- A digit has the bits of its place, and there is no digit without a bit. -/
theorem lt_of_getElem?_cut {turns left i d : Nat} (h : (cut width n turns left)[i]? = some d) :
    width * i < left ∧ d < 2 ^ min width (left - width * i) := by
  induction turns generalizing left i with
  | zero => cases h
  | succ turns ih =>
    cases left with
    | zero => cases h
    | succ left =>
      rw [cut] at h
      cases i with
      | zero =>
        rw [List.getElem?_cons_zero, Option.some.injEq] at h
        rw [← h, Nat.mul_zero, Nat.sub_zero]
        exact ⟨Nat.succ_pos left, Nat.mod_lt _ (Nat.two_pow_pos _)⟩
      | succ i =>
        rw [List.getElem?_cons_succ] at h
        obtain ⟨hplace, hlt⟩ := ih h
        -- the places of the rest are counted from what the first digit leaves
        have hbits : left + 1 - min width (left + 1) - width * i =
            left + 1 - width * (i + 1) := by
          rw [Nat.mul_succ]
          omega
        rw [hbits] at hlt
        refine ⟨?_, hlt⟩
        rw [Nat.mul_succ]
        omega

/-- A zero at the end makes no difference. -/
theorem paste_concat_zero (width left : Nat) (ds : List Nat) :
    paste width left (ds ++ [0]) = paste width left ds := by
  induction ds generalizing left with
  | nil => simp [paste]
  | cons d ds ih => rw [List.cons_append, paste, paste, ih]

/-- Zeros at the end make no difference. -/
theorem paste_rdropWhile (width left : Nat) (ds : List Nat) :
    paste width left (ds.rdropWhile (· = 0)) = paste width left ds := by
  induction ds using List.reverseRecOn with
  | nil => rw [List.rdropWhile_nil]
  | append_singleton ds d ih =>
    rw [List.rdropWhile_concat]
    split
    · next hzero =>
      rw [ih, of_decide_eq_true hzero, paste_concat_zero]
    · rfl

end Library.BitGroups
