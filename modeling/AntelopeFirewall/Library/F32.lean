import Mathlib.Data.Rat.Defs
import Mathlib.Algebra.Order.Ring.Unbundled.Rat

/-!
# Single-Precision Arithmetic

What a program computes with `f32` values: conversions from integers and durations, the
four operations and the partial comparison. Code over `F32` runs with any arithmetic; the
rational numbers are its exact reading.
-/

namespace Library

/-- The operations on single-precision numbers that a program uses. -/
class F32 (F : Type) where
  /-- Conversion of an unsigned integer. -/
  ofU64 : Nat → F
  /-- A duration in nanoseconds, in seconds. -/
  asSecs : Nat → F
  add : F → F → F
  sub : F → F → F
  mul : F → F → F
  div : F → F → F
  /-- No order for an operand that is not a number. -/
  partialCmp : F → F → Option Ordering

namespace F32

variable {F : Type} [F32 F]

/-- `a > b`. -/
def gt (a b : F) : Bool := partialCmp a b = some .gt

/-- Exact arithmetic. -/
instance : F32 ℚ where
  ofU64 n := n
  asSecs nanos := nanos / 10 ^ 9
  add := (· + ·)
  sub := (· - ·)
  mul := (· * ·)
  div := (· / ·)
  partialCmp a b := some (if a < b then .lt else if a = b then .eq else .gt)

@[simp] theorem ofU64_rat (n : Nat) : (ofU64 n : ℚ) = n := rfl

@[simp] theorem asSecs_rat (nanos : Nat) : (asSecs nanos : ℚ) = nanos / 10 ^ 9 := rfl

@[simp] theorem add_rat (a b : ℚ) : add a b = a + b := rfl

@[simp] theorem sub_rat (a b : ℚ) : sub a b = a - b := rfl

@[simp] theorem mul_rat (a b : ℚ) : mul a b = a * b := rfl

@[simp] theorem div_rat (a b : ℚ) : div a b = a / b := rfl

/-- Over the rational numbers `gt` is the order. -/
theorem gt_rat (a b : ℚ) : gt a b = decide (b < a) := by
  rcases lt_trichotomy a b with h | rfl | h
  · simp [gt, partialCmp, h, not_lt_of_gt h]
  · simp [gt, partialCmp]
  · simp [gt, partialCmp, not_lt_of_gt h, h, ne_of_gt h]

end F32

end Library
