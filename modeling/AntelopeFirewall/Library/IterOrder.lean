import Mathlib.Algebra.BigOperators.Group.Finset.Basic
import Mathlib.Algebra.Order.Ring.Nat
import Mathlib.Data.Finset.Sort

/-!
# Iteration Orders

Code that walks a hash set sees every member once, in an order it may not rely on. An
`IterOrder` is one such order for every finite set; a statement about all of them is a
statement about every run of the loop.
-/

namespace Library

/-- One way to enumerate the finite sets over `α`. -/
structure IterOrder (α : Type) where
  list : Finset α → List α
  nodup : ∀ s, (list s).Nodup
  mem_list : ∀ s a, a ∈ list s ↔ a ∈ s

namespace IterOrder

variable {α : Type} (order : IterOrder α)

@[simp] theorem mem_list_iff {s : Finset α} {a : α} : a ∈ order.list s ↔ a ∈ s :=
  order.mem_list s a

/-- A singleton has only one enumeration. -/
@[simp] theorem list_singleton (a : α) : order.list {a} = [a] := by
  have hmem : ∀ b, b ∈ order.list {a} ↔ b = a := fun b => by simp
  -- without repetitions, lists with the same members are permutations of each other
  have hperm : (order.list {a}).Perm [a] :=
    (List.perm_ext_iff_of_nodup (order.nodup _) (List.nodup_singleton a)).mpr
      (fun b => (hmem b).trans List.mem_singleton.symm)
  exact List.perm_singleton.mp hperm

@[simp] theorem list_empty : order.list ∅ = [] := by
  apply List.eq_nil_iff_forall_not_mem.mpr
  simp

theorem list_ne_nil {s : Finset α} (hs : s.Nonempty) : order.list s ≠ [] := by
  obtain ⟨a, ha⟩ := hs
  exact List.ne_nil_of_mem ((order.mem_list s a).mpr ha)

@[simp] theorem toFinset_list [DecidableEq α] (s : Finset α) : (order.list s).toFinset = s := by
  ext a
  simp

theorem length_list (s : Finset α) : (order.list s).length = s.card := by
  classical
  rw [← List.toFinset_card_of_nodup (order.nodup s), toFinset_list]

theorem list_eq_nil_iff {s : Finset α} : order.list s = [] ↔ s = ∅ := by
  rw [← List.length_eq_zero_iff, length_list, Finset.card_eq_zero]

/-- A sum over the enumeration is the sum over the set. -/
theorem sum_map_list (s : Finset α) (f : α → Nat) :
    ((order.list s).map f).sum = ∑ a ∈ s, f a := by
  classical
  rw [← List.sum_toFinset f (order.nodup s), toFinset_list]

/-- The order with one member moved to the front of the sets it is in. -/
def startingWith [DecidableEq α] (a : α) : IterOrder α where
  list s := if a ∈ s then a :: (order.list s).erase a else order.list s
  nodup s := by
    split
    · have hfresh := (order.nodup s).not_mem_erase (a := a)
      exact List.nodup_cons.mpr ⟨hfresh, (order.nodup s).erase a⟩
    · exact order.nodup s
  mem_list s b := by
    split
    · next ha =>
      rw [List.mem_cons, (order.nodup s).mem_erase_iff, order.mem_list]
      by_cases hb : b = a
      · simp [hb, ha]
      · simp [hb]
    · exact order.mem_list s b

/-- The moved member comes first. -/
theorem list_startingWith [DecidableEq α] {a : α} {s : Finset α} (ha : a ∈ s) :
    (order.startingWith a).list s = a :: (order.list s).erase a := if_pos ha

/-- A pair in the order of the moved member. -/
theorem list_startingWith_pair [DecidableEq α] {a b : α} (hne : a ≠ b) :
    (order.startingWith a).list {a, b} = [a, b] := by
  have hnodup := order.nodup {a, b}
  have hmem : ∀ c, c ∈ (order.list {a, b}).erase a ↔ c ∈ [b] := by
    intro c
    rw [hnodup.mem_erase_iff]
    by_cases hc : c = a
    · simp [hc, hne]
    · simp [hc]
  have hperm : ((order.list {a, b}).erase a).Perm [b] :=
    (List.perm_ext_iff_of_nodup (hnodup.erase a) (List.nodup_singleton b)).mpr hmem
  rw [order.list_startingWith (Finset.mem_insert_self a {b}), List.perm_singleton.mp hperm]

/-- The order with the enumeration of one set given. -/
def listing [DecidableEq α] (xs : List α) (hxs : xs.Nodup) : IterOrder α where
  list s := if s = xs.toFinset then xs else order.list s
  nodup s := by
    split
    · exact hxs
    · exact order.nodup s
  mem_list s a := by
    split
    · next hs => rw [hs, List.mem_toFinset]
    · exact order.mem_list s a

/-- Some order. -/
noncomputable def arbitrary (α : Type) : IterOrder α where
  list := Finset.toList
  nodup := Finset.nodup_toList
  mem_list _ _ := Finset.mem_toList

/-- Ascending order. -/
def sorted {α : Type} [LinearOrder α] : IterOrder α where
  list s := s.sort (· ≤ ·)
  nodup s := s.sort_nodup (· ≤ ·)
  mem_list s a := by simp

end IterOrder

end Library
