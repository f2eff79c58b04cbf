import Mathlib.Data.List.AList
import Mathlib.Tactic.SplitIfs

/-!
# Hash Tables

A hash table is read through its keys, never through the order of its entries, so an
association list with distinct keys stands for it. `AList` supplies look-up, insertion and
the distinctness of keys; this file adds what a bounded table of counters needs:

- `Table.len` and `Table.retain`, the size and the sweep,
- `Table.count` and `Table.bump`, a table of natural counters with default zero.
-/

namespace Library

/-- A table from `κ` to `ν` with at most one entry per key. -/
abbrev Table (κ ν : Type) := AList fun _ : κ => ν

namespace Table

variable {κ ν : Type}

/-! ## Size and sweep -/

/-- Number of entries. -/
def len (t : Table κ ν) : Nat := t.entries.length

/-- Keep the entries that satisfy `p`. -/
def retain (p : κ → ν → Bool) (t : Table κ ν) : Table κ ν where
  entries := t.entries.filter fun e => p e.1 e.2
  nodupKeys := t.nodupKeys.sublist List.filter_sublist

theorem len_eq_length_keys (t : Table κ ν) : t.len = t.keys.length :=
  (List.length_map ..).symm

/-- A sweep that drops nothing leaves the table as it is. -/
theorem retain_eq_self {p : κ → ν → Bool} {t : Table κ ν} (h : t.len ≤ (t.retain p).len) :
    t.retain p = t := by
  apply AList.ext
  have hlength : t.entries.length ≤ (t.entries.filter fun e => p e.1 e.2).length := h
  exact List.filter_sublist.eq_of_length_le hlength

variable [DecidableEq κ]

/-- A write to a key that is there keeps the size. -/
theorem len_insert_of_mem {k : κ} {t : Table κ ν} (h : k ∈ t) (v : ν) :
    len (t.insert k v) = t.len := by
  rw [len_eq_length_keys, len_eq_length_keys, AList.keys_insert]
  exact (List.perm_cons_erase (AList.mem_keys.mp h)).length_eq.symm

/-- A write to a new key adds one entry. -/
theorem len_insert_of_not_mem {k : κ} {t : Table κ ν} (h : k ∉ t) (v : ν) :
    len (t.insert k v) = t.len + 1 := by
  rw [len_eq_length_keys, len_eq_length_keys, AList.keys_insert,
    List.erase_of_not_mem (mt AList.mem_keys.mpr h), List.length_cons]

/-- A swept table answers with the old entry when the sweep kept it. -/
theorem lookup_retain (p : κ → ν → Bool) (t : Table κ ν) (k : κ) :
    (t.retain p).lookup k = (t.lookup k).filter (p k) := by
  ext v
  -- with distinct keys a look-up finds an entry exactly when the table has it
  simp only [Option.filter_eq_some_iff, AList.lookup]
  rw [← Option.mem_def, List.mem_dlookup_iff (t.retain p).nodupKeys,
    ← Option.mem_def, List.mem_dlookup_iff t.nodupKeys]
  simp [retain]

/-! ## Counters -/

/-- The counter of `k`, zero when the table has no entry. -/
def count (t : Table κ Nat) (k : κ) : Nat := (t.lookup k).getD 0

/-- Raise the counter of `k` by `v`, with a new entry for an absent key. -/
def bump (k : κ) (v : Nat) (t : Table κ Nat) : Table κ Nat :=
  match t.lookup k with
  | some e => t.insert k (e + v)
  | none => t.insert k v

@[simp] theorem count_empty (k : κ) : (∅ : Table κ Nat).count k = 0 := rfl

theorem count_bump_self (k : κ) (v : Nat) (t : Table κ Nat) :
    (t.bump k v).count k = t.count k + v := by
  unfold bump count
  cases h : t.lookup k <;> simp

theorem count_bump_ne {k k' : κ} (h : k' ≠ k) (v : Nat) (t : Table κ Nat) :
    (t.bump k v).count k' = t.count k' := by
  unfold bump count
  cases t.lookup k <;> simp [AList.lookup_insert_ne h]

/-- A bump raises one counter and no other. -/
theorem count_bump (k k' : κ) (v : Nat) (t : Table κ Nat) :
    (t.bump k v).count k' = t.count k' + if k' = k then v else 0 := by
  split_ifs with h
  · subst h
    exact count_bump_self k' v t
  · rw [count_bump_ne h, Nat.add_zero]

end Table

end Library
