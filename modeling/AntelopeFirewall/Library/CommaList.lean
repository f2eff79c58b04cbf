import Mathlib.Data.List.DropRight

/-!
# Lists in One Value

A value can list entries: a separator stands between two of them, blanks around an entry are
no part of it, and an empty entry does not count. The header fields of HTTP that carry lists
are of this form.

- `entries` reads a value and `join` writes one,
- `entries_append_sep` is the equation that the rest follows from,
- `entries_join` says that what is written is read back,
- `entries_map` says that reading commutes with a change of alphabet.
-/

namespace Library.CommaList

variable {α β : Type}

/-! ## Trimming -/

/-- Without the blanks at either end. -/
def trim (blank : α → Bool) (xs : List α) : List α := (xs.dropWhile blank).rdropWhile blank

theorem trim_sublist (blank : α → Bool) (xs : List α) : (trim blank xs).Sublist xs :=
  (List.rdropWhile_prefix _ _).sublist.trans (List.dropWhile_sublist _)

theorem trim_cons_blank {blank : α → Bool} {b : α} (h : blank b = true) (xs : List α) :
    trim blank (b :: xs) = trim blank xs := by
  unfold trim
  rw [List.dropWhile_cons_of_pos h]

/-- Nothing is left to trim. -/
theorem trim_trim (blank : α → Bool) (xs : List α) :
    trim blank (trim blank xs) = trim blank xs := by
  have hfront : (trim blank xs).dropWhile blank = trim blank xs := by
    cases htrimmed : trim blank xs with
    | nil => rfl
    | cons x rest =>
      -- the first element left was the first one that is no blank
      have hprefix : x :: rest <+: xs.dropWhile blank := by
        rw [← htrimmed]
        exact List.rdropWhile_prefix _ _
      obtain ⟨tail, htail⟩ := hprefix
      have hhead := List.head?_dropWhile_not blank xs
      rw [← htail] at hhead
      apply List.dropWhile_cons_of_neg
      simpa using hhead
  calc trim blank (trim blank xs)
      = (trim blank xs).rdropWhile blank := by rw [trim, hfront]
    _ = trim blank xs := List.rdropWhile_idempotent _ _

/-- The front is trimmed alike under a change of alphabet that keeps blanks. -/
theorem dropWhile_map_of {blank : α → Bool} {blank' : β → Bool} {f : α → β} {xs : List α}
    (h : ∀ x ∈ xs, blank' (f x) = blank x) :
    (xs.map f).dropWhile blank' = (xs.dropWhile blank).map f := by
  induction xs with
  | nil => rfl
  | cons x rest ih =>
    have hrest := ih fun y hy => h y (List.mem_cons_of_mem _ hy)
    simp only [List.map_cons, List.dropWhile_cons, h x (List.mem_cons_self ..), hrest]
    split <;> rfl

/-- So is the back. -/
theorem rdropWhile_map_of {blank : α → Bool} {blank' : β → Bool} {f : α → β} {xs : List α}
    (h : ∀ x ∈ xs, blank' (f x) = blank x) :
    (xs.map f).rdropWhile blank' = (xs.rdropWhile blank).map f := by
  have hrev : (xs.reverse.map f).dropWhile blank' = (xs.reverse.dropWhile blank).map f :=
    dropWhile_map_of fun x hx => h x (List.mem_reverse.mp hx)
  unfold List.rdropWhile
  rw [← List.map_reverse, hrev, List.map_reverse]

/-- Trimming commutes with a change of alphabet that keeps blanks. -/
theorem trim_map {blank : α → Bool} {blank' : β → Bool} {f : α → β} {xs : List α}
    (h : ∀ x ∈ xs, blank' (f x) = blank x) :
    trim blank' (xs.map f) = (trim blank xs).map f := by
  unfold trim
  rw [dropWhile_map_of h, rdropWhile_map_of]
  intro y hy
  exact h y ((List.dropWhile_sublist _).mem hy)

/-! ## Reading and writing -/

variable [DecidableEq α]

/-- The entries of a value. -/
def entries (sep : α) (blank : α → Bool) (xs : List α) : List (List α) :=
  ((xs.splitOn sep).map (trim blank)).filter (· ≠ [])

/-- The value that lists some entries, each but the first after a separator and a pad. -/
def join (sep pad : α) (es : List (List α)) : List α := [sep, pad].intercalate es

/-- An entry as it is read. -/
structure Entry (sep : α) (blank : α → Bool) (e : List α) : Prop where
  nonempty : e ≠ []
  unbroken : sep ∉ e
  trimmed : trim blank e = e

variable {sep pad : α} {blank : α → Bool}

/-- What comes before a separator and what comes after it are read on their own. -/
theorem entries_append_sep (xs ys : List α) :
    entries sep blank (xs ++ sep :: ys) = entries sep blank xs ++ entries sep blank ys := by
  unfold entries
  rw [List.splitOn_append_cons_self, List.map_append, List.filter_append]

/-- A blank at the front is in no entry. -/
theorem entries_cons_blank {b : α} (hblank : blank b = true) (hsep : b ≠ sep) (xs : List α) :
    entries sep blank (b :: xs) = entries sep blank xs := by
  unfold entries
  obtain ⟨first, rest, hsplit⟩ := List.exists_cons_of_ne_nil (List.splitOn_ne_nil sep xs)
  rw [List.splitOn_cons_eq_if_modifyHead, if_neg (by simpa using hsep), hsplit,
    List.modifyHead_cons, List.map_cons, List.map_cons, trim_cons_blank hblank]

/-- An entry lists itself. -/
theorem entries_entry {e : List α} (h : Entry sep blank e) : entries sep blank e = [e] := by
  unfold entries
  rw [List.splitOn_eq_singleton h.unbroken, List.map_singleton, h.trimmed]
  simp [h.nonempty]

/-- **Round trip**: the entries that are written are those that are read. -/
theorem entries_join (hblank : blank pad = true) (hsep : pad ≠ sep) {es : List (List α)}
    (h : ∀ e ∈ es, Entry sep blank e) : entries sep blank (join sep pad es) = es := by
  induction es with
  | nil => simp [entries, join, trim]
  | cons e rest ih =>
    have hrest := ih fun e' he' => h e' (List.mem_cons_of_mem _ he')
    have hfirst := entries_entry (h e (List.mem_cons_self ..))
    unfold join at hrest ⊢
    cases rest with
    | nil =>
      rw [List.intercalate_singleton]
      exact hfirst
    | cons e' rest =>
      -- the first entry ends at the separator, and the pad is in no entry
      rw [List.intercalate_cons_cons, List.append_assoc, List.cons_append, List.singleton_append,
        entries_append_sep, entries_cons_blank hblank hsep, hfirst, hrest, List.singleton_append]

/-- The elements of a part of a split list. -/
theorem mem_of_mem_splitOn {xs part : List α} (hpart : part ∈ xs.splitOn sep) {x : α}
    (hx : x ∈ part) : x ∈ xs ∧ x ≠ sep := by
  -- Induction on the text: a separator starts a part, and any other character goes to the first.
  induction xs generalizing part x with
  | nil =>
    rw [List.splitOn_nil, List.mem_singleton] at hpart
    rw [hpart] at hx
    cases hx
  | cons y rest ih =>
    obtain ⟨first, others, hsplit⟩ := List.exists_cons_of_ne_nil (List.splitOn_ne_nil sep rest)
    have hlater : ∀ part ∈ first :: others, ∀ x ∈ part, x ∈ y :: rest ∧ x ≠ sep := by
      intro part hpart x hx
      rw [← hsplit] at hpart
      obtain ⟨hmem, hne⟩ := ih hpart hx
      exact ⟨List.mem_cons_of_mem _ hmem, hne⟩
    rw [List.splitOn_cons_eq_if_modifyHead, hsplit] at hpart
    -- at a separator the first part is empty
    split at hpart
    · rcases List.mem_cons.mp hpart with rfl | hpart
      · cases hx
      · exact hlater part hpart x hx
    · next hy =>
      rw [List.modifyHead_cons] at hpart
      rcases List.mem_cons.mp hpart with rfl | hpart
      · -- the first part goes on to the left
        rcases List.mem_cons.mp hx with rfl | hx
        · exact ⟨List.mem_cons_self .., by simpa using hy⟩
        · exact hlater first (List.mem_cons_self ..) x hx
      · exact hlater part (List.mem_cons_of_mem _ hpart) x hx

/-- The entries that are read are entries. -/
theorem entry_of_mem_entries {xs e : List α} (h : e ∈ entries sep blank xs) :
    Entry sep blank e := by
  obtain ⟨htrimmed, hne⟩ := List.mem_filter.mp h
  obtain ⟨part, hpart, rfl⟩ := List.mem_map.mp htrimmed
  refine ⟨by simpa using hne, ?_, trim_trim blank part⟩
  intro hsep
  exact (mem_of_mem_splitOn hpart ((trim_sublist blank part).mem hsep)).2 rfl

/-- Every element of an entry comes from the value. -/
theorem mem_of_mem_entries {xs e : List α} (h : e ∈ entries sep blank xs) {x : α} (hx : x ∈ e) :
    x ∈ xs := by
  obtain ⟨part, hpart, rfl⟩ := List.mem_map.mp (List.mem_filter.mp h).1
  exact (mem_of_mem_splitOn hpart ((trim_sublist blank part).mem hx)).1

omit [DecidableEq α] in
/-- Every element of a written value is of an entry, the separator or the pad. -/
theorem mem_of_mem_join {es : List (List α)} {x : α} (h : x ∈ join sep pad es) :
    x = sep ∨ x = pad ∨ ∃ e ∈ es, x ∈ e := by
  induction es with
  | nil => cases h
  | cons e rest ih =>
    have hrest : x ∈ join sep pad rest → x = sep ∨ x = pad ∨ ∃ e' ∈ e :: rest, x ∈ e' := by
      intro hx
      refine (ih hx).imp_right (Or.imp_right ?_)
      rintro ⟨e', he', hx⟩
      exact ⟨e', List.mem_cons_of_mem _ he', hx⟩
    have hfirst : x ∈ e → x = sep ∨ x = pad ∨ ∃ e' ∈ e :: rest, x ∈ e' :=
      fun hx => .inr (.inr ⟨e, List.mem_cons_self .., hx⟩)
    unfold join at h hrest
    cases rest with
    | nil =>
      rw [List.intercalate_singleton] at h
      exact hfirst h
    | cons e' rest =>
      -- the separator and the pad stand between two entries
      rw [List.intercalate_cons_cons] at h
      simp only [List.mem_append, List.mem_cons, List.not_mem_nil, or_false] at h
      rcases h with (hx | rfl | rfl) | hx
      · exact hfirst hx
      · exact .inl rfl
      · exact .inr (.inl rfl)
      · exact hrest hx

/-! ## Another alphabet -/

variable [DecidableEq β]

omit [DecidableEq α] [DecidableEq β] in
/-- Writing commutes with a change of alphabet. -/
theorem join_map (f : α → β) (sep pad : α) (es : List (List α)) :
    join (f sep) (f pad) (es.map (List.map f)) = (join sep pad es).map f := by
  unfold join
  induction es with
  | nil => rfl
  | cons e rest ih =>
    cases rest with
    | nil => simp
    | cons e' rest =>
      rw [List.map_cons] at ih
      simp only [List.map_cons, List.intercalate_cons_cons, ih, List.map_append, List.map_nil]

/-- Splitting commutes with a change of alphabet that keeps the separator apart. -/
theorem splitOn_map {sep' : β} {f : α → β} {xs : List α} (h : ∀ x ∈ xs, f x = sep' ↔ x = sep) :
    (xs.map f).splitOn sep' = (xs.splitOn sep).map (List.map f) := by
  induction xs with
  | nil => simp
  | cons x rest ih =>
    have hrest := ih fun y hy => h y (List.mem_cons_of_mem _ hy)
    obtain ⟨first, others, hsplit⟩ := List.exists_cons_of_ne_nil (List.splitOn_ne_nil sep rest)
    rw [List.map_cons, List.splitOn_cons_eq_if_modifyHead, List.splitOn_cons_eq_if_modifyHead,
      hrest, hsplit]
    have hhead := h x (List.mem_cons_self ..)
    by_cases hx : x = sep
    · subst hx
      simp [hhead.mpr rfl]
    · simp [mt hhead.mp hx, hx]

/-- Reading commutes with a change of alphabet that keeps the separator and the blanks. -/
theorem entries_map {sep' : β} {blank' : β → Bool} {f : α → β} {xs : List α}
    (hsep : ∀ x ∈ xs, f x = sep' ↔ x = sep) (hblank : ∀ x ∈ xs, blank' (f x) = blank x) :
    entries sep' blank' (xs.map f) = (entries sep blank xs).map (List.map f) := by
  have htrim : ∀ part ∈ xs.splitOn sep,
      trim blank' (part.map f) = (trim blank part).map f := by
    intro part hpart
    apply trim_map
    intro x hx
    exact hblank x (mem_of_mem_splitOn hpart hx).1
  have hempty : ∀ part : List α, decide (part.map f ≠ []) = decide (part ≠ []) := by
    intro part
    simp
  unfold entries
  -- the three passes of the reading, one after the other
  calc (((xs.map f).splitOn sep').map (trim blank')).filter (· ≠ [])
      = ((xs.splitOn sep).map fun part => (trim blank part).map f).filter (· ≠ []) := by
        rw [splitOn_map hsep, List.map_map]
        exact congrArg _ (List.map_congr_left htrim)
    _ = (((xs.splitOn sep).map (trim blank)).map (List.map f)).filter (· ≠ []) := by
        rw [List.map_map]
        rfl
    _ = (((xs.splitOn sep).map (trim blank)).filter (· ≠ [])).map (List.map f) := by
        rw [List.filter_map]
        congr 1
        exact List.filter_congr fun part _ => hempty part

end Library.CommaList
