import AntelopeFirewall.Library.FixedWindow

/-!
# Fixed Windows on Lagging Readings

Callers of a shared counter read the clock before they get to it, so it may see a reading after
later ones. `IsLagging` is what the windows of a fixed-window counter look like when no reading
lags an earlier one by more than a delay: a window may hold readings from before it was opened,
and the next one may be opened early. `IsLagging.countP_le` is what is left of the bound: an
interval has to be shorter than the window by three delays to see no more than two windows.
-/

namespace Library.FixedWindow

/-- At most `limit` events in a group, each read no more than `delay` before the first one and
less than `window` after it, and group openings less than `window` apart by `delay` at most. -/
structure IsLagging (limit window delay : Nat) (groups : List Group) : Prop where
  size : ∀ g ∈ groups, g.times.length ≤ limit
  span : ∀ g ∈ groups, ∀ t ∈ g.times, g.first ≤ t + delay ∧ t < g.first + window
  apart : groups.Pairwise fun g g' => g.first + window ≤ g'.first + delay

variable {limit window delay : Nat}

theorem isLagging_nil : IsLagging limit window delay [] :=
  ⟨by simp, by simp, List.Pairwise.nil⟩

/-! ## Growing -/

/-- A new window may open once every earlier one has ended, or would within the delay. -/
theorem IsLagging.open {groups : List Group} (h : IsLagging limit window delay groups)
    {now : Nat} (hlimit : 0 < limit) (hwindow : 0 < window)
    (hended : ∀ g ∈ groups, g.first + window ≤ now + delay) :
    IsLagging limit window delay (groups ++ [⟨now, []⟩]) where
  size := fun g hg => by
    rcases List.mem_append.mp hg with hg | hg
    · exact h.size g hg
    · rw [List.mem_singleton.mp hg]
      exact hlimit
  span := fun g hg => by
    rcases List.mem_append.mp hg with hg | hg
    · exact h.span g hg
    · rw [List.mem_singleton.mp hg]
      intro t ht
      rw [List.mem_singleton.mp ht]
      exact ⟨Nat.le_add_right _ _, Nat.lt_add_of_pos_right hwindow⟩
  -- the groups before it have ended, but for the delay
  apart := List.pairwise_append.mpr
    ⟨h.apart, List.pairwise_singleton _ _, fun g hg g' hg' => by
      rw [List.mem_singleton.mp hg']
      exact hended g hg⟩

/-- The last window takes one more event while it lasts and has room. -/
theorem IsLagging.extend {groups : List Group} {g : Group}
    (h : IsLagging limit window delay (groups ++ [g])) {now : Nat}
    (hroom : g.times.length < limit) (hafter : g.first ≤ now + delay)
    (hlive : now < g.first + window) :
    IsLagging limit window delay (groups ++ [⟨g.first, g.later ++ [now]⟩]) where
  size := fun g' hg' => by
    rcases List.mem_append.mp hg' with hg' | hg'
    · exact h.size g' (List.mem_append_left _ hg')
    · rw [List.mem_singleton.mp hg']
      have hroom' : g.later.length + 1 < limit := hroom
      simp only [Group.times, List.length_cons, List.length_append, List.length_nil]
      omega
  span := fun g' hg' => by
    rcases List.mem_append.mp hg' with hg' | hg'
    · exact h.span g' (List.mem_append_left _ hg')
    · rw [List.mem_singleton.mp hg']
      intro t ht
      -- the new reading is in the last group, beside those it had
      have hsplit : t ∈ g.times ∨ t = now := by
        simpa [Group.times, or_assoc] using ht
      rcases hsplit with ht | rfl
      · exact h.span g (List.mem_append_right _ (List.mem_singleton_self g)) t ht
      · exact ⟨hafter, hlive⟩
  apart := by
    obtain ⟨hold, -, hlast⟩ := List.pairwise_append.mp h.apart
    refine List.pairwise_append.mpr ⟨hold, List.pairwise_singleton _ _, fun g' hg' g'' hg'' => ?_⟩
    rw [List.mem_singleton.mp hg'']
    exact hlast g' hg' g (List.mem_singleton_self g)

/-- Every group ended before the last one would, within the delay. -/
theorem IsLagging.ended {old : List Group} {g : Group}
    (h : IsLagging limit window delay (old ++ [g])) {now : Nat}
    (hend : g.first + window ≤ now + delay) (hlong : delay ≤ window) :
    ∀ g' ∈ old ++ [g], g'.first + window ≤ now + delay := by
  intro g' hg'
  rcases List.mem_append.mp hg' with hg' | hg'
  · have hgap := (List.pairwise_append.mp h.apart).2.2 g' hg' g (List.mem_singleton_self g)
    omega
  · rwa [List.mem_singleton.mp hg']

/-! ## Counting inside an interval -/

theorem IsLagging.tail {g : Group} {groups : List Group}
    (h : IsLagging limit window delay (g :: groups)) : IsLagging limit window delay groups where
  size := fun g' hg' => h.size g' (List.mem_cons_of_mem _ hg')
  span := fun g' hg' => h.span g' (List.mem_cons_of_mem _ hg')
  apart := h.apart.of_cons

theorem IsLagging.countP_times_le {groups : List Group} (h : IsLagging limit window delay groups)
    {g : Group} (hg : g ∈ groups) (p : Nat → Bool) : g.times.countP p ≤ limit :=
  List.countP_le_length.trans (h.size g hg)

/-- Groups that open more than a delay after the interval contribute nothing to it. -/
theorem IsLagging.countP_eq_zero {groups : List Group} (h : IsLagging limit window delay groups)
    {length x : Nat} (hlate : ∀ g ∈ groups, x + length + delay ≤ g.first) :
    (flatten groups).countP (inInterval length x) = 0 := by
  apply List.countP_eq_zero.mpr
  intro t ht
  obtain ⟨g, hg, htg⟩ := List.mem_flatMap.mp ht
  have hopen := hlate g hg
  have hspan := (h.span g hg t htg).1
  simp only [inInterval, decide_eq_true_eq, not_and]
  omega

/-- If no group opens more than a delay before the interval, only the first one can reach it. -/
theorem IsLagging.countP_le_limit {groups : List Group}
    (h : IsLagging limit window delay groups) {length x : Nat}
    (hshort : length + 3 * delay ≤ window) (hfrom : ∀ g ∈ groups, x ≤ g.first + delay) :
    (flatten groups).countP (inInterval length x) ≤ limit := by
  cases groups with
  | nil => exact Nat.zero_le _
  | cons g rest =>
    have hrest : (flatten rest).countP (inInterval length x) = 0 :=
      h.tail.countP_eq_zero fun g' hg' => by
        have hx := hfrom g (List.mem_cons_self ..)
        have hgap := List.rel_of_pairwise_cons h.apart hg'
        omega
    rw [flatten_cons, List.countP_append, hrest, Nat.add_zero]
    exact h.countP_times_le (List.mem_cons_self ..) _

/-- **Interval bound**: at most `2 * limit` events are read in an interval that is shorter than
the window by three delays. -/
theorem IsLagging.countP_le {groups : List Group} (h : IsLagging limit window delay groups)
    {length : Nat} (hshort : length + 3 * delay ≤ window) (x : Nat) :
    (flatten groups).countP (inInterval length x) ≤ 2 * limit := by
  -- Induction on the groups, as for readings in order, with the delay taken off the window.
  induction groups with
  | nil => exact Nat.zero_le _
  | cons g rest ih =>
    rw [flatten_cons, List.countP_append]
    by_cases hreach : ∃ t ∈ g.times, inInterval length x t = true
    · -- `g` reaches the interval, so every later group opens after its start, but for the delay
      obtain ⟨t, ht, hin⟩ := hreach
      have hspan := (h.span g (List.mem_cons_self ..) t ht).2
      have hin' : x ≤ t ∧ t < x + length := by simpa [inInterval] using hin
      have hrest := h.tail.countP_le_limit (x := x) hshort fun g' hg' => by
        have hgap := List.rel_of_pairwise_cons h.apart hg'
        omega
      have hhead := h.countP_times_le (List.mem_cons_self ..) (inInterval length x)
      omega
    · -- `g` misses the interval, which leaves it to the later groups
      have hhead : g.times.countP (inInterval length x) = 0 :=
        List.countP_eq_zero.mpr fun t ht hin => hreach ⟨t, ht, hin⟩
      have hrest := ih h.tail
      omega

/-! ## The counter of one key -/

/-- The admitted readings group into windows, the last of which is the counter's own. -/
def AccountsLagging (limit window delay : Nat) (c : Counter) (times : List Nat) : Prop :=
  ∃ groups, flatten groups = times ∧ IsLagging limit window delay groups ∧
    match c with
    | none => groups = []
    | some (first, n) => ∃ old later, groups = old ++ [⟨first, later⟩] ∧ later.length + 1 = n

theorem accountsLagging_nil : AccountsLagging limit window delay none [] :=
  ⟨[], rfl, isLagging_nil, rfl⟩

variable {times : List Nat}

/-- **Open rule**: a window is opened once the counter's own has ended, or would within the
delay. -/
theorem AccountsLagging.open {c : Counter} (h : AccountsLagging limit window delay c times)
    {now : Nat} (hlimit : 0 < limit) (hwindow : 0 < window) (hlong : delay ≤ window)
    (hended : ∀ first n, c = some (first, n) → first + window ≤ now + delay) :
    AccountsLagging limit window delay (some (now, 1)) (times ++ [now]) := by
  obtain ⟨groups, rfl, hgroups, hlast⟩ := h
  refine ⟨groups ++ [⟨now, []⟩], by simp [Group.times], hgroups.open hlimit hwindow ?_,
    groups, [], rfl, rfl⟩
  cases c with
  | none =>
    subst hlast
    simp
  | some counted =>
    obtain ⟨first, n⟩ := counted
    obtain ⟨old, later, rfl, -⟩ := hlast
    exact hgroups.ended (hended first n rfl) hlong

/-- **Count rule**: the counter's window takes one more event while it lasts and has room. -/
theorem AccountsLagging.count {first n : Nat}
    (h : AccountsLagging limit window delay (some (first, n)) times) {now : Nat}
    (hroom : n < limit) (hafter : first ≤ now + delay) (hlive : now < first + window) :
    AccountsLagging limit window delay (some (first, n + 1)) (times ++ [now]) := by
  obtain ⟨groups, rfl, hgroups, old, later, rfl, hn⟩ := h
  have hroom' : (Group.times ⟨first, later⟩).length < limit := by
    simp only [Group.times, List.length_cons]
    omega
  refine ⟨old ++ [⟨first, later ++ [now]⟩], by simp [Group.times],
    hgroups.extend hroom' hafter hlive, old, later ++ [now], rfl, ?_⟩
  rw [List.length_append, List.length_singleton, hn]

end Library.FixedWindow
