import Mathlib.Data.List.Basic
import Mathlib.Tactic.Linarith

/-!
# Grouping Timed Events into Fixed Windows

A fixed-window counter opens a window at the first event it admits, admits a bounded
number of events while that window lasts, and opens the next one after it has ended. The
times it admits therefore fall into groups. `IsGrouping` states what the groups look like
and `IsGrouping.countP_le` what they imply: no half-open interval as long as the window
holds more than twice the bound.
-/

namespace Library.FixedWindow

/-- The events of one window: the one that opened it and the later ones. -/
structure Group where
  first : Nat
  later : List Nat
  deriving DecidableEq, Repr

/-- All times of the group, in order. -/
def Group.times (g : Group) : List Nat := g.first :: g.later

/-- The times of a list of groups, in order. -/
def flatten (groups : List Group) : List Nat := groups.flatMap Group.times

@[simp] theorem flatten_nil : flatten [] = [] := rfl

@[simp] theorem flatten_cons (g : Group) (groups : List Group) :
    flatten (g :: groups) = g.times ++ flatten groups := List.flatMap_cons ..

@[simp] theorem flatten_append (xs ys : List Group) :
    flatten (xs ++ ys) = flatten xs ++ flatten ys := List.flatMap_append ..

/-- At most `limit` events in a group, each less than `window` after the first one, and
group openings at least `window` apart. -/
structure IsGrouping (limit window : Nat) (groups : List Group) : Prop where
  size : ∀ g ∈ groups, g.times.length ≤ limit
  span : ∀ g ∈ groups, ∀ t ∈ g.times, g.first ≤ t ∧ t < g.first + window
  apart : groups.Pairwise fun g g' => g.first + window ≤ g'.first

variable {limit window : Nat}

theorem isGrouping_nil : IsGrouping limit window [] :=
  ⟨by simp, by simp, List.Pairwise.nil⟩

/-! ## Growing a grouping -/

/-- A new window may open once every earlier one has ended. -/
theorem IsGrouping.open {groups : List Group} (h : IsGrouping limit window groups)
    {now : Nat} (hlimit : 0 < limit) (hwindow : 0 < window)
    (hended : ∀ g ∈ groups, g.first + window ≤ now) :
    IsGrouping limit window (groups ++ [⟨now, []⟩]) where
  size := fun g hg => by
    rcases List.mem_append.mp hg with hg | hg
    · exact h.size g hg
    · rw [List.mem_singleton.mp hg]
      exact hlimit
  span := fun g hg => by
    rcases List.mem_append.mp hg with hg | hg
    · exact h.span g hg
    · rw [List.mem_singleton.mp hg]
      intro t ht
      rw [List.mem_singleton.mp ht]
      exact ⟨le_rfl, by simpa using hwindow⟩
  apart := List.pairwise_append.mpr
    -- only the new opening has to be compared with the earlier ones
    ⟨h.apart, List.pairwise_singleton _ _, fun g hg g' hg' => by
      rw [List.mem_singleton.mp hg']
      exact hended g hg⟩

/-- The last window takes one more event while it lasts and has room. -/
theorem IsGrouping.extend {groups : List Group} {g : Group}
    (h : IsGrouping limit window (groups ++ [g])) {now : Nat}
    (hroom : g.times.length < limit) (hafter : g.first ≤ now)
    (hlive : now < g.first + window) :
    IsGrouping limit window (groups ++ [⟨g.first, g.later ++ [now]⟩]) where
  size := fun g' hg' => by
    rcases List.mem_append.mp hg' with hg' | hg'
    · exact h.size g' (List.mem_append_left _ hg')
    · rw [List.mem_singleton.mp hg']
      have hroom' : g.later.length + 1 < limit := hroom
      simp only [Group.times, List.length_cons, List.length_append, List.length_nil]
      omega
  span := fun g' hg' => by
    rcases List.mem_append.mp hg' with hg' | hg'
    · exact h.span g' (List.mem_append_left _ hg')
    · rw [List.mem_singleton.mp hg']
      intro t ht
      -- an event the group had before, or the new one
      have hsplit : t ∈ g.times ∨ t = now := by
        simpa [Group.times, or_assoc] using ht
      rcases hsplit with ht | rfl
      · exact h.span g (by simp) t ht
      · exact ⟨hafter, hlive⟩
  apart := by
    obtain ⟨hold, -, hlast⟩ := List.pairwise_append.mp h.apart
    refine List.pairwise_append.mpr ⟨hold, List.pairwise_singleton _ _, fun g' hg' g'' hg'' => ?_⟩
    rw [List.mem_singleton.mp hg'']
    exact hlast g' hg' g (by simp)

/-! ## Counting inside an interval -/

/-- Events of the half-open interval of length `window` that starts at `x`. -/
def inInterval (window x t : Nat) : Bool := x ≤ t ∧ t < x + window

theorem IsGrouping.tail {g : Group} {groups : List Group}
    (h : IsGrouping limit window (g :: groups)) : IsGrouping limit window groups where
  size := fun g' hg' => h.size g' (List.mem_cons_of_mem _ hg')
  span := fun g' hg' => h.span g' (List.mem_cons_of_mem _ hg')
  apart := h.apart.of_cons

theorem countP_times_le {groups : List Group} (h : IsGrouping limit window groups)
    {g : Group} (hg : g ∈ groups) (p : Nat → Bool) : g.times.countP p ≤ limit :=
  List.countP_le_length.trans (h.size g hg)

/-- Groups that open after the interval contribute nothing to it. -/
theorem IsGrouping.countP_eq_zero {groups : List Group} (h : IsGrouping limit window groups)
    {x : Nat} (hlate : ∀ g ∈ groups, x + window ≤ g.first) :
    (flatten groups).countP (inInterval window x) = 0 := by
  apply List.countP_eq_zero.mpr
  intro t ht
  obtain ⟨g, hg, htg⟩ := List.mem_flatMap.mp ht
  -- an event is no earlier than the opening of its group
  have hopen := hlate g hg
  have hspan := (h.span g hg t htg).1
  simp only [inInterval, decide_eq_true_eq, not_and]
  omega

/-- If every group opens inside or after the interval, only the first one can reach it. -/
theorem IsGrouping.countP_le_limit {groups : List Group}
    (h : IsGrouping limit window groups) {x : Nat} (hfrom : ∀ g ∈ groups, x ≤ g.first) :
    (flatten groups).countP (inInterval window x) ≤ limit := by
  cases groups with
  | nil => simp
  | cons g rest =>
    -- the first group opens at `x` or later, so the next one opens after the interval
    have hrest : (flatten rest).countP (inInterval window x) = 0 :=
      h.tail.countP_eq_zero fun g' hg' => by
        have hx := hfrom g (List.mem_cons_self ..)
        have hgap := List.rel_of_pairwise_cons h.apart hg'
        omega
    rw [flatten_cons, List.countP_append, hrest, Nat.add_zero]
    exact countP_times_le h (List.mem_cons_self ..) _

/-- **Interval bound**: at most `2 * limit` events fall into an interval of length
`window`, because no more than two groups reach into it. -/
theorem IsGrouping.countP_le {groups : List Group} (h : IsGrouping limit window groups)
    (x : Nat) : (flatten groups).countP (inInterval window x) ≤ 2 * limit := by
  -- Induction on the groups: the first one that reaches the interval leaves room for one more.
  induction groups with
  | nil => simp
  | cons g rest ih =>
    rw [flatten_cons, List.countP_append]
    by_cases hreach : ∃ t ∈ g.times, inInterval window x t = true
    · -- `g` reaches the interval, so every later group opens after its start
      obtain ⟨t, ht, hin⟩ := hreach
      have hspan := (h.span g (List.mem_cons_self ..) t ht).2
      have hin' : x ≤ t ∧ t < x + window := by simpa [inInterval] using hin
      have hrest := h.tail.countP_le_limit (x := x) fun g' hg' => by
        have hgap := List.rel_of_pairwise_cons h.apart hg'
        omega
      have hhead := countP_times_le h (List.mem_cons_self ..) (inInterval window x)
      omega
    · -- `g` misses the interval, which leaves it to the later groups
      have hhead : g.times.countP (inInterval window x) = 0 :=
        List.countP_eq_zero.mpr fun t ht hin => hreach ⟨t, ht, hin⟩
      have hrest := ih h.tail
      omega

/-! ## The counter of one key -/

/-- A fixed-window counter: when its window was opened and how much it has admitted, or
nothing yet. -/
abbrev Counter := Option (Nat × Nat)

/-- Ask the counter for one more event at time `now`. -/
def grant (limit window now : Nat) (c : Counter) : Bool × Counter :=
  if limit = 0 then (false, c)
  else
    match c with
    | none => (true, some (now, 1))
    | some (first, n) =>
      if window ≤ now - first then (true, some (now, 1))
      else if limit ≤ n then (false, c)
      else (true, some (first, n + 1))

/-- The admitted times group into windows, the last of which is the counter's own. -/
def Accounts (limit window : Nat) (c : Counter) (times : List Nat) : Prop :=
  ∃ groups, flatten groups = times ∧ IsGrouping limit window groups ∧
    match c with
    | none => groups = []
    | some (first, n) => ∃ old later, groups = old ++ [⟨first, later⟩] ∧ later.length + 1 = n

theorem accounts_nil : Accounts limit window none [] :=
  ⟨[], rfl, isGrouping_nil, rfl⟩

/-- What an ask can do: refuse and change nothing, open a window, or count one more
event in the window that lasts. -/
theorem grant_cases (limit window now : Nat) (c : Counter) :
    grant limit window now c = (false, c) ∨
    (0 < limit ∧ (∀ first n, c = some (first, n) → window ≤ now - first) ∧
      grant limit window now c = (true, some (now, 1))) ∨
    (∃ first n, c = some (first, n) ∧ now - first < window ∧ n < limit ∧
      grant limit window now c = (true, some (first, n + 1))) := by
  unfold grant
  by_cases hlimit : limit = 0
  · -- a limit of zero admits nothing
    exact .inl (if_pos hlimit)
  · rw [if_neg hlimit]
    cases c with
    | none => exact .inr (.inl ⟨Nat.pos_of_ne_zero hlimit, by simp, rfl⟩)
    | some counted =>
      obtain ⟨first, n⟩ := counted
      by_cases hended : window ≤ now - first
      · refine .inr (.inl ⟨Nat.pos_of_ne_zero hlimit, ?_, if_pos hended⟩)
        intro first' n' hsame
        cases hsame
        -- the last window has ended, so a new one opens
        exact hended
      -- it lasts, and the count decides
      · dsimp only
        rw [if_neg hended]
        by_cases hfull : limit ≤ n
        · exact .inl (if_pos hfull)
        · exact .inr (.inr ⟨first, n, rfl, by omega, by omega, if_neg hfull⟩)

/-- Every group of an accounted list ended by the time the counter's own window did. -/
theorem IsGrouping.ended {old : List Group} {g : Group}
    (h : IsGrouping limit window (old ++ [g])) {now : Nat} (hend : g.first + window ≤ now) :
    ∀ g' ∈ old ++ [g], g'.first + window ≤ now := by
  intro g' hg'
  rcases List.mem_append.mp hg' with hg' | hg'
  · have := (List.pairwise_append.mp h.apart).2.2 g' hg' g (by simp)
    omega
  · rwa [List.mem_singleton.mp hg']

/-- **Step rule**: an admitted event extends the account by its time. -/
theorem Accounts.grant {c : Counter} {times : List Nat}
    (h : Accounts limit window c times) {now : Nat} (hwindow : 0 < window)
    (hpast : ∀ first n, c = some (first, n) → first ≤ now)
    (hadmitted : (FixedWindow.grant limit window now c).1 = true) :
    Accounts limit window (FixedWindow.grant limit window now c).2 (times ++ [now]) := by
  obtain ⟨groups, rfl, hgroups, hlast⟩ := h
  rcases grant_cases limit window now c with
    hc | ⟨hpos, hended, hc⟩ | ⟨first, n, rfl, hlive, hroom, hc⟩
  · -- refused
    simp [hc] at hadmitted
  · -- a window opens: the ones before it have all ended
    rw [hc]
    refine ⟨groups ++ [⟨now, []⟩], by simp [Group.times],
      hgroups.open hpos hwindow ?_, groups, [], rfl, rfl⟩
    cases c with
    | none =>
      subst hlast
      simp
    | some counted =>
      obtain ⟨first, n⟩ := counted
      obtain ⟨old, later, rfl, -⟩ := hlast
      apply hgroups.ended
      have := hended first n rfl
      have := hpast first n rfl
      dsimp only
      omega
  · -- the counter's window lasts and has room
    rw [hc]
    obtain ⟨old, later, rfl, hn⟩ := hlast
    refine ⟨old ++ [⟨first, later ++ [now]⟩], by simp [Group.times],
      hgroups.extend ?_ (hpast first n rfl) ?_, old, later ++ [now], rfl, by simp [hn]⟩
    · simp only [Group.times, List.length_cons]
      omega
    · dsimp only
      omega

end Library.FixedWindow
