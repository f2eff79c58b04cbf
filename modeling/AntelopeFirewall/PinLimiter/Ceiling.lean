import AntelopeFirewall.PinLimiter.Basic
import AntelopeFirewall.Library.Machine
import AntelopeFirewall.Library.FixedWindow

/-!
# The Pin Ceiling over Whole Runs

The map of the pin limiter forgets: calls for other keys sweep windows that ended, and a
full map refuses keys it does not hold. The counter of one key nevertheless behaves as an
unbounded fixed-window counter would, which `Library.FixedWindow` describes.

- `Holds` relates the map to that counter at a moment of the clock,
- `admits_holds` is the step, `run_accounts` the run,
- `pin_ceiling` is the documented ceiling.
-/

namespace AntelopeFirewall.PinLimiter

open Library Library.FixedWindow Library.Machine

/-! ## Runs of calls -/

/-- One call of `admits`: the key and the clock reading it takes. -/
structure PinCall where
  key : String
  now : Nat
  deriving DecidableEq, Repr

/-- The limiter answers one call. -/
def step (limiter : PinLimiter) (state : PinState) (call : PinCall) : Bool × PinState :=
  limiter.admits state call.key call.now

/-- When the calls for `key` that were answered true were made, in order. -/
def admittedTimes (key : String) (answered : List (PinCall × Bool)) : List Nat :=
  (answered.filter fun e => e.1.key = key ∧ e.2 = true).map fun e => e.1.now

theorem admittedTimes_append (key : String) (xs ys : List (PinCall × Bool)) :
    admittedTimes key (xs ++ ys) = admittedTimes key xs ++ admittedTimes key ys := by
  simp [admittedTimes]

theorem admittedTimes_singleton (key : String) (call : PinCall) (ok : Bool) :
    admittedTimes key [(call, ok)] =
      if call.key = key ∧ ok = true then [call.now] else [] := by
  unfold admittedTimes
  by_cases h : call.key = key ∧ ok = true <;> simp [h]

/-! ## The map and the counter of one key -/

/-- At time `clock` the map tells what it has to tell about counter `c` of `key`: its
entry is the counter, and it has none only if the counter's window ended. -/
structure Holds (limiter : PinLimiter) (clock : Nat) (state : PinState) (key : String)
    (c : Counter) : Prop where
  entry : ∀ e, state.lookup key = some e → c = some e
  gone : state.lookup key = none →
    ∀ started counted, c = some (started, counted) → started + limiter.window ≤ clock
  past : ∀ started counted, c = some (started, counted) → started ≤ clock

variable {limiter : PinLimiter} {state : PinState} {key : String} {c : Counter}

theorem holds_empty (clock : Nat) : Holds limiter clock ∅ key none :=
  ⟨by simp, by simp, by simp⟩

/-- What ended stays ended. -/
theorem Holds.mono {clock clock' : Nat} (h : Holds limiter clock state key c)
    (hle : clock ≤ clock') : Holds limiter clock' state key c where
  entry := h.entry
  gone := fun hnone started counted hc => (h.gone hnone started counted hc).trans hle
  past := fun started counted hc => (h.past started counted hc).trans hle

/-- A sweep forgets only counters that ended. -/
theorem Holds.sweep {now : Nat} {swept : PinState} (h : Holds limiter now state key c)
    (hswept : Swept limiter.window now state swept) : Holds limiter now swept key c := by
  rcases hswept key with hsame | ⟨hgone, started, counted, hlookup, hended⟩
  · exact ⟨by rw [hsame]; exact h.entry, by rw [hsame]; exact h.gone, h.past⟩
  · -- the swept entry was the counter itself, and its window ended
    have hc := h.entry _ hlookup
    refine ⟨by simp [hgone], fun _ started' counted' hc' => ?_, h.past⟩
    rw [hc] at hc'
    obtain ⟨rfl, rfl⟩ : started = started' ∧ counted = counted' := by simpa using hc'
    have := h.past started counted hc
    omega

/-- Writing another key leaves the counter alone. -/
theorem Holds.insert_ne {now : Nat} (h : Holds limiter now state key c) {key' : String}
    (hne : key' ≠ key) (e : Nat × Nat) : Holds limiter now (state.insert key' e) key c := by
  have hsame : (state.insert key' e).lookup key = state.lookup key :=
    AList.lookup_insert_ne hne.symm
  exact ⟨by rw [hsame]; exact h.entry, by rw [hsame]; exact h.gone, h.past⟩

/-- Writing the key's own entry moves the counter to it. -/
theorem holds_insert {now started counted : Nat} (hpast : started ≤ now) :
    Holds limiter now (state.insert key (started, counted)) key (some (started, counted)) where
  entry := fun e he => by
    rw [AList.lookup_insert] at he
    exact he
  gone := fun hnone => by simp [AList.lookup_insert] at hnone
  past := fun started' counted' hc => by
    obtain ⟨rfl, -⟩ : started = started' ∧ counted = counted' := by simpa using hc
    exact hpast

/-- The window a call opens is the one the counter opens: whatever the map forgot about
the counter had ended. -/
theorem Holds.ended {now : Nat} (h : Holds limiter now state key c)
    (hexpired : ∀ started counted, state.lookup key = some (started, counted) →
      limiter.window ≤ now - started) :
    ∀ started counted, c = some (started, counted) → limiter.window ≤ now - started := by
  intro started counted hc
  cases hlookup : state.lookup key with
  | none =>
    -- the map forgot the counter, so it ended before
    have := h.gone hlookup started counted hc
    omega
  | some e =>
    have he := h.entry e hlookup
    rw [hc] at he
    exact hexpired started counted (by rw [hlookup, ← he])

/-- An open counter asked after its window ended opens the next one. -/
theorem grant_of_ended {limit window now : Nat} {c : Counter} (hlimit : 0 < limit)
    (hended : ∀ started counted, c = some (started, counted) → window ≤ now - started) :
    grant limit window now c = (true, some (now, 1)) := by
  unfold grant
  rw [if_neg (Nat.pos_iff_ne_zero.mp hlimit)]
  cases c with
  | none => rfl
  | some e => exact if_pos (hended e.1 e.2 rfl)

/-- **Step**: after a call the map again tells what it has to about the counter of `key`,
and a call for `key` that was answered true advanced that counter. -/
theorem admits_holds {call : PinCall} (h : Holds limiter call.now state key c) :
    ∃ c', Holds limiter call.now (limiter.step state call).2 key c' ∧
      (call.key = key ∧ (limiter.step state call).1 = true →
        grant limiter.limit limiter.window call.now c = (true, c')) ∧
      (¬(call.key = key ∧ (limiter.step state call).1 = true) → c' = c) := by
  unfold step
  rcases admits_cases limiter state call.key call.now with
    ⟨swept, hswept, hcall⟩ | ⟨hlimit, hexpired, swept, hswept, hcall⟩ |
    ⟨started, counted, hlookup, hlive, hroom, hcall⟩
  · -- refused: the counter is where it was
    rw [hcall]
    exact ⟨c, h.sweep hswept, by simp, fun _ => rfl⟩
  · -- a window was opened
    rw [hcall]
    by_cases hkey : call.key = key
    · subst hkey
      exact ⟨some (call.now, 1), holds_insert (Nat.le_refl _),
        fun _ => grant_of_ended hlimit (h.ended hexpired), by simp⟩
    · exact ⟨c, (h.sweep hswept).insert_ne hkey _, by simp [hkey], fun _ => rfl⟩
  · -- the running window counted one more request
    rw [hcall]
    by_cases hkey : call.key = key
    · subst hkey
      have hc := h.entry _ hlookup
      refine ⟨some (started, counted + 1), holds_insert (h.past _ _ hc), fun _ => ?_, by simp⟩
      unfold grant
      rw [hc, if_neg (by omega)]
      exact (if_neg (by omega)).trans (if_neg (by omega))
    · exact ⟨c, h.insert_ne hkey _, by simp [hkey], fun _ => rfl⟩

/-! ## The ceiling -/

/-- **Run**: the admitted calls of a key group into windows of the limiter. -/
theorem run_accounts (hwindow : 0 < limiter.window) {calls : List PinCall}
    (hclock : calls.Pairwise fun a b => a.now ≤ b.now) (key : String) :
    ∃ c, Accounts limiter.limit limiter.window c
      (admittedTimes key (trace limiter.step ∅ calls)) := by
  -- the invariant also says that the map holds the counter at every later reading
  refine (run_invariant limiter.step
    (fun answered state => ∃ c,
      Accounts limiter.limit limiter.window c (admittedTimes key answered) ∧
        ∀ clock, (∀ call ∈ answered.map Prod.fst, call.now ≤ clock) →
          Holds limiter clock state key c) ?start ?keep).imp fun _ h => h.1
  case start => exact ⟨none, accounts_nil, fun clock _ => holds_empty clock⟩
  case keep =>
    rintro xs call hpre ⟨c, haccounts, hholds⟩
    have hbefore : ∀ earlier ∈ xs, earlier.now ≤ call.now := fun earlier hmem =>
      (List.pairwise_append.mp (hclock.sublist hpre.sublist)).2.2 earlier hmem call (by simp)
    have hnow := hholds call.now (by simpa using hbefore)
    obtain ⟨c', hholds', hadmitted, hother⟩ := admits_holds hnow
    refine ⟨c', ?_, fun clock hlater => ?_⟩
    · rw [trace_concat, admittedTimes_append, admittedTimes_singleton]
      split_ifs with hcounts
      · have hgrant := hadmitted hcounts
        have hstep := haccounts.grant hwindow hnow.past (by rw [hgrant])
        rwa [hgrant] at hstep
      · rw [hother hcounts, List.append_nil]
        exact haccounts
    · rw [final_concat]
      refine hholds'.mono (hlater call ?_)
      simp

/-- **Pin ceiling**: over every run with a clock that never goes back, the calls a key was
granted split into groups of at most `limit`, each inside one window of its first call and
the first calls a window apart. Hence no half-open interval of one window holds more than
`2 * limit` of them, and a limit of zero grants none. -/
theorem pin_ceiling (limiter : PinLimiter) (hwindow : 0 < limiter.window) (calls : List PinCall)
    (hclock : calls.Pairwise fun a b => a.now ≤ b.now) (key : String) :
    (∃ groups, flatten groups = admittedTimes key (trace limiter.step ∅ calls) ∧
      IsGrouping limiter.limit limiter.window groups) ∧
    (∀ x, (admittedTimes key (trace limiter.step ∅ calls)).countP (inInterval limiter.window x) ≤
      2 * limiter.limit) ∧
    (limiter.limit = 0 → admittedTimes key (trace limiter.step ∅ calls) = []) := by
  obtain ⟨c, groups, hflatten, hgroups, -⟩ := run_accounts hwindow hclock key
  refine ⟨⟨groups, hflatten, hgroups⟩, fun x => ?_, fun hzero => ?_⟩
  · rw [← hflatten]
    exact hgroups.countP_le x
  · cases groups with
    | nil => rw [← hflatten, flatten_nil]
    | cons g rest =>
      -- no group fits a limit of zero: it has its first call at least
      have hsize := hgroups.size g (List.mem_cons_self ..)
      simp [Group.times, hzero] at hsize

/-- Two requests a window for one client: the third waits for the next window. -/
theorem pin_ceiling_two :
    admittedTimes "198.51.100.7::b" (trace (new 2 60).step ∅
      [⟨"198.51.100.7::b", 0⟩, ⟨"198.51.100.7::b", 1⟩, ⟨"198.51.100.7::b", 2⟩,
       ⟨"198.51.100.7::b", 60 * 10 ^ 9⟩]) = [0, 1, 60 * 10 ^ 9] ∧
    ∀ x, ([0, 1, 60 * 10 ^ 9] : List Nat).countP (inInterval (new 2 60).window x) ≤ 4 := by
  have hrun : admittedTimes "198.51.100.7::b" (trace (new 2 60).step ∅
      [⟨"198.51.100.7::b", 0⟩, ⟨"198.51.100.7::b", 1⟩, ⟨"198.51.100.7::b", 2⟩,
       ⟨"198.51.100.7::b", 60 * 10 ^ 9⟩]) = [0, 1, 60 * 10 ^ 9] := by decide
  refine ⟨hrun, fun x => ?_⟩
  have hbound := (pin_ceiling (new 2 60) (by simp [new])
    [⟨"198.51.100.7::b", 0⟩, ⟨"198.51.100.7::b", 1⟩, ⟨"198.51.100.7::b", 2⟩,
     ⟨"198.51.100.7::b", 60 * 10 ^ 9⟩] (by simp) "198.51.100.7::b").2.1 x
  rwa [hrun] at hbound

end AntelopeFirewall.PinLimiter
