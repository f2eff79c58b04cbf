import AntelopeFirewall.Library.LaggingWindow
import AntelopeFirewall.PinLimiter.Ceiling

/-!
# Pin Readings out of Order

`admits` reads the clock before it waits for the lock, so the counters may be asked with a
reading after later ones. A window is then opened early: a sweep drops an entry that ended by a
later reading, and a call that waited opens the next window with its own.

- `LagBy` bounds how far a reading lags the ones before it,
- `admits_lagging` is the step and `run_accountsLagging` the run,
- `admitted_le` is the ceiling that is left.
-/

namespace AntelopeFirewall.PinLimiter

open Library Library.FixedWindow Library.Machine

/-- No reading is behind an earlier one by more than the delay. -/
def LagBy (delay : Nat) (calls : List PinCall) : Prop :=
  calls.Pairwise fun a b => a.now ≤ b.now + delay

instance (delay : Nat) (calls : List PinCall) : Decidable (LagBy delay calls) :=
  inferInstanceAs (Decidable (List.Pairwise _ _))

/-- The latest reading of some calls. -/
def latest (calls : List PinCall) : Nat := calls.foldl (fun clock call => max clock call.now) 0

theorem latest_concat (calls : List PinCall) (call : PinCall) :
    latest (calls ++ [call]) = max (latest calls) call.now := by
  unfold latest
  rw [List.foldl_append]
  rfl

theorem latest_le {calls : List PinCall} {bound : Nat} (h : ∀ call ∈ calls, call.now ≤ bound) :
    latest calls ≤ bound := by
  induction calls using List.reverseRecOn with
  | nil => exact Nat.zero_le _
  | append_singleton calls call ih =>
    rw [latest_concat]
    exact Nat.max_le.mpr ⟨ih fun earlier hearlier => h earlier (List.mem_append_left _ hearlier),
      h call (List.mem_append_right _ (List.mem_singleton_self call))⟩

variable {limiter : PinLimiter} {state : PinState} {key : String} {c : Counter}
  {clock delay : Nat}

/-- A sweep forgets only counters that ended by the latest reading. -/
theorem Holds.sweep_lagging {now : Nat} {swept : PinState} (h : Holds limiter clock state key c)
    (hnow : now ≤ clock) (hswept : Swept limiter.window now state swept) :
    Holds limiter clock swept key c := by
  rcases hswept key with hsame | ⟨hgone, started, counted, hlookup, hended⟩
  · exact ⟨by rw [hsame]; exact h.entry, by rw [hsame]; exact h.gone, h.past⟩
  · have hc := h.entry _ hlookup
    refine ⟨by simp [hgone], fun _ started' counted' hc' => ?_, h.past⟩
    have hpast := h.past started' counted' hc'
    rw [hc] at hc'
    cases hc'
    omega

/-- A window that a call opens follows on one that ended, or would within the delay. -/
theorem Holds.ended_lagging {now : Nat} (h : Holds limiter clock state key c)
    (hlag : clock ≤ now + delay)
    (hexpired : ∀ started counted, state.lookup key = some (started, counted) →
      limiter.window ≤ now - started) :
    ∀ started counted, c = some (started, counted) → started + limiter.window ≤ now + delay := by
  intro started counted hc
  have hpast := h.past started counted hc
  cases hlookup : state.lookup key with
  | none =>
    -- the map forgot the counter, which ended by the latest reading
    have hended := h.gone hlookup started counted hc
    omega
  | some e =>
    have he := h.entry e hlookup
    rw [hc] at he
    cases he
    have hended := hexpired started counted hlookup
    omega

/-- **Step**: a call keeps what the map tells about the counter of `key`. One for `key` that is
answered true opens a window for the counter or is counted in its window. -/
theorem admits_lagging {call : PinCall} (h : Holds limiter clock state key c)
    (hnow : call.now ≤ clock) (hlag : clock ≤ call.now + delay) :
    ∃ c', Holds limiter clock (limiter.step state call).2 key c' ∧
      (¬(call.key = key ∧ (limiter.step state call).1 = true) ∧ c' = c ∨
      (call.key = key ∧ (limiter.step state call).1 = true) ∧
        (0 < limiter.limit ∧ c' = some (call.now, 1) ∧
            (∀ started counted, c = some (started, counted) →
              started + limiter.window ≤ call.now + delay) ∨
          ∃ started counted, c = some (started, counted) ∧ counted < limiter.limit ∧
            call.now < started + limiter.window ∧ started ≤ call.now + delay ∧
            c' = some (started, counted + 1))) := by
  unfold step
  rcases admits_cases limiter state call.key call.now with
    ⟨swept, hswept, hcall⟩ | ⟨hlimit, hexpired, swept, hswept, hcall⟩ |
    ⟨started, counted, hlookup, hlive, hroom, hcall⟩
  -- refused: at most a sweep, which keeps the running windows
  · rw [hcall]
    exact ⟨c, h.sweep_lagging hnow hswept, .inl ⟨by simp, rfl⟩⟩
  -- a window was opened
  · rw [hcall]
    by_cases hkey : call.key = key
    · subst hkey
      exact ⟨some (call.now, 1), holds_insert hnow, .inr ⟨⟨rfl, rfl⟩,
        .inl ⟨hlimit, rfl, h.ended_lagging hlag hexpired⟩⟩⟩
    · exact ⟨c, (h.sweep_lagging hnow hswept).insert_ne hkey _,
        .inl ⟨fun hboth => hkey hboth.1, rfl⟩⟩
  -- the running window counted one more request
  · rw [hcall]
    by_cases hkey : call.key = key
    · subst hkey
      have hc := h.entry _ hlookup
      have hpast := h.past _ _ hc
      exact ⟨some (started, counted + 1), holds_insert hpast, .inr ⟨⟨rfl, rfl⟩,
        .inr ⟨started, counted, hc, hroom, by omega, by omega, rfl⟩⟩⟩
    · exact ⟨c, h.insert_ne hkey _, .inl ⟨fun hboth => hkey hboth.1, rfl⟩⟩

/-- **Run**: the admitted calls of a key group into windows that begin a delay early at most. -/
theorem run_accountsLagging (hwindow : 0 < limiter.window) (hlong : delay ≤ limiter.window)
    {calls : List PinCall} (hlag : LagBy delay calls) (key : String) :
    ∃ c, AccountsLagging limiter.limit limiter.window delay c
      (admittedTimes key (trace limiter.step ∅ calls)) := by
  refine (run_invariant limiter.step
    (fun answered state => ∃ c,
      AccountsLagging limiter.limit limiter.window delay c (admittedTimes key answered) ∧
        Holds limiter (latest (answered.map Prod.fst)) state key c) ?start ?keep).imp fun _ h => h.1
  -- Before the first call no window is open.
  case start => exact ⟨none, accountsLagging_nil, holds_empty _⟩
  -- A call that lags by no more than the delay keeps both the groups and the counter.
  case keep =>
    rintro xs call hpre ⟨c, haccounts, hholds⟩
    rw [trace_map_fst] at hholds
    have hbefore : ∀ earlier ∈ xs, earlier.now ≤ call.now + delay := fun earlier hmem =>
      (List.pairwise_append.mp (List.Pairwise.sublist hpre.sublist hlag)).2.2 earlier hmem call
        (List.mem_singleton_self call)
    -- the clock after the call is still within the delay of its own reading
    have hlatest : max (latest xs) call.now ≤ call.now + delay :=
      Nat.max_le.mpr ⟨latest_le hbefore, Nat.le_add_right _ _⟩
    obtain ⟨c', hholds', hcases⟩ := admits_lagging (hholds.mono (Nat.le_max_left _ call.now))
      (Nat.le_max_right _ _) hlatest
    refine ⟨c', ?_, ?_⟩
    · rw [trace_concat, admittedTimes_append, admittedTimes_singleton]
      rcases hcases with ⟨hother, rfl⟩ | ⟨hadmitted, hopened | hcounted⟩
      · rw [if_neg hother, List.append_nil]
        exact haccounts
      · obtain ⟨hlimit, rfl, hended⟩ := hopened
        rw [if_pos hadmitted]
        exact haccounts.open hlimit hwindow hlong hended
      · obtain ⟨started, counted, rfl, hroom, hlive, hafter, rfl⟩ := hcounted
        rw [if_pos hadmitted]
        exact haccounts.count hroom hafter hlive
    · rw [trace_map_fst, latest_concat, final_concat]
      exact hholds'

/-- At most twice the limit is admitted for a key in an interval of readings that is shorter than
the window by three delays. -/
theorem admitted_le {calls : List PinCall} (hlag : LagBy delay calls) {length : Nat}
    (hshort : length + 3 * delay ≤ limiter.window) (key : String) (x : Nat) :
    (admittedTimes key (trace limiter.step ∅ calls)).countP (inInterval length x) ≤
      2 * limiter.limit := by
  rcases Nat.eq_zero_or_pos length with rfl | hlength
  · -- nothing is read in an empty interval
    have hnone : (admittedTimes key (trace limiter.step ∅ calls)).countP (inInterval 0 x) = 0 := by
      apply List.countP_eq_zero.mpr
      intro t _
      simp only [inInterval, decide_eq_true_eq, not_and]
      omega
    rw [hnone]
    exact Nat.zero_le _
  · have hwindow : 0 < limiter.window := by omega
    have hlong : delay ≤ limiter.window := by omega
    obtain ⟨c, groups, hflatten, hgroups, -⟩ := run_accountsLagging hwindow hlong hlag key
    rw [← hflatten]
    exact hgroups.countP_le hshort x

end AntelopeFirewall.PinLimiter
