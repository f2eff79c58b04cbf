import AntelopeFirewall.RateLimiter.Accounting

/-!
# The Ceiling of an Attempt-Mode Limiter

A limiter that charges every attempt by one lets at most twice its limit through in one
window. Requests of any bucket sets interleave, denied ones are charged up to the bucket
that denied them, and the windows roll over whenever somebody looks: the accounting of the
run covers all of it, since the requests let through for a bucket are at most what was
charged to it.
-/

namespace AntelopeFirewall.RateLimiter

open Library Library.Machine

/-- The limiter charges one for every attempt and allows `limit`, as one configured with
`limit_on = "attempt"` does. -/
structure LimitsAttempts (limiter : RateLimiter) (limit : Nat) : Prop where
  mode : limiter.incrementMode = .attempt
  rate : limiter.getRatelimit = fun _ _ _ => limit

/-- Whether an answered call was let through in `window` with `bucket` among its buckets. -/
def passedIn (self : RateLimiter) (window : Nat) (bucket : String)
    (answered : Attempt × Decision) : Bool :=
  answered.2.verdict = some true ∧
    getCurrentWindow self.windowDuration answered.1.now = window ∧
    bucket ∈ self.bucketsOf answered.1.info answered.1.value answered.1.now

/-- How many calls of a run were let through in `window` with `bucket`. -/
def passes (self : RateLimiter) (window : Nat) (bucket : String)
    (answered : List (Attempt × Decision)) : Nat :=
  answered.countP (passedIn self window bucket)

theorem passes_concat (self : RateLimiter) (window : Nat) (bucket : String)
    (answered : List (Attempt × Decision)) (e : Attempt × Decision) :
    passes self window bucket (answered ++ [e]) =
      passes self window bucket answered + if passedIn self window bucket e then 1 else 0 := by
  simp [passes, List.countP_append, List.countP_singleton]

variable {F : Type} [F32 F] {self : RateLimiter} {limit : Nat}

/-- A call that is let through had room in the ledger of its window and is entered there. -/
theorem passedIn_room (hself : LimitsAttempts self limit) {state : WindowState}
    {made : List (Charge String)} (htracks : (view state).Tracks made) {attempt : Attempt}
    (hwindow : state.currentWindow ≤ getCurrentWindow self.windowDuration attempt.now)
    {window : Nat} {bucket : String}
    (hpassed : passedIn self window bucket
      (attempt, (shouldRequestPass F self state attempt).1) = true) :
    Ledger.chargedIn made window bucket < 2 * limit ∧
    1 ≤ Ledger.chargedIn (entries (getCurrentWindow self.windowDuration attempt.now)
      (shouldRequestPass F self state attempt).1.charges) window bucket := by
  simp only [passedIn, decide_eq_true_eq] at hpassed
  obtain ⟨hverdict, rfl, hbucket⟩ := hpassed
  obtain ⟨json, -, hroom, hcharges⟩ := shouldRequestPass_passed hverdict
  constructor
  · -- the count the check read is the ledger's
    have hcount := (htracks.advance hwindow).current bucket
    rw [← view_updateCurrentWindow, view_index, updateCurrentWindow_currentWindow] at hcount
    have hlt := hroom bucket hbucket
    rw [hself.rate] at hlt
    rw [← hcount]
    exact hlt.trans_le (Nat.mod_le _ _)
  · -- the bucket is among those that were charged one
    have hmem : (bucket, 1) ∈ (shouldRequestPass F self state attempt).1.charges := by
      rw [hcharges, rateUsed, hself.mode]
      exact List.mem_map.mpr ⟨bucket, (attempt.order.mem_list _ _).mpr hbucket, rfl⟩
    have hentry : (⟨getCurrentWindow self.windowDuration attempt.now, bucket, 1⟩ :
        Charge String) ∈ entries (getCurrentWindow self.windowDuration attempt.now)
          (shouldRequestPass F self state attempt).1.charges :=
      List.mem_map.mpr ⟨(bucket, 1), hmem, rfl⟩
    exact Ledger.amount_le_chargedIn hentry

/-- The requests let through in a window are at most what was charged in it, and at most
twice the limit. -/
theorem passes_le (hself : LimitsAttempts self limit) {start : Nat} {calls : List Attempt}
    (hclock : ClockNeverGoesBack start (calls.map Attempt.now))
    (window : Nat) (bucket : String) :
    let answered := trace (shouldRequestPass F self) (newState self.windowDuration start) calls
    passes self window bucket answered ≤
        Ledger.chargedIn (ledger self.windowDuration answered) window bucket ∧
      passes self window bucket answered ≤ 2 * limit := by
  refine run_invariant (shouldRequestPass F self)
    (fun answered _ =>
      passes self window bucket answered ≤
          Ledger.chargedIn (ledger self.windowDuration answered) window bucket ∧
        passes self window bucket answered ≤ 2 * limit)
    ⟨Nat.zero_le _, Nat.zero_le _⟩ fun earlier attempt hpre ih => ?_
  obtain ⟨hcharged, hbound⟩ := ih
  -- the calls before this one read no later clock, so their charges are in the ledger
  have hclock' := hclock.initial (hpre.map _)
  have htracks := run_tracks F self (hclock'.initial ((List.prefix_append earlier [attempt]).map _))
  rw [trace_concat, passes_concat, ledger_append, Ledger.chargedIn_append, ledger_singleton]
  split_ifs with hpassed
  · -- one more was let through: it is charged, and there was room for it
    obtain ⟨hroom, hentered⟩ :=
      passedIn_room hself htracks (currentWindow_le_of_clock hclock') hpassed
    exact ⟨Nat.add_le_add hcharged hentered, by omega⟩
  · exact ⟨by omega, by omega⟩

/-- **Attempt ceiling**: in one window an attempt-mode limiter lets at most twice its limit
through for a bucket, and the doubled limit it compares with does not overflow. -/
theorem attempt_ceiling (F : Type) [F32 F] (self : RateLimiter) (limit : Nat)
    (hself : LimitsAttempts self limit) (hlimit : limit < 2 ^ 63) (start : Nat)
    (calls : List Attempt) (hclock : ClockNeverGoesBack start (calls.map Attempt.now))
    (window : Nat) (bucket : String) :
    passes self window bucket
        (trace (shouldRequestPass F self) (newState self.windowDuration start) calls) ≤
      2 * limit ∧
    2 * limit % 2 ^ 64 = 2 * limit := by
  have hdoubled : 2 * limit < 2 ^ 64 := by omega
  exact ⟨(passes_le hself hclock window bucket).2, Nat.mod_eq_of_lt hdoubled⟩

/-- Three attempts at once with a limit of one. -/
theorem attempt_ceiling_one :
    passes (oneBucket .attempt 1) 0 "a"
      (trace (shouldRequestPass ℚ (oneBucket .attempt 1)) (newState 60 0)
        [checkAt 0, checkAt 0, checkAt 0]) ≤ 2 :=
  (attempt_ceiling ℚ (oneBucket .attempt 1) 1 ⟨rfl, rfl⟩ (by simp) 0
    [checkAt 0, checkAt 0, checkAt 0] (by simp [ClockNeverGoesBack, checkAt]) 0 "a").1

end AntelopeFirewall.RateLimiter
