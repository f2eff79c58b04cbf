import AntelopeFirewall.Addresses
import AntelopeFirewall.RateLimiter.Accounting

/-!
# Clients of One Limiter

The clients of an attempt-mode limiter with a bucket for every address share its window. A
request of one of them may roll it over when another one sends none, so two runs with the same
requests of a client can find different counts between them. What the counts say about that
client's bucket is the same all the while.

- `shouldRequestPass_alike` and `shouldRequestPass_other` are the two kinds of steps,
- `filter_answers` is the run: a client gets the answers it would get alone,
- `clients_isolated` compares two runs.
-/

namespace AntelopeFirewall.RateLimiter

open Library Library.Machine

/-- The limiter charges one for every attempt, to the bucket of the client's address, as one
configured with `limit_on = "attempt"` and `bucket_type = "ip"` does. -/
structure LimitsClients (crates : Crates) (limiter : RateLimiter) : Prop where
  mode : limiter.incrementMode = .attempt
  bucket : ∀ name info value json,
    limiter.getBuckets name info value json = {crates.ipToString info.ip}

theorem limitsClients_newRatelimiter {crates : Crates} {select : Table String (Finset String)}
    {ratelimit : RatelimitConfig} (hmode : ratelimit.limitOn = .attempt)
    (hbucket : ratelimit.bucketType = .ip) {limiter : RateLimiter}
    (hnew : newRatelimiter crates select ratelimit = .ok limiter) :
    LimitsClients crates limiter := by
  unfold newRatelimiter at hnew
  split at hnew
  · cases hnew
    rw [hmode, hbucket]
    exact ⟨rfl, fun _ _ _ _ => rfl⟩
  · cases hnew

/-! ## Charges and the counts of one bucket -/

variable {bucket : String} {window : Nat} {state other : WindowState}

/-- Charges to other buckets go unnoticed. -/
theorem alike_incrementAll_other (h : TwoWindow.Alike bucket window (view state) (view other))
    {charges : List (String × Nat)} (hcharges : ∀ charge ∈ charges, charge.1 ≠ bucket) :
    TwoWindow.Alike bucket window (view (incrementAll charges state)) (view other) := by
  induction charges generalizing state with
  | nil => exact h
  | cons charge charges ih =>
    rw [incrementAll_cons]
    apply ih
    · rw [view_increment]
      exact h.charge_other (hcharges charge (List.mem_cons_self ..)).symm charge.2
    · intro later hlater
      exact hcharges later (List.mem_cons_of_mem _ hlater)

/-- The same charges in the window of both keep them alike. -/
theorem alike_incrementAll (h : TwoWindow.Alike bucket window (view state) (view other))
    (hstate : state.currentWindow = window) (hother : other.currentWindow = window)
    (charges : List (String × Nat)) :
    TwoWindow.Alike bucket window (view (incrementAll charges state))
      (view (incrementAll charges other)) := by
  induction charges generalizing state other with
  | nil => exact h
  | cons charge charges ih =>
    rw [incrementAll_cons, incrementAll_cons]
    apply ih
    · rw [view_increment, view_increment]
      exact h.charge hstate hother charge.1 charge.2
    · exact hstate
    · exact hother

/-! ## One check -/

section Check

variable {F : Type} [F32 F]

/-- A bucket with the same counts in the same window is decided in the same way. -/
theorem checkBucket_congr (windowDuration rateLimit : Nat) (charge : Option Nat)
    (tick : String → Nat) (hwindow : state.currentWindow = other.currentWindow)
    (hcurrent : state.currentBuckets.count bucket = other.currentBuckets.count bucket)
    (hlast : state.lastBuckets.count bucket = other.lastBuckets.count bucket) :
    (checkBucket F windowDuration rateLimit charge tick bucket state).1 =
      (checkBucket F windowDuration rateLimit charge tick bucket other).1 := by
  unfold checkBucket
  rw [hwindow, hcurrent, hlast]
  cases elapsedCurrentWindow (F := F) windowDuration other.currentWindow (tick bucket) with
  | none => rfl
  | some ratioElapsed =>
    cases charge with
    | none => rfl
    | some val => rfl

variable {crates : Crates} {self : RateLimiter} {attempt : Attempt}

/-- What the counts say about a client's bucket decides its request. -/
theorem shouldRequestPass_congr (hself : LimitsClients crates self)
    (hcurrent : (updateCurrentWindow self.windowDuration attempt.now state).currentBuckets.count
      (crates.ipToString attempt.info.ip) =
        (updateCurrentWindow self.windowDuration attempt.now other).currentBuckets.count
          (crates.ipToString attempt.info.ip))
    (hlast : (updateCurrentWindow self.windowDuration attempt.now state).lastBuckets.count
      (crates.ipToString attempt.info.ip) =
        (updateCurrentWindow self.windowDuration attempt.now other).lastBuckets.count
          (crates.ipToString attempt.info.ip)) :
    (shouldRequestPass F self state attempt).1 = (shouldRequestPass F self other attempt).1 := by
  unfold shouldRequestPass
  cases JsonDataCache.handleCacheOption self.cache attempt.now with
  | none => rfl
  | some json =>
    dsimp only
    split
    · -- the address is the only bucket, so the loop makes one comparison
      rw [hself.bucket, IterOrder.list_singleton, checkBuckets_singleton, checkBuckets_singleton]
      apply checkBucket_congr
      · rw [updateCurrentWindow_currentWindow, updateCurrentWindow_currentWindow]
      · exact hcurrent
      · exact hlast
    · rfl

/-- **Own step**: a request of the client is answered alike and keeps the counts alike. -/
theorem shouldRequestPass_alike (hself : LimitsClients crates self)
    (h : TwoWindow.Alike (crates.ipToString attempt.info.ip)
      (getCurrentWindow self.windowDuration attempt.now) (view state) (view other)) :
    (shouldRequestPass F self state attempt).1 = (shouldRequestPass F self other attempt).1 ∧
      TwoWindow.Alike (crates.ipToString attempt.info.ip)
        (getCurrentWindow self.windowDuration attempt.now)
        (view (shouldRequestPass F self state attempt).2)
        (view (shouldRequestPass F self other attempt).2) := by
  have hcurrent := h.current
  have hlast := h.last
  rw [← view_updateCurrentWindow, ← view_updateCurrentWindow] at hcurrent hlast
  have hdecision := shouldRequestPass_congr (F := F) hself hcurrent hlast
  refine ⟨hdecision, ?_⟩
  rw [shouldRequestPass_state, shouldRequestPass_state, hdecision]
  have hrolled := h.advance_left.symm.advance_left.symm
  rw [← view_updateCurrentWindow, ← view_updateCurrentWindow] at hrolled
  exact alike_incrementAll hrolled (updateCurrentWindow_currentWindow ..)
    (updateCurrentWindow_currentWindow ..) _

/-- **Step of another client**: a request with another bucket goes unnoticed. -/
theorem shouldRequestPass_other (hself : LimitsClients crates self)
    (hother : crates.ipToString attempt.info.ip ≠ bucket)
    (h : TwoWindow.Alike bucket (getCurrentWindow self.windowDuration attempt.now) (view state)
      (view other)) :
    TwoWindow.Alike bucket (getCurrentWindow self.windowDuration attempt.now)
      (view (shouldRequestPass F self state attempt).2) (view other) := by
  rw [shouldRequestPass_state]
  have hrolled := h.advance_left
  rw [← view_updateCurrentWindow] at hrolled
  apply alike_incrementAll_other hrolled
  intro charge hcharge hsame
  have hmem := shouldRequestPass_charges_mem hcharge
  unfold bucketsOf at hmem
  split at hmem
  · rw [hself.bucket, Finset.mem_singleton] at hmem
    exact hother (hmem.symm.trans hsame)
  · simp at hmem

end Check

/-! ## Runs -/

/-- Whether a call comes from an address. -/
def isFrom (ip : IpAddr) (attempt : Attempt) : Bool := attempt.info.ip = ip

section Runs

variable {F : Type} [F32 F] {crates : Crates} {self : RateLimiter} {ip : IpAddr}

/-- **Run**: from counts that are alike for a client, its part of a run is its run alone. -/
theorem filter_answers (hcrates : crates.TellsApart) (hself : LimitsClients crates self)
    {state other : WindowState} {start : Nat}
    (h : TwoWindow.Alike (crates.ipToString ip) (getCurrentWindow self.windowDuration start)
      (view state) (view other))
    {calls : List Attempt} (hclock : ClockNeverGoesBack start (calls.map Attempt.now)) :
    (trace (shouldRequestPass F self) state calls).filter (fun answered => isFrom ip answered.1) =
      trace (shouldRequestPass F self) other (calls.filter (isFrom ip)) := by
  refine filter_trace (shouldRequestPass F self) Attempt.now (isFrom ip)
    (fun now state other => TwoWindow.Alike (crates.ipToString ip)
      (getCurrentWindow self.windowDuration now) (view state) (view other))
    ?later ?others ?own h hclock
  case later =>
    intro now now' state other hle halike
    exact halike.later (getCurrentWindow_mono self.windowDuration hle)
  case others =>
    -- the run alone has no such call, and the text of its address is another bucket
    intro state other attempt hattempt halike
    have hne : attempt.info.ip ≠ ip := of_decide_eq_false hattempt
    exact shouldRequestPass_other hself (fun hsame => hne (hcrates hsame)) halike
  case own =>
    intro state other attempt hattempt halike
    have hip : attempt.info.ip = ip := of_decide_eq_true hattempt
    rw [← hip] at halike ⊢
    exact shouldRequestPass_alike hself halike

/-- The part of a clock that some calls read. -/
theorem ClockNeverGoesBack.filter {start : Nat} {calls : List Attempt}
    (h : ClockNeverGoesBack start (calls.map Attempt.now)) (p : Attempt → Bool) :
    ClockNeverGoesBack start ((calls.filter p).map Attempt.now) :=
  List.Pairwise.sublist (List.Sublist.cons_cons _ (List.filter_sublist.map _)) h

/-- When a limiter was built makes no difference to the calls after that. -/
theorem answers_of_start (hcrates : crates.TellsApart) (hself : LimitsClients crates self)
    {start start' : Nat} {calls : List Attempt} (hcalls : ∀ call ∈ calls, isFrom ip call = true)
    (hclock : ClockNeverGoesBack start (calls.map Attempt.now))
    (hclock' : ClockNeverGoesBack start' (calls.map Attempt.now)) :
    trace (shouldRequestPass F self) (newState self.windowDuration start) calls =
      trace (shouldRequestPass F self) (newState self.windowDuration start') calls := by
  have halike : TwoWindow.Alike (crates.ipToString ip)
      (getCurrentWindow self.windowDuration (max start start'))
      (view (newState self.windowDuration start)) (view (newState self.windowDuration start')) :=
    TwoWindow.alike_fresh (getCurrentWindow_mono _ (le_max_left ..))
      (getCurrentWindow_mono _ (le_max_right ..))
  -- from the later of the two starts on the fresh states are alike
  have hlatest : ClockNeverGoesBack (max start start') (calls.map Attempt.now) := by
    obtain ⟨hstart, hrest⟩ := List.pairwise_cons.mp hclock
    obtain ⟨hstart', -⟩ := List.pairwise_cons.mp hclock'
    refine List.pairwise_cons.mpr ⟨?_, hrest⟩
    intro now hnow
    exact max_le (hstart now hnow) (hstart' now hnow)
  have halone := filter_answers (F := F) hcrates hself halike hlatest
  rw [List.filter_eq_self.mpr hcalls] at halone
  rw [← halone, List.filter_eq_self.mpr]
  intro answered hanswered
  apply hcalls
  rw [← trace_map_fst (shouldRequestPass F self) (newState self.windowDuration start) calls]
  exact List.mem_map_of_mem hanswered

end Runs

/-- **Isolation**: two runs that have the same timed requests of a client give it the same
decisions, whatever the other clients send. -/
theorem clients_isolated (F : Type) [F32 F] {crates : Crates} (hcrates : crates.TellsApart)
    (self : RateLimiter) (hself : LimitsClients crates self) (ip : IpAddr) (start start' : Nat)
    (calls calls' : List Attempt)
    (hclock : ClockNeverGoesBack start (calls.map Attempt.now))
    (hclock' : ClockNeverGoesBack start' (calls'.map Attempt.now))
    (hsame : calls.filter (isFrom ip) = calls'.filter (isFrom ip)) :
    (trace (shouldRequestPass F self) (newState self.windowDuration start) calls).filter
        (fun answered => isFrom ip answered.1) =
      (trace (shouldRequestPass F self) (newState self.windowDuration start') calls').filter
        (fun answered => isFrom ip answered.1) := by
  have hfresh : ∀ start, TwoWindow.Alike (crates.ipToString ip)
      (getCurrentWindow self.windowDuration start) (view (newState self.windowDuration start))
      (view (newState self.windowDuration start)) :=
    fun start => TwoWindow.alike_fresh (Nat.le_refl _) (Nat.le_refl _)
  have hown := hclock.filter (isFrom ip)
  have hown' := hclock'.filter (isFrom ip)
  rw [← hsame] at hown'
  -- either run answers the client as if its calls were the only ones
  calc (trace (shouldRequestPass F self) (newState self.windowDuration start) calls).filter
        (fun answered => isFrom ip answered.1)
      = trace (shouldRequestPass F self) (newState self.windowDuration start)
          (calls.filter (isFrom ip)) := filter_answers hcrates hself (hfresh start) hclock
    _ = trace (shouldRequestPass F self) (newState self.windowDuration start')
          (calls.filter (isFrom ip)) :=
        answers_of_start hcrates hself (fun call hcall => (List.mem_filter.mp hcall).2) hown hown'
    _ = _ := by
        rw [hsame]
        exact (filter_answers hcrates hself (hfresh start') hclock').symm

/-! ## Two clients -/

/-- One request a minute for every client. -/
def perClient : RatelimitConfig := ⟨"base", .attempt, .ip, 1, 60, none⟩

/-- A request of one client. -/
def fromClient (bits : BitVec 32) (now : Nat) : Attempt :=
  { checkAt now with info := ⟨.empty, ⟨"/v1/chain/get_info", none⟩, .v4 bits⟩ }

/-- One client asks twice; another one is busy around it or not there at all. -/
theorem clients_isolated_two :
    ∃ limiter, newRatelimiter (.spelled []) ∅ perClient = .ok limiter ∧
      let calls := [fromClient 1 0, fromClient 2 (10 * 10 ^ 9), fromClient 1 (20 * 10 ^ 9),
        fromClient 2 (60 * 10 ^ 9), fromClient 1 (70 * 10 ^ 9)]
      let calls' := [fromClient 1 0, fromClient 1 (20 * 10 ^ 9), fromClient 1 (70 * 10 ^ 9)]
      (trace (shouldRequestPass ℚ limiter) (newState limiter.windowDuration 0) calls).filter
          (fun answered => isFrom (.v4 1) answered.1) =
        (trace (shouldRequestPass ℚ limiter) (newState limiter.windowDuration 0) calls').filter
          (fun answered => isFrom (.v4 1) answered.1) := by
  -- The second client's calls come in between, and are left out of the other run.
  have hpos : 0 < 60 := by simp
  obtain ⟨limiter, hnew⟩ : ∃ limiter, newRatelimiter (.spelled []) ∅ perClient = .ok limiter :=
    ⟨_, dif_pos hpos⟩
  refine ⟨limiter, hnew, ?_⟩
  exact clients_isolated ℚ (Crates.spelled_tellsApart []) limiter
    (limitsClients_newRatelimiter rfl rfl hnew) (.v4 1) 0 0 _ _
    (by simp [ClockNeverGoesBack, fromClient, checkAt])
    (by simp [ClockNeverGoesBack, fromClient, checkAt])
    (by simp [isFrom, fromClient])

end AntelopeFirewall.RateLimiter
