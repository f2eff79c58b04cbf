import AntelopeFirewall.RateLimiter.Attempts
import AntelopeFirewall.Library.FixedWindow
import Mathlib.Tactic.Linarith
import Mathlib.Tactic.Positivity

/-!
# The Burst of an Attempt-Mode Limiter

An interval as long as the window can reach into two windows, each of which alone may let
through twice the limit. The weighted count keeps the two from adding up: after a window in
which more than the limit was charged, the next one lets through no more than the limit.

- `checkBuckets_weighted` is what the comparison with the limit says of a request that passes,
- `adjacent_passes_le` bounds two windows in a row,
- `burst_le` bounds every interval of the length of the window.

The weighting is read as exact arithmetic.
-/

namespace AntelopeFirewall.RateLimiter

open Library Library.Machine

/-! ## What the comparison says -/

/-- A bucket that is let through was not over the limit. -/
theorem checkBucket_weighted {F : Type} [F32 F] {windowDuration rateLimit : Nat}
    {charge : Option Nat} {tick : String → Nat} {bucket : String} {state : WindowState}
    (h : (checkBucket F windowDuration rateLimit charge tick bucket state).1.verdict =
      some true) :
    ∃ ratioElapsed : F,
      elapsedCurrentWindow windowDuration state.currentWindow (tick bucket) =
        some ratioElapsed ∧
      exceeds (weightedCount (state.currentBuckets.count bucket)
        (state.lastBuckets.count bucket) ratioElapsed) (state.currentBuckets.count bucket)
        rateLimit = false := by
  unfold checkBucket at h
  cases helapsed : elapsedCurrentWindow (F := F) windowDuration state.currentWindow
      (tick bucket) with
  | none => simp [helapsed] at h
  | some ratioElapsed =>
    refine ⟨ratioElapsed, rfl, ?_⟩
    -- the verdict is the same with and without a charge
    cases charge with
    | none => simpa [helapsed] using h
    | some val => simpa [helapsed] using h

/-- One turn leaves the window and the counts of every other bucket. -/
theorem checkBucket_other {F : Type} [F32 F] (windowDuration rateLimit : Nat)
    (charge : Option Nat) (tick : String → Nat) {bucket other : String} (hne : other ≠ bucket)
    (state : WindowState) :
    let left := (checkBucket F windowDuration rateLimit charge tick bucket state).2
    left.currentWindow = state.currentWindow ∧
      left.lastBuckets = state.lastBuckets ∧
      left.currentBuckets.count other = state.currentBuckets.count other := by
  unfold checkBucket
  cases elapsedCurrentWindow (F := F) windowDuration state.currentWindow (tick bucket) with
  | none => exact ⟨rfl, rfl, rfl⟩
  | some ratioElapsed =>
    cases charge with
    | none => exact ⟨rfl, rfl, rfl⟩
    | some val => exact ⟨rfl, rfl, Table.count_bump_ne hne val state.currentBuckets⟩

/-- When every bucket is let through, none was over the limit with the counts that the loop
started with: a bucket is charged in its own turn only. -/
theorem checkBuckets_weighted {F : Type} [F32 F] {windowDuration rateLimit : Nat}
    {charge : Option Nat} {tick : String → Nat} {buckets : List String} {state : WindowState}
    (hnodup : buckets.Nodup)
    (h : (checkBuckets F windowDuration rateLimit charge tick buckets state).1.verdict =
      some true) :
    ∀ bucket ∈ buckets, ∃ ratioElapsed : F,
      elapsedCurrentWindow windowDuration state.currentWindow (tick bucket) =
        some ratioElapsed ∧
      exceeds (weightedCount (state.currentBuckets.count bucket)
        (state.lastBuckets.count bucket) ratioElapsed) (state.currentBuckets.count bucket)
        rateLimit = false := by
  -- Induction on the buckets: each is tested at the counts the turns before it left.
  induction buckets generalizing state with
  | nil => simp
  | cons first rest ih =>
    obtain ⟨hfresh, hrest⟩ := List.nodup_cons.mp hnodup
    simp only [checkBuckets] at h
    by_cases hone : (checkBucket F windowDuration rateLimit charge tick first
        state).1.verdict = some true
    · rw [if_pos hone] at h
      intro bucket hbucket
      rcases List.mem_cons.mp hbucket with rfl | hbucket
      · exact checkBucket_weighted hone
      · -- the turn of the first bucket has not touched this one
        have hne : bucket ≠ first := fun hsame => hfresh (hsame ▸ hbucket)
        obtain ⟨hwindow, hlast, hcurrent⟩ :=
          checkBucket_other (F := F) windowDuration rateLimit charge tick hne state
        have hlater := ih hrest h bucket hbucket
        rwa [hwindow, hlast, hcurrent] at hlater
    -- the loop ended at the first bucket
    · rw [if_neg hone] at h
      exact absurd h hone

/-- A request that passes was over the limit in none of its buckets, with the counts as they
stood after the rollover. -/
theorem shouldRequestPass_weighted {F : Type} [F32 F] {self : RateLimiter}
    {state : WindowState} {attempt : Attempt}
    (h : (shouldRequestPass F self state attempt).1.verdict = some true) {bucket : String}
    (hbucket : bucket ∈ self.bucketsOf attempt.info attempt.value attempt.now) :
    let rolled := updateCurrentWindow self.windowDuration attempt.now state
    ∃ json, ∃ ratioElapsed : F,
      elapsedCurrentWindow self.windowDuration
        (getCurrentWindow self.windowDuration attempt.now) (attempt.tick bucket) =
        some ratioElapsed ∧
      exceeds (weightedCount (rolled.currentBuckets.count bucket)
        (rolled.lastBuckets.count bucket) ratioElapsed) (rolled.currentBuckets.count bucket)
        (self.getRatelimit attempt.info attempt.value json) = false := by
  unfold shouldRequestPass at h
  unfold bucketsOf at hbucket
  cases hcache : JsonDataCache.handleCacheOption self.cache attempt.now with
  | none => simp [hcache] at h
  | some json =>
    simp only [hcache] at h hbucket
    by_cases hlimited : self.shouldBeLimited attempt.info attempt.value json = true
    · rw [if_pos hlimited] at h
      -- the loop compares every bucket of the set, in any order
      have hall := checkBuckets_weighted (attempt.order.nodup _) h bucket (by simpa using hbucket)
      rw [updateCurrentWindow_currentWindow] at hall
      exact ⟨json, hall⟩
    · rw [if_neg hlimited] at h
      simp at h

/-! ## The weighting in exact arithmetic -/

/-- A window does not begin after the readings that fall into it. -/
theorem windowStart_le (windowDuration now : Nat) :
    10 ^ 9 * (getCurrentWindow windowDuration now * windowDuration) ≤ now := by
  unfold getCurrentWindow
  calc 10 ^ 9 * (now / 10 ^ 9 / windowDuration * windowDuration)
      ≤ 10 ^ 9 * (now / 10 ^ 9) := Nat.mul_le_mul_left _ (Nat.div_mul_le_self ..)
    _ ≤ now := Nat.mul_div_le ..

/-- The readings that fall into a window come before its end. -/
theorem lt_windowStart_succ {windowDuration : Nat} (hpos : 0 < windowDuration) (now : Nat) :
    now < 10 ^ 9 * ((getCurrentWindow windowDuration now + 1) * windowDuration) := by
  unfold getCurrentWindow
  have hsecs := Nat.lt_div_mul_add (a := now / 10 ^ 9) hpos
  have hnanos := Nat.lt_div_mul_add (a := now) (b := 10 ^ 9) (by positivity)
  nlinarith

/-- What a reading that is not before a window has passed of it, counted in windows. -/
theorem elapsedCurrentWindow_rat {windowDuration currentWindow now : Nat}
    (hstart : 10 ^ 9 * (currentWindow * windowDuration) ≤ now) :
    elapsedCurrentWindow windowDuration currentWindow now =
      some (((now - 10 ^ 9 * (currentWindow * windowDuration) : Nat) : ℚ) / 10 ^ 9 /
        windowDuration) :=
  if_pos hstart

/-- In its own window a clock reading leaves a part of the window to come. -/
theorem elapsedCurrentWindow_lt_one {windowDuration now : Nat} (hpos : 0 < windowDuration)
    {ratioElapsed : ℚ}
    (h : elapsedCurrentWindow windowDuration (getCurrentWindow windowDuration now) now =
      some ratioElapsed) :
    0 ≤ ratioElapsed ∧ ratioElapsed < 1 := by
  rw [elapsedCurrentWindow_rat (windowStart_le windowDuration now), Option.some.injEq] at h
  subst h
  have hd : (0 : ℚ) < windowDuration := by exact_mod_cast hpos
  refine ⟨by positivity, ?_⟩
  have hend := lt_windowStart_succ hpos now
  have hrest : now - 10 ^ 9 * (getCurrentWindow windowDuration now * windowDuration) <
      windowDuration * 10 ^ 9 := by
    rw [Nat.add_mul, Nat.mul_add] at hend
    omega
  rw [div_lt_one hd, div_lt_iff₀ (by positivity)]
  exact_mod_cast hrest

/-- With more than the limit charged in the last window, a weighted count within the limit
leaves room below the limit itself. -/
theorem lt_of_weightedCount_le {current last limit : Nat} {ratioElapsed : ℚ}
    (hnonneg : 0 ≤ ratioElapsed) (hlt : ratioElapsed < 1) (hlast : limit < last)
    (h : weightedCount current last ratioElapsed ≤ limit) : current < limit := by
  simp only [weightedCount, F32.add_rat, F32.mul_rat, F32.sub_rat, F32.ofU64_rat,
    Nat.cast_one] at h
  by_contra hfull
  have hcurrent : (limit : ℚ) ≤ current := by exact_mod_cast Nat.le_of_not_lt hfull
  have hlast' : (limit : ℚ) < last := by exact_mod_cast hlast
  -- the weights add up to one, and neither count is below the limit
  have hfirst : (limit : ℚ) * ratioElapsed ≤ current * ratioElapsed :=
    mul_le_mul_of_nonneg_right hcurrent hnonneg
  have hsecond : (limit : ℚ) * (1 - ratioElapsed) < last * (1 - ratioElapsed) :=
    mul_lt_mul_of_pos_right hlast' (by linarith)
  linarith

/-! ## Two windows in a row -/

section Adjacent

variable {self : RateLimiter} {limit : Nat}

/-- After a window in which more than the limit was charged, a request is let through only
below the limit itself. -/
theorem passedIn_crowded (hself : LimitsAttempts self limit) {state : WindowState}
    {made : List (Charge String)} (htracks : (view state).Tracks made) {attempt : Attempt}
    (hreading : ∀ bucket, attempt.tick bucket = attempt.now)
    (hwindow : state.currentWindow ≤ getCurrentWindow self.windowDuration attempt.now)
    {window : Nat} {bucket : String}
    (hcrowded : limit < Ledger.chargedIn made window bucket)
    (hpassed : passedIn self (window + 1) bucket
      (attempt, (shouldRequestPass ℚ self state attempt).1) = true) :
    Ledger.chargedIn made (window + 1) bucket < limit := by
  simp only [passedIn, decide_eq_true_eq] at hpassed
  obtain ⟨hverdict, hnow, hbucket⟩ := hpassed
  obtain ⟨json, ratioElapsed, helapsed, hexceeds⟩ := shouldRequestPass_weighted hverdict hbucket
  rw [hreading] at helapsed
  obtain ⟨hnonneg, hlt⟩ := elapsedCurrentWindow_lt_one self.windowDuration_pos helapsed
  -- the counts that were compared are the ledger's
  have hrolled := htracks.advance hwindow
  rw [← view_updateCurrentWindow] at hrolled
  have hindex : (updateCurrentWindow self.windowDuration attempt.now state).currentWindow =
      window + 1 := by
    rw [updateCurrentWindow_currentWindow, hnow]
  have hcurrent := hrolled.current bucket
  have hlast := hrolled.last bucket
  rw [view_index, hindex] at hcurrent hlast
  rw [Ledger.chargedBefore_succ] at hlast
  change (updateCurrentWindow self.windowDuration attempt.now state).currentBuckets.count
    bucket = _ at hcurrent
  change (updateCurrentWindow self.windowDuration attempt.now state).lastBuckets.count
    bucket = _ at hlast
  rw [hself.rate, hcurrent, hlast] at hexceeds
  simp only [exceeds, Bool.or_eq_false_iff, F32.gt_rat, decide_eq_false_iff_not, not_lt,
    F32.ofU64_rat] at hexceeds
  exact lt_of_weightedCount_le hnonneg hlt hcrowded hexceeds.1

/-- While no call came after a window, none was let through in the next one. -/
theorem passes_eq_zero {answered : List (Attempt × Decision)} {window : Nat} (bucket : String)
    (h : ∀ call ∈ answered.map Prod.fst,
      getCurrentWindow self.windowDuration call.now < window) :
    passes self window bucket answered = 0 := by
  apply List.countP_eq_zero.mpr
  intro e he hpassed
  simp only [passedIn, decide_eq_true_eq] at hpassed
  have hearlier := h e.1 (List.mem_map_of_mem he)
  omega

/-- A check in a later window charges nothing in an earlier one. -/
theorem chargedIn_entries_later {now window : Nat} (charges : List (String × Nat))
    (bucket : String) (hlater : window < getCurrentWindow self.windowDuration now) :
    Ledger.chargedIn (entries (getCurrentWindow self.windowDuration now) charges) window
      bucket = 0 := by
  apply Ledger.chargedIn_eq_zero
  intro charge hcharge
  obtain ⟨_, -, rfl⟩ := List.mem_map.mp hcharge
  exact hlater.ne'

/-- Either no more than the limit was charged in a window, or the next one lets no more than
the limit through. -/
theorem charged_le_or_passes_le (hself : LimitsAttempts self limit) {start : Nat}
    {calls : List Attempt} (hclock : ClockNeverGoesBack start (calls.map Attempt.now))
    (hreading : ∀ call ∈ calls, ∀ bucket, call.tick bucket = call.now)
    (window : Nat) (bucket : String) :
    let answered := trace (shouldRequestPass ℚ self) (newState self.windowDuration start) calls
    -- Induction on the calls: what holds before a call is kept by it, on the one side or the other.
    Ledger.chargedIn (ledger self.windowDuration answered) window bucket ≤ limit ∨
      passes self (window + 1) bucket answered ≤ limit := by
  refine run_invariant (shouldRequestPass ℚ self)
    (fun answered _ =>
      Ledger.chargedIn (ledger self.windowDuration answered) window bucket ≤ limit ∨
        passes self (window + 1) bucket answered ≤ limit)
    (.inl (Nat.zero_le _)) fun earlier attempt hpre ih => ?_
  have hclock' := hclock.initial (hpre.map _)
  have hbefore := hclock'.initial ((List.prefix_append earlier [attempt]).map _)
  have htracks := run_tracks ℚ self hbefore
  have hbound := (passes_le (F := ℚ) hself hbefore (window + 1) bucket).1
  rw [trace_concat, passes_concat, ledger_append, Ledger.chargedIn_append, ledger_singleton]
  by_cases hnow : getCurrentWindow self.windowDuration attempt.now ≤ window
  · -- the second window has not begun
    right
    have hnone : passes self (window + 1) bucket (trace (shouldRequestPass ℚ self)
        (newState self.windowDuration start) earlier) = 0 := by
      apply passes_eq_zero
      intro call hcall
      rw [trace_map_fst] at hcall
      rw [List.map_append] at hclock'
      have hle := hclock'.le_last call.now (List.mem_cons_of_mem _ (List.mem_map_of_mem hcall))
      have := getCurrentWindow_mono self.windowDuration hle
      omega
    rw [hnone, if_neg]
    · exact Nat.zero_le _
    · simp only [passedIn, decide_eq_true_eq]
      intro hpassed
      omega
  · -- the first window is over, and what was charged in it is the last count
    rw [chargedIn_entries_later _ _ (Nat.lt_of_not_le hnow), Nat.add_zero]
    rcases Nat.lt_or_ge limit (Ledger.chargedIn (ledger self.windowDuration
      (trace (shouldRequestPass ℚ self) (newState self.windowDuration start) earlier))
      window bucket) with hcrowded | hquiet
    · right
      split_ifs with hpassed
      · have hroom := passedIn_crowded hself htracks
          (hreading attempt (hpre.subset (by simp))) (currentWindow_le_of_clock hclock')
          hcrowded hpassed
        omega
      · exact ih.resolve_left (by omega)
    · exact .inl hquiet

/-- **Two windows in a row** let at most three times the limit through. -/
theorem adjacent_passes_le (hself : LimitsAttempts self limit) {start : Nat}
    {calls : List Attempt} (hclock : ClockNeverGoesBack start (calls.map Attempt.now))
    (hreading : ∀ call ∈ calls, ∀ bucket, call.tick bucket = call.now)
    (window : Nat) (bucket : String) :
    let answered := trace (shouldRequestPass ℚ self) (newState self.windowDuration start) calls
    passes self window bucket answered + passes self (window + 1) bucket answered ≤
      3 * limit := by
  -- Both windows take at most twice the limit, and one of them at most the limit.
  intro answered
  have hfirst : passes self window bucket answered ≤
      Ledger.chargedIn (ledger self.windowDuration answered) window bucket ∧
        passes self window bucket answered ≤ 2 * limit := passes_le hself hclock window bucket
  have hsecond : passes self (window + 1) bucket answered ≤ 2 * limit :=
    (passes_le hself hclock (window + 1) bucket).2
  rcases charged_le_or_passes_le hself hclock hreading window bucket with hquiet | hcalm
  · -- at most the limit in the first window
    have := hfirst.1.trans hquiet
    omega
  · -- at most the limit in the second
    have hsecond' : passes self (window + 1) bucket answered ≤ limit := hcalm
    have := hfirst.2
    omega

end Adjacent

/-! ## Any interval -/

/-- How many calls of a run were let through with `bucket` in the interval of the length of
the window that starts at `x`. -/
def passesWithin (self : RateLimiter) (x : Nat) (bucket : String)
    (answered : List (Attempt × Decision)) : Nat :=
  answered.countP fun e => e.2.verdict = some true ∧
    FixedWindow.inInterval (10 ^ 9 * self.windowDuration) x e.1.now ∧
    bucket ∈ self.bucketsOf e.1.info e.1.value e.1.now

/-- An interval reaches into the window it starts in and into the next one. -/
theorem getCurrentWindow_of_inInterval {windowDuration x now : Nat}
    (hpos : 0 < windowDuration)
    (h : FixedWindow.inInterval (10 ^ 9 * windowDuration) x now = true) :
    getCurrentWindow windowDuration now = getCurrentWindow windowDuration x ∨
      getCurrentWindow windowDuration now = getCurrentWindow windowDuration x + 1 := by
  simp only [FixedWindow.inInterval, decide_eq_true_eq] at h
  obtain ⟨hfrom, hto⟩ := h
  have hlength : 0 < 10 ^ 9 * windowDuration := by positivity
  have hlow := getCurrentWindow_mono windowDuration hfrom
  unfold getCurrentWindow at *
  rw [Nat.div_div_eq_div_mul, Nat.div_div_eq_div_mul] at *
  have hhigh : now / (10 ^ 9 * windowDuration) ≤ (x + 10 ^ 9 * windowDuration) /
      (10 ^ 9 * windowDuration) := Nat.div_le_div_right hto.le
  rw [Nat.add_div_right x hlength] at hhigh
  omega

theorem passesWithin_le (self : RateLimiter) (x : Nat) (bucket : String)
    (answered : List (Attempt × Decision)) :
    passesWithin self x bucket answered ≤
      passes self (getCurrentWindow self.windowDuration x) bucket answered +
        passes self (getCurrentWindow self.windowDuration x + 1) bucket answered := by
  induction answered with
  | nil => exact Nat.zero_le _
  | cons e answered ih =>
    unfold passesWithin passes at *
    rw [List.countP_cons, List.countP_cons, List.countP_cons]
    split
    · next hin =>
      simp only [decide_eq_true_eq] at hin
      obtain ⟨hverdict, hinterval, hbucket⟩ := hin
      -- a passed request of the interval counts in one of the two windows
      rcases getCurrentWindow_of_inInterval self.windowDuration_pos hinterval with h | h
      · have hpassed : passedIn self (getCurrentWindow self.windowDuration x) bucket e = true := by
          simp [passedIn, hverdict, hbucket, h]
        rw [if_pos hpassed]
        omega
      · have hpassed : passedIn self (getCurrentWindow self.windowDuration x + 1) bucket e =
            true := by
          simp [passedIn, hverdict, hbucket, h]
        rw [if_pos hpassed]
        omega
    · omega

/-- **Burst**: every half-open interval of the length of the window, wherever it starts, has
at most three times the limit of requests that were let through for a bucket. -/
theorem burst_le (self : RateLimiter) (limit : Nat) (hself : LimitsAttempts self limit)
    (start : Nat) (calls : List Attempt)
    (hclock : ClockNeverGoesBack start (calls.map Attempt.now))
    (hreading : ∀ call ∈ calls, ∀ bucket, call.tick bucket = call.now) (bucket : String)
    (x : Nat) :
    passesWithin self x bucket
        (trace (shouldRequestPass ℚ self) (newState self.windowDuration start) calls) ≤
      3 * limit :=
  (passesWithin_le self x bucket _).trans
    (adjacent_passes_le hself hclock hreading (getCurrentWindow self.windowDuration x) bucket)

/-- A limit of one around the turn of a minute. -/
theorem burst_le_one :
    passesWithin (oneBucket .attempt 1) (59 * 10 ^ 9) "a"
      (trace (shouldRequestPass ℚ (oneBucket .attempt 1)) (newState 60 0)
        [checkAt (59 * 10 ^ 9), checkAt (60 * 10 ^ 9)]) ≤ 3 :=
  burst_le (oneBucket .attempt 1) 1 ⟨rfl, rfl⟩ 0 [checkAt (59 * 10 ^ 9), checkAt (60 * 10 ^ 9)]
    (by simp [ClockNeverGoesBack, checkAt]) (by simp [checkAt]) "a" (59 * 10 ^ 9)

end AntelopeFirewall.RateLimiter
