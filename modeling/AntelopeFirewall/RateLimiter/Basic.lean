import AntelopeFirewall.Basic
import AntelopeFirewall.Library.F32
import AntelopeFirewall.Library.IterOrder
import AntelopeFirewall.Library.Table
import Mathlib.Data.String.Basic

/-!
# The Rate Limiter

`RateLimiter` limits requests by the sliding window technique: every bucket has a count
for the current window and one for the window before it, and a request is checked against
the two weighted by how much of the current window has elapsed.

- `shouldRequestPass` rolls the window over, checks every bucket of the request and, in
  attempt mode, charges it,
- `postIncrement` charges the buckets after the response, in failure mode.

Both hold the limiter's mutex from their first read of the counts to their end, so each is
one step on the `WindowState`. A count is a `u64` that rises by one charge at a time and is
read as a natural number; the doubled limit of the check is a product of two given numbers
and wraps. The clock is `SystemTime`, in nanoseconds since the epoch.
-/

namespace AntelopeFirewall

open Library

/-- When a limiter charges the buckets of a request, and how much. -/
inductive IncrementMode where
  | before (getRateUsed : MapFn Nat)
  | after (getRateUsed : PostMapFn Nat)

/-- `limit_on = "attempt"`: one for every attempt. -/
def IncrementMode.attempt : IncrementMode := .before fun _ _ _ => 1

/-- `limit_on = "failure"`: one for every response that is not a success. -/
def IncrementMode.failure : IncrementMode :=
  .after fun _ _ response _ => if response.2.isSuccess then 0 else 1

/-- Whether the charge is made by the check itself. -/
def IncrementMode.shouldRunBeforeRequest : IncrementMode → Bool
  | .before _ => true
  | .after _ => false

/-- The mutex-protected counts: the window they are for and the counts of the window before
it and of the window itself. The source counts in 64-bit words. A count starts at zero in each
window, and a call of a limiter that is built from a configuration adds one to it at most, so none
leaves its word in fewer than `2 ^ 64` calls; here counts are not bounded. -/
structure WindowState where
  currentWindow : Nat
  lastBuckets : Table String Nat
  currentBuckets : Table String Nat

/-- A limiter as it was built. Its construction divides by the window duration, so one with
a zero duration does not exist. -/
structure RateLimiter where
  name : String
  shouldBeLimited : FilterFn
  getBuckets : RatelimiterMapFn (Finset String)
  getRatelimit : MapFn Nat
  incrementMode : IncrementMode
  cache : Option JsonDataCache
  windowDuration : Nat
  windowDuration_pos : 0 < windowDuration

/-- What a call of `should_request_pass` brings: the request, its body, the order in which
the set of its buckets is iterated, the clock reading that fixes the window, and the
reading taken for each bucket. -/
structure Attempt where
  info : RequestInfo
  value : Json
  order : IterOrder String
  now : Nat
  tick : String → Nat

/-- What a call did: its answer, none when it panicked, and the arguments of the calls of
`increment` it made, in order. -/
structure Decision where
  verdict : Option Bool
  charges : List (String × Nat)
  deriving DecidableEq, Repr

namespace RateLimiter

/-! ## Windows -/

/-- The window a clock reading falls into. -/
def getCurrentWindow (windowDuration now : Nat) : Nat := now / 10 ^ 9 / windowDuration

/-- The counts of a limiter built at `now`. -/
def newState (windowDuration now : Nat) : WindowState :=
  ⟨getCurrentWindow windowDuration now, ∅, ∅⟩

/-- Fraction of the current window that is elapsed; none is the panic "Time went
backwards". -/
def elapsedCurrentWindow {F : Type} [F32 F] (windowDuration currentWindow now : Nat) :
    Option F :=
  let start := 10 ^ 9 * (currentWindow * windowDuration)
  if start ≤ now then
    some (F32.div (F32.asSecs (now - start)) (F32.ofU64 windowDuration))
  else none

/-- Bring the counts to the window of `now`. -/
def updateCurrentWindow (windowDuration now : Nat) (state : WindowState) : WindowState :=
  let realCurrentWindow := getCurrentWindow windowDuration now
  if realCurrentWindow ≠ state.currentWindow then
    -- the swap leaves the counts of the current window as the last ones; they are
    -- cleared if the current window is not immediately after
    { currentWindow := realCurrentWindow
      lastBuckets :=
        if state.currentWindow + 1 ≠ realCurrentWindow then ∅ else state.currentBuckets
      currentBuckets := ∅ }
  else state

/-! ## The check -/

/-- Add `val` to the current count of a bucket. -/
def increment (state : WindowState) (bucket : String) (val : Nat) : WindowState :=
  { state with currentBuckets := state.currentBuckets.bump bucket val }

/-- The charge a check makes to each bucket it visits: none in failure mode. -/
def rateUsed (self : RateLimiter) (info : RequestInfo) (value json : Json) : Option Nat :=
  match self.incrementMode with
  | .before getRateUsed => some (getRateUsed info value json)
  | .after _ => none

/-- The count of a bucket as it is compared with the limit. -/
def weightedCount {F : Type} [F32 F] (currentCount lastCount : Nat) (ratioElapsed : F) : F :=
  F32.add (F32.mul (F32.ofU64 currentCount) ratioElapsed)
    (F32.mul (F32.ofU64 lastCount) (F32.sub (F32.ofU64 1) ratioElapsed))

/-- Whether a bucket with these counts is over the limit. The doubled limit is a `u64`. -/
def exceeds {F : Type} [F32 F] (countForIp : F) (currentCount rateLimit : Nat) : Bool :=
  F32.gt countForIp (F32.ofU64 rateLimit) || decide (2 * rateLimit % 2 ^ 64 ≤ currentCount)

/-- One turn of the loop over the buckets: the counts are read, the charge is made, and then
the bucket is let through or not. -/
def checkBucket (F : Type) [F32 F] (windowDuration rateLimit : Nat) (charge : Option Nat)
    (tick : String → Nat) (bucket : String) (state : WindowState) : Decision × WindowState :=
  let currentCount := state.currentBuckets.count bucket
  let lastCount := state.lastBuckets.count bucket
  match elapsedCurrentWindow (F := F) windowDuration state.currentWindow (tick bucket) with
  | none => (⟨none, []⟩, state)
  | some ratioElapsed =>
    let countForIp := weightedCount currentCount lastCount ratioElapsed
    let verdict := some (!exceeds countForIp currentCount rateLimit)
    match charge with
    | some val => (⟨verdict, [(bucket, val)]⟩, increment state bucket val)
    | none => (⟨verdict, []⟩, state)

/-- The loop over the buckets, which the first one that is not let through ends. -/
def checkBuckets (F : Type) [F32 F] (windowDuration rateLimit : Nat) (charge : Option Nat)
    (tick : String → Nat) : List String → WindowState → Decision × WindowState
  | [], state => (⟨some true, []⟩, state)
  | bucket :: rest, state =>
    let checked := checkBucket F windowDuration rateLimit charge tick bucket state
    if checked.1.verdict = some true then
      let others := checkBuckets F windowDuration rateLimit charge tick rest checked.2
      (⟨others.1.verdict, checked.1.charges ++ others.1.charges⟩, others.2)
    else checked

/-- The buckets of a request at a clock reading. -/
def bucketsOf (self : RateLimiter) (info : RequestInfo) (value : Json) (now : Nat) :
    Finset String :=
  match JsonDataCache.handleCacheOption self.cache now with
  | some json => self.getBuckets self.name info value json
  | none => ∅

/-- Whether a request is let through. -/
def shouldRequestPass (F : Type) [F32 F] (self : RateLimiter) (state : WindowState)
    (attempt : Attempt) : Decision × WindowState :=
  let state := updateCurrentWindow self.windowDuration attempt.now state
  match JsonDataCache.handleCacheOption self.cache attempt.now with
  | none => (⟨some false, []⟩, state)
  | some json =>
    if self.shouldBeLimited attempt.info attempt.value json then
      let buckets := self.getBuckets self.name attempt.info attempt.value json
      let rateLimit := self.getRatelimit attempt.info attempt.value json
      checkBuckets F self.windowDuration rateLimit
        (self.rateUsed attempt.info attempt.value json) attempt.tick
        (attempt.order.list buckets) state
    else (⟨some false, []⟩, state)

/-! ## The charge after the response -/

/-- What a call of `post_increment` brings: the request, its body, the response, the order
in which the set of its buckets is iterated, and the moment of the call. -/
structure Outcome where
  info : RequestInfo
  data : Json
  response : Json × StatusCode
  order : IterOrder String
  now : Nat

/-- The arguments of the calls of `increment` that `post_increment` makes. -/
def postCharges (self : RateLimiter) (outcome : Outcome) : List (String × Nat) :=
  match JsonDataCache.handleCacheOption self.cache outcome.now with
  | none => []
  | some json =>
    match self.incrementMode with
    | .before _ => []
    | .after getRateUsed =>
      let rateUsed := getRateUsed outcome.info outcome.data outcome.response json
      (outcome.order.list (self.getBuckets self.name outcome.info outcome.data json)).map
        fun bucket => (bucket, rateUsed)

/-- Make the calls of `increment` in order. -/
def incrementAll (charges : List (String × Nat)) (state : WindowState) : WindowState :=
  charges.foldl (fun state charge => increment state charge.1 charge.2) state

/-- Charge the buckets of a request by its response. The counts are taken as they stand:
this call does not look at the clock. -/
def postIncrement (self : RateLimiter) (state : WindowState) (outcome : Outcome) :
    WindowState :=
  incrementAll (self.postCharges outcome) state

/-! ## Facts about the parts -/

@[simp] theorem increment_currentWindow (state : WindowState) (bucket : String) (val : Nat) :
    (increment state bucket val).currentWindow = state.currentWindow := rfl

@[simp] theorem increment_lastBuckets (state : WindowState) (bucket : String) (val : Nat) :
    (increment state bucket val).lastBuckets = state.lastBuckets := rfl

@[simp] theorem increment_currentBuckets (state : WindowState) (bucket : String)
    (val : Nat) :
    (increment state bucket val).currentBuckets = state.currentBuckets.bump bucket val := rfl

@[simp] theorem incrementAll_nil (state : WindowState) : incrementAll [] state = state := rfl

@[simp] theorem incrementAll_cons (charge : String × Nat) (charges : List (String × Nat))
    (state : WindowState) : incrementAll (charge :: charges) state =
      incrementAll charges (increment state charge.1 charge.2) := rfl

theorem incrementAll_append (xs ys : List (String × Nat)) (state : WindowState) :
    incrementAll (xs ++ ys) state = incrementAll ys (incrementAll xs state) :=
  List.foldl_append

@[simp] theorem incrementAll_currentWindow (charges : List (String × Nat))
    (state : WindowState) :
    (incrementAll charges state).currentWindow = state.currentWindow := by
  induction charges generalizing state with
  | nil => rfl
  | cons charge charges ih => rw [incrementAll_cons, ih, increment_currentWindow]

@[simp] theorem incrementAll_lastBuckets (charges : List (String × Nat))
    (state : WindowState) : (incrementAll charges state).lastBuckets = state.lastBuckets := by
  induction charges generalizing state with
  | nil => rfl
  | cons charge charges ih => rw [incrementAll_cons, ih, increment_lastBuckets]

@[simp] theorem postIncrement_currentWindow (self : RateLimiter) (state : WindowState)
    (outcome : Outcome) :
    (postIncrement self state outcome).currentWindow = state.currentWindow :=
  incrementAll_currentWindow _ _

@[simp] theorem postIncrement_lastBuckets (self : RateLimiter) (state : WindowState)
    (outcome : Outcome) : (postIncrement self state outcome).lastBuckets = state.lastBuckets :=
  incrementAll_lastBuckets _ _

@[simp] theorem updateCurrentWindow_currentWindow (windowDuration now : Nat)
    (state : WindowState) : (updateCurrentWindow windowDuration now state).currentWindow =
      getCurrentWindow windowDuration now := by
  unfold updateCurrentWindow
  by_cases h : getCurrentWindow windowDuration now = state.currentWindow
  · simp [h]
  · simp [h]

/-- A rollover leaves the current counts empty. -/
theorem updateCurrentWindow_currentBuckets {windowDuration now : Nat} {state : WindowState}
    (h : getCurrentWindow windowDuration now ≠ state.currentWindow) :
    (updateCurrentWindow windowDuration now state).currentBuckets = ∅ := by
  simp [updateCurrentWindow, h]

/-- A later reading is in the same window or in a later one. -/
theorem getCurrentWindow_mono (windowDuration : Nat) {now now' : Nat} (h : now ≤ now') :
    getCurrentWindow windowDuration now ≤ getCurrentWindow windowDuration now' :=
  Nat.div_le_div_right (Nat.div_le_div_right h)

/-- All one turn does to the counts is the charge it reports. -/
theorem checkBucket_state (F : Type) [F32 F] (windowDuration rateLimit : Nat)
    (charge : Option Nat) (tick : String → Nat) (bucket : String) (state : WindowState) :
    (checkBucket F windowDuration rateLimit charge tick bucket state).2 =
      incrementAll (checkBucket F windowDuration rateLimit charge tick bucket state).1.charges
        state := by
  unfold checkBucket
  cases elapsedCurrentWindow (F := F) windowDuration state.currentWindow (tick bucket) with
  | none => rfl
  | some ratioElapsed =>
    cases charge with
    | none => rfl
    | some val => rfl

/-- All a check does to the counts is the charges it reports. -/
theorem checkBuckets_state (F : Type) [F32 F] (windowDuration rateLimit : Nat)
    (charge : Option Nat) (tick : String → Nat) (buckets : List String)
    (state : WindowState) :
    (checkBuckets F windowDuration rateLimit charge tick buckets state).2 =
      incrementAll (checkBuckets F windowDuration rateLimit charge tick buckets state).1.charges
        state := by
  induction buckets generalizing state with
  | nil => rfl
  | cons bucket rest ih =>
    have hone := checkBucket_state F windowDuration rateLimit charge tick bucket state
    simp only [checkBuckets]
    split
    · rw [ih, incrementAll_append, ← hone]
    · exact hone

/-- A loop over one bucket is its turn. -/
theorem checkBuckets_singleton (F : Type) [F32 F] (windowDuration rateLimit : Nat)
    (charge : Option Nat) (tick : String → Nat) (bucket : String) (state : WindowState) :
    (checkBuckets F windowDuration rateLimit charge tick [bucket] state).1 =
      (checkBucket F windowDuration rateLimit charge tick bucket state).1 := by
  simp only [checkBuckets, List.append_nil]
  split
  · next hpassed => rw [← hpassed]
  · rfl

/-- After the rollover a count is the one of the stored window, or zero in another one. -/
theorem count_updateCurrentWindow (windowDuration now : Nat) (state : WindowState)
    (bucket : String) :
    (updateCurrentWindow windowDuration now state).currentBuckets.count bucket =
      if getCurrentWindow windowDuration now = state.currentWindow then
        state.currentBuckets.count bucket
      else 0 := by
  by_cases h : getCurrentWindow windowDuration now = state.currentWindow
  · simp [updateCurrentWindow, h]
  · rw [updateCurrentWindow_currentBuckets h, if_neg h, Table.count_empty]

/-- A check rolls the window over and then makes the charges it reports. -/
theorem shouldRequestPass_state (F : Type) [F32 F] (self : RateLimiter) (state : WindowState)
    (attempt : Attempt) : (shouldRequestPass F self state attempt).2 =
      incrementAll (shouldRequestPass F self state attempt).1.charges
        (updateCurrentWindow self.windowDuration attempt.now state) := by
  unfold shouldRequestPass
  cases JsonDataCache.handleCacheOption self.cache attempt.now with
  | none => rfl
  | some json =>
    dsimp only
    split
    · exact checkBuckets_state ..
    · rfl

/-! ## What a check charges -/

theorem checkBucket_charges_mem {F : Type} [F32 F] {windowDuration rateLimit : Nat}
    {charge : Option Nat} {tick : String → Nat} {bucket : String} {state : WindowState}
    {charged : String × Nat}
    (h : charged ∈
      (checkBucket F windowDuration rateLimit charge tick bucket state).1.charges) :
    charged.1 = bucket := by
  unfold checkBucket at h
  cases helapsed : elapsedCurrentWindow (F := F) windowDuration state.currentWindow
      (tick bucket) with
  | none => simp [helapsed] at h
  | some ratioElapsed =>
    cases charge with
    | none => simp [helapsed] at h
    | some val =>
      simp only [helapsed, List.mem_singleton] at h
      rw [h]

theorem checkBuckets_charges_mem {F : Type} [F32 F] {windowDuration rateLimit : Nat}
    {charge : Option Nat} {tick : String → Nat} {buckets : List String} {state : WindowState}
    {charged : String × Nat}
    (h : charged ∈
      (checkBuckets F windowDuration rateLimit charge tick buckets state).1.charges) :
    charged.1 ∈ buckets := by
  induction buckets generalizing state with
  | nil => simp [checkBuckets] at h
  | cons bucket rest ih =>
    simp only [checkBuckets] at h
    split at h
    · rcases List.mem_append.mp h with hfirst | hrest
      · rw [checkBucket_charges_mem hfirst]
        exact List.mem_cons_self ..
      · exact List.mem_cons_of_mem _ (ih hrest)
    · rw [checkBucket_charges_mem h]
      exact List.mem_cons_self ..

/-- A check charges only buckets of its request. -/
theorem shouldRequestPass_charges_mem {F : Type} [F32 F] {self : RateLimiter}
    {state : WindowState} {attempt : Attempt} {charged : String × Nat}
    (h : charged ∈ (shouldRequestPass F self state attempt).1.charges) :
    charged.1 ∈ self.bucketsOf attempt.info attempt.value attempt.now := by
  unfold shouldRequestPass at h
  unfold bucketsOf
  cases hcache : JsonDataCache.handleCacheOption self.cache attempt.now with
  | none => simp [hcache] at h
  | some json =>
    simp only [hcache] at h ⊢
    split at h
    · rw [← attempt.order.mem_list]
      exact checkBuckets_charges_mem h
    · simp at h

/-! ## What a passed check tells -/

/-- The charge, if there is one, to each of some buckets. -/
def chargesOf (charge : Option Nat) (buckets : List String) : List (String × Nat) :=
  match charge with
  | some val => buckets.map fun bucket => (bucket, val)
  | none => []

/-- A bucket that is let through had room and got its charge. -/
theorem checkBucket_passed {F : Type} [F32 F] {windowDuration rateLimit : Nat}
    {charge : Option Nat} {tick : String → Nat} {bucket : String} {state : WindowState}
    (h : (checkBucket F windowDuration rateLimit charge tick bucket state).1.verdict =
      some true) :
    state.currentBuckets.count bucket < 2 * rateLimit % 2 ^ 64 ∧
    (checkBucket F windowDuration rateLimit charge tick bucket state).1.charges =
      chargesOf charge [bucket] := by
  unfold checkBucket at h ⊢
  cases helapsed : elapsedCurrentWindow (F := F) windowDuration state.currentWindow
      (tick bucket) with
  | none => simp [helapsed] at h
  | some ratioElapsed =>
    -- whatever the weighting says, the second comparison bounds the count itself
    have hroom : ∀ {countForIp : F} {currentCount : Nat},
        exceeds countForIp currentCount rateLimit = false →
          currentCount < 2 * rateLimit % 2 ^ 64 := by
      intro countForIp currentCount hexceeds
      simp only [exceeds, Bool.or_eq_false_iff, decide_eq_false_iff_not] at hexceeds
      exact Nat.lt_of_not_le hexceeds.2
    cases charge with
    | none =>
      simp only [helapsed, Option.some.injEq, Bool.not_eq_true'] at h ⊢
      exact ⟨hroom h, rfl⟩
    | some val =>
      simp only [helapsed, Option.some.injEq, Bool.not_eq_true'] at h ⊢
      exact ⟨hroom h, rfl⟩

/-- A charge never lowers a count. -/
theorem count_le_incrementAll (charges : List (String × Nat)) (state : WindowState)
    (bucket : String) : state.currentBuckets.count bucket ≤
      (incrementAll charges state).currentBuckets.count bucket := by
  induction charges generalizing state with
  | nil => exact Nat.le_refl _
  | cons charge charges ih =>
    refine Nat.le_trans ?_ (ih (increment state charge.1 charge.2))
    rw [increment_currentBuckets, Table.count_bump]
    exact Nat.le_add_right _ _

/-- Charges to other buckets leave a count alone. -/
theorem count_incrementAll_of_not_mem {charges : List (String × Nat)} {bucket : String}
    (hother : ∀ charge ∈ charges, charge.1 ≠ bucket) (state : WindowState) :
    (incrementAll charges state).currentBuckets.count bucket =
      state.currentBuckets.count bucket := by
  induction charges generalizing state with
  | nil => rfl
  | cons charge charges ih =>
    have hne := (hother charge (List.mem_cons_self ..)).symm
    rw [incrementAll_cons, ih fun later hlater => hother later (List.mem_cons_of_mem _ hlater),
      increment_currentBuckets, Table.count_bump_ne hne]

/-- Charging each of some distinct buckets raises those counts and no others. -/
theorem count_incrementAll_map {buckets : List String} (hnodup : buckets.Nodup) (val : Nat)
    (state : WindowState) (bucket : String) :
    (incrementAll (buckets.map fun b => (b, val)) state).currentBuckets.count bucket =
      state.currentBuckets.count bucket + if bucket ∈ buckets then val else 0 := by
  induction buckets generalizing state with
  | nil => simp
  | cons b rest ih =>
    obtain ⟨hfresh, hrest⟩ := List.nodup_cons.mp hnodup
    rw [List.map_cons, incrementAll_cons, ih hrest, increment_currentBuckets,
      Table.count_bump]
    by_cases hb : bucket = b
    · subst hb
      simp [hfresh]
    · simp [hb]

/-- When every bucket is let through, each had room before the first charge and got its
own. -/
theorem checkBuckets_passed {F : Type} [F32 F] {windowDuration rateLimit : Nat}
    {charge : Option Nat} {tick : String → Nat} {buckets : List String} {state : WindowState}
    (h : (checkBuckets F windowDuration rateLimit charge tick buckets state).1.verdict =
      some true) :
    (∀ bucket ∈ buckets, state.currentBuckets.count bucket < 2 * rateLimit % 2 ^ 64) ∧
    (checkBuckets F windowDuration rateLimit charge tick buckets state).1.charges =
      chargesOf charge buckets := by
  -- Induction on the buckets: all of them have their turn, and each is charged in it.
  induction buckets generalizing state with
  | nil => cases charge <;> exact ⟨by simp, rfl⟩
  | cons bucket rest ih =>
    have hstate := checkBucket_state F windowDuration rateLimit charge tick bucket state
    simp only [checkBuckets] at h ⊢
    by_cases hone : (checkBucket F windowDuration rateLimit charge tick bucket
        state).1.verdict = some true
    · rw [if_pos hone] at h ⊢
      obtain ⟨hroom, hcharge⟩ := checkBucket_passed hone
      obtain ⟨hrooms, hcharges⟩ := ih h
      refine ⟨fun other hother => ?_, ?_⟩
      · rcases List.mem_cons.mp hother with rfl | hother
        · exact hroom
        · -- the first turn has only raised counts
          have hle := count_le_incrementAll (checkBucket F windowDuration rateLimit charge
            tick bucket state).1.charges state other
          rw [← hstate] at hle
          exact Nat.lt_of_le_of_lt hle (hrooms other hother)
      · rw [hcharge, hcharges]
        cases charge <;> rfl
    -- a turn that says no is the last one
    · rw [if_neg hone] at h
      exact absurd h hone

/-- A request that passes had room in each of its buckets, as they stood after the
rollover, and charged them all. -/
theorem shouldRequestPass_passed {F : Type} [F32 F] {self : RateLimiter}
    {state : WindowState} {attempt : Attempt}
    (h : (shouldRequestPass F self state attempt).1.verdict = some true) :
    ∃ json, JsonDataCache.handleCacheOption self.cache attempt.now = some json ∧
      (∀ bucket ∈ self.bucketsOf attempt.info attempt.value attempt.now,
        (updateCurrentWindow self.windowDuration attempt.now state).currentBuckets.count
          bucket < 2 * self.getRatelimit attempt.info attempt.value json % 2 ^ 64) ∧
      (shouldRequestPass F self state attempt).1.charges =
        chargesOf (self.rateUsed attempt.info attempt.value json)
          (attempt.order.list (self.bucketsOf attempt.info attempt.value attempt.now)) := by
  -- Without a document there is no check, and with one it may not apply.
  unfold shouldRequestPass bucketsOf at *
  cases hcache : JsonDataCache.handleCacheOption self.cache attempt.now with
  | none => simp [hcache] at h
  | some json =>
    simp only [hcache] at h ⊢
    by_cases hlimited : self.shouldBeLimited attempt.info attempt.value json = true
    · rw [if_pos hlimited] at h ⊢
      obtain ⟨hrooms, hcharges⟩ := checkBuckets_passed h
      exact ⟨json, rfl, fun bucket hbucket => hrooms bucket (by simpa using hbucket), hcharges⟩
    · rw [if_neg hlimited] at h
      simp at h

/-- In failure mode one turn charges nothing. -/
theorem checkBucket_none_charges {F : Type} [F32 F] (windowDuration rateLimit : Nat)
    (tick : String → Nat) (bucket : String) (state : WindowState) :
    (checkBucket F windowDuration rateLimit none tick bucket state).1.charges = [] := by
  unfold checkBucket
  cases elapsedCurrentWindow (F := F) windowDuration state.currentWindow (tick bucket) <;> rfl

theorem checkBuckets_none_charges {F : Type} [F32 F] (windowDuration rateLimit : Nat)
    (tick : String → Nat) (buckets : List String) (state : WindowState) :
    (checkBuckets F windowDuration rateLimit none tick buckets state).1.charges = [] := by
  induction buckets generalizing state with
  | nil => rfl
  | cons bucket rest ih =>
    simp only [checkBuckets]
    split
    · simp only [checkBucket_none_charges, ih, List.append_nil]
    · exact checkBucket_none_charges ..

/-- A check in failure mode charges nothing. -/
theorem shouldRequestPass_charges_failure {F : Type} [F32 F] {self : RateLimiter}
    (hmode : self.incrementMode = .failure) (state : WindowState) (attempt : Attempt) :
    (shouldRequestPass F self state attempt).1.charges = [] := by
  unfold shouldRequestPass
  cases JsonDataCache.handleCacheOption self.cache attempt.now with
  | none => rfl
  | some json =>
    dsimp only
    split
    · simp only [rateUsed, hmode, IncrementMode.failure, checkBuckets_none_charges]
    · rfl

/-- A check in failure mode only rolls the window over. -/
theorem shouldRequestPass_state_failure {F : Type} [F32 F] {self : RateLimiter}
    (hmode : self.incrementMode = .failure) (state : WindowState) (attempt : Attempt) :
    (shouldRequestPass F self state attempt).2 =
      updateCurrentWindow self.windowDuration attempt.now state := by
  rw [shouldRequestPass_state, shouldRequestPass_charges_failure hmode, incrementAll_nil]

/-! ## A small limiter -/

/-- A limiter with a window of a minute whose requests all share one bucket. -/
def oneBucket (mode : IncrementMode) (limit : Nat) : RateLimiter where
  name := "base"
  shouldBeLimited := fun _ _ _ => true
  getBuckets := fun _ _ _ _ => {"a"}
  getRatelimit := fun _ _ _ => limit
  incrementMode := mode
  cache := none
  windowDuration := 60
  windowDuration_pos := by decide

/-- A check that reads the clock once. -/
def checkAt (now : Nat) : Attempt where
  info := ⟨.empty, ⟨"/v1/chain/get_info", none⟩, .v4 0⟩
  value := .null
  order := .sorted
  now := now
  tick := fun _ => now

/-- The end of such a request: the node answered 502. -/
def failureAt (now : Nat) : Outcome where
  info := ⟨.empty, ⟨"/v1/chain/get_info", none⟩, .v4 0⟩
  data := .null
  response := (.null, 502)
  order := .sorted
  now := now

theorem oneBucket_postCharges (limit now : Nat) :
    (oneBucket .failure limit).postCharges (failureAt now) = [("a", 1)] := by
  simp [postCharges, oneBucket, failureAt, IncrementMode.failure, StatusCode.isSuccess]

end RateLimiter

end AntelopeFirewall
