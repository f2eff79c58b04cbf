import AntelopeFirewall.RateLimiter.Burst

/-!
# Checks of Several Buckets

A check goes through the buckets of a request in the order of a hash set, charges each one and
stops at the first that is over the limit.

- `checkBuckets_verdict_iff` says that the order has no part in the answer: a bucket is charged
  in its own turn only, so each is compared with the counts that the loop started with,
- `chargesAll_iff` says when it has none in the charges either.
-/

namespace AntelopeFirewall.RateLimiter

open Library

section Turns

variable {F : Type} [F32 F] {windowDuration rateLimit : Nat} {charge : Option Nat}
  {tick : String → Nat}

/-- A bucket is let through: the clock has reached the window, and neither the weighted count
nor the current one is too high. -/
def WithinLimit (F : Type) [F32 F] (windowDuration rateLimit : Nat) (tick : String → Nat)
    (state : WindowState) (bucket : String) : Prop :=
  ∃ ratioElapsed : F,
    elapsedCurrentWindow windowDuration state.currentWindow (tick bucket) = some ratioElapsed ∧
      exceeds (weightedCount (state.currentBuckets.count bucket)
        (state.lastBuckets.count bucket) ratioElapsed) (state.currentBuckets.count bucket)
        rateLimit = false

/-- The clock can be read once it has reached the window. -/
theorem elapsedCurrentWindow_isSome_iff {currentWindow now : Nat} :
    (∃ ratioElapsed : F, elapsedCurrentWindow windowDuration currentWindow now =
        some ratioElapsed) ↔
      10 ^ 9 * (currentWindow * windowDuration) ≤ now := by
  unfold elapsedCurrentWindow
  dsimp only
  split
  · next hstarted => exact iff_of_true ⟨_, rfl⟩ hstarted
  · next hearly =>
    refine iff_of_false ?_ hearly
    intro hread
    obtain ⟨_, hread⟩ := hread
    cases hread

theorem checkBucket_verdict_iff {state : WindowState} {bucket : String} :
    (checkBucket F windowDuration rateLimit charge tick bucket state).1.verdict = some true ↔
      WithinLimit F windowDuration rateLimit tick state bucket := by
  constructor
  · exact checkBucket_weighted
  · intro hwithin
    obtain ⟨ratioElapsed, helapsed, hexceeds⟩ := hwithin
    unfold checkBucket
    -- the verdict is the same with and without a charge
    cases charge with
    | none => simp [helapsed, hexceeds]
    | some val => simp [helapsed, hexceeds]

/-- **The answer** to a request: it is let through exactly when each of its buckets is, with
the counts that the loop started with. -/
theorem checkBuckets_verdict_iff {buckets : List String} {state : WindowState}
    (hnodup : buckets.Nodup) :
    (checkBuckets F windowDuration rateLimit charge tick buckets state).1.verdict = some true ↔
      ∀ bucket ∈ buckets, WithinLimit F windowDuration rateLimit tick state bucket := by
  constructor
  · exact checkBuckets_weighted hnodup
  · intro hwithin
    induction buckets generalizing state with
    | nil => rfl
    | cons first rest ih =>
      obtain ⟨hfresh, hrest⟩ := List.nodup_cons.mp hnodup
      have hone : (checkBucket F windowDuration rateLimit charge tick first
          state).1.verdict = some true :=
        checkBucket_verdict_iff.mpr (hwithin first (List.mem_cons_self ..))
      rw [checkBuckets, if_pos hone]
      apply ih hrest
      intro bucket hbucket
      -- the turn of the first bucket has not touched this one
      have hne : bucket ≠ first := fun hsame => hfresh (hsame ▸ hbucket)
      obtain ⟨hwindow, hlast, hcurrent⟩ :=
        checkBucket_other (F := F) windowDuration rateLimit charge tick hne state
      unfold WithinLimit
      rw [hwindow, hlast, hcurrent]
      exact hwithin bucket (List.mem_cons_of_mem _ hbucket)

/-- A turn that can read the clock makes its charge, whatever its answer. -/
theorem checkBucket_charges {state : WindowState} {bucket : String}
    (hclock : 10 ^ 9 * (state.currentWindow * windowDuration) ≤ tick bucket) :
    (checkBucket F windowDuration rateLimit charge tick bucket state).1.charges =
      chargesOf charge [bucket] := by
  obtain ⟨ratioElapsed, helapsed⟩ := elapsedCurrentWindow_isSome_iff (F := F).mpr hclock
  unfold checkBucket
  cases charge with
  | none => simp [helapsed, chargesOf]
  | some val => simp [helapsed, chargesOf]

/-- A turn that cannot makes none. -/
theorem checkBucket_charges_early {state : WindowState} {bucket : String}
    (hearly : ¬ 10 ^ 9 * (state.currentWindow * windowDuration) ≤ tick bucket) :
    (checkBucket F windowDuration rateLimit charge tick bucket state).1.charges = [] ∧
      ¬ WithinLimit F windowDuration rateLimit tick state bucket := by
  have hnone : elapsedCurrentWindow (F := F) windowDuration state.currentWindow (tick bucket) =
      none := if_neg hearly
  constructor
  · unfold checkBucket
    rw [hnone]
  · intro hwithin
    obtain ⟨ratioElapsed, helapsed, -⟩ := hwithin
    rw [hnone] at helapsed
    cases helapsed

/-- A bucket that is not let through ends the loop. -/
theorem checkBuckets_stops {first : String} {rest : List String} {state : WindowState}
    (hover : ¬ WithinLimit F windowDuration rateLimit tick state first) :
    checkBuckets F windowDuration rateLimit charge tick (first :: rest) state =
      checkBucket F windowDuration rateLimit charge tick first state := by
  rw [checkBuckets, if_neg (mt checkBucket_verdict_iff.mp hover)]

end Turns

/-! ## Which buckets an attempt is charged to -/

section Charges

variable (F : Type) [F32 F] (limiter : RateLimiter) (state : WindowState) (attempt : Attempt)

/-- What a check leaves when the set of buckets is iterated in some order. -/
def leftBy (order : IterOrder String) : WindowState :=
  (shouldRequestPass F limiter state { attempt with order := order }).2

/-- An attempt is charged to all of its buckets: in whatever order the set is iterated the check
leaves the same counters, and each bucket has risen by one. -/
structure ChargesAll : Prop where
  same : ∀ order order' bucket,
    (leftBy F limiter state attempt order).currentBuckets.count bucket =
        (leftBy F limiter state attempt order').currentBuckets.count bucket ∧
      (leftBy F limiter state attempt order).lastBuckets =
        (leftBy F limiter state attempt order').lastBuckets
  risen : ∀ order, ∀ bucket ∈ limiter.bucketsOf attempt.info attempt.value attempt.now,
    (leftBy F limiter state attempt order).currentBuckets.count bucket =
      (updateCurrentWindow limiter.windowDuration attempt.now state).currentBuckets.count bucket + 1

/-- Every bucket has its turn: the request is limited, no reading of the clock comes before the
window, and no bucket is over the limit unless it is the only one. -/
def EveryTurnComes : Prop :=
  let rolled := updateCurrentWindow limiter.windowDuration attempt.now state
  let buckets := limiter.bucketsOf attempt.info attempt.value attempt.now
  buckets = ∅ ∨ ∃ json, JsonDataCache.handleCacheOption limiter.cache attempt.now = some json ∧
    limiter.shouldBeLimited attempt.info attempt.value json = true ∧
    (∀ bucket ∈ buckets,
      10 ^ 9 * (rolled.currentWindow * limiter.windowDuration) ≤ attempt.tick bucket) ∧
    (buckets.card = 1 ∨ ∀ bucket ∈ buckets, WithinLimit F limiter.windowDuration
      (limiter.getRatelimit attempt.info attempt.value json) attempt.tick rolled bucket)

variable {F limiter state attempt}

/-- The check of a request that is limited is the loop over its buckets. -/
theorem shouldRequestPass_limited {json : Json}
    (hcache : JsonDataCache.handleCacheOption limiter.cache attempt.now = some json)
    (hlimited : limiter.shouldBeLimited attempt.info attempt.value json = true) :
    shouldRequestPass F limiter state attempt =
      checkBuckets F limiter.windowDuration (limiter.getRatelimit attempt.info attempt.value json)
        (limiter.rateUsed attempt.info attempt.value json) attempt.tick
        (attempt.order.list (limiter.bucketsOf attempt.info attempt.value attempt.now))
        (updateCurrentWindow limiter.windowDuration attempt.now state) := by
  unfold shouldRequestPass bucketsOf
  simp only [hcache, hlimited, if_true]

/-- A request that is not limited is answered without a look at its buckets. -/
theorem shouldRequestPass_exempt {json : Json}
    (hcache : JsonDataCache.handleCacheOption limiter.cache attempt.now = some json)
    (hexempt : ¬ limiter.shouldBeLimited attempt.info attempt.value json = true) :
    shouldRequestPass F limiter state attempt =
      (⟨some false, []⟩, updateCurrentWindow limiter.windowDuration attempt.now state) := by
  unfold shouldRequestPass
  rw [hcache]
  exact if_neg hexempt

/-- A check leaves the counts of the last window as the rollover made them. -/
theorem leftBy_lastBuckets (order : IterOrder String) :
    (leftBy F limiter state attempt order).lastBuckets =
      (updateCurrentWindow limiter.windowDuration attempt.now state).lastBuckets := by
  unfold leftBy
  rw [shouldRequestPass_state, incrementAll_lastBuckets]

/-- With a turn for every bucket, an attempt-mode check charges them all. -/
theorem charges_of_everyTurnComes (hmode : limiter.incrementMode = .attempt)
    (h : EveryTurnComes F limiter state attempt) :
    (shouldRequestPass F limiter state attempt).1.charges =
      (attempt.order.list (limiter.bucketsOf attempt.info attempt.value attempt.now)).map
        fun bucket => (bucket, 1) := by
  -- By the reason why every turn comes: no bucket, one bucket, or no bucket over the limit.
  rcases h with hnone | ⟨json, hcache, hlimited, hclock, hone | hwithin⟩
  · -- there is nothing to charge
    rw [hnone, IterOrder.list_empty]
    apply List.eq_nil_iff_forall_not_mem.mpr
    intro charged hcharged
    have hmem := shouldRequestPass_charges_mem hcharged
    rw [hnone] at hmem
    exact absurd hmem (Finset.notMem_empty _)
  · -- the only bucket is charged before it is tested
    obtain ⟨bucket, hbucket⟩ := Finset.card_eq_one.mp hone
    have hreached := hclock bucket (by rw [hbucket]; exact Finset.mem_singleton_self bucket)
    rw [shouldRequestPass_limited hcache hlimited, hbucket, IterOrder.list_singleton,
      checkBuckets_singleton, checkBucket_charges hreached, rateUsed, hmode]
    rfl
  · -- no bucket ends the loop
    rw [shouldRequestPass_limited hcache hlimited, (checkBuckets_passed ?_).2, rateUsed, hmode]
    · rfl
    · apply (checkBuckets_verdict_iff (attempt.order.nodup _)).mpr
      intro bucket hbucket
      exact hwithin bucket ((attempt.order.mem_list _ _).mp hbucket)

theorem count_leftBy (hmode : limiter.incrementMode = .attempt)
    (h : EveryTurnComes F limiter state attempt) (order : IterOrder String) (bucket : String) :
    (leftBy F limiter state attempt order).currentBuckets.count bucket =
      (updateCurrentWindow limiter.windowDuration attempt.now state).currentBuckets.count bucket +
        if bucket ∈ limiter.bucketsOf attempt.info attempt.value attempt.now then 1 else 0 := by
  -- the condition does not mention the order
  have hreordered : EveryTurnComes F limiter state { attempt with order := order } := h
  unfold leftBy
  rw [shouldRequestPass_state, charges_of_everyTurnComes hmode hreordered,
    count_incrementAll_map (order.nodup _) 1]
  simp only [order.mem_list]

/-- The loop that starts with a bucket over the limit makes no charge but to it. -/
theorem leftBy_startingWith {json : Json}
    (hcache : JsonDataCache.handleCacheOption limiter.cache attempt.now = some json)
    (hlimited : limiter.shouldBeLimited attempt.info attempt.value json = true) {first : String}
    (hfirst : first ∈ limiter.bucketsOf attempt.info attempt.value attempt.now)
    (hover : ¬ WithinLimit F limiter.windowDuration
      (limiter.getRatelimit attempt.info attempt.value json) attempt.tick
      (updateCurrentWindow limiter.windowDuration attempt.now state) first) :
    leftBy F limiter state attempt (attempt.order.startingWith first) =
      (checkBucket F limiter.windowDuration (limiter.getRatelimit attempt.info attempt.value json)
        (limiter.rateUsed attempt.info attempt.value json) attempt.tick first
        (updateCurrentWindow limiter.windowDuration attempt.now state)).2 := by
  let reordered : Attempt := { attempt with order := attempt.order.startingWith first }
  show (shouldRequestPass F limiter state reordered).2 = _
  have hcache' : JsonDataCache.handleCacheOption limiter.cache reordered.now = some json := hcache
  rw [shouldRequestPass_limited hcache' hlimited, attempt.order.list_startingWith hfirst,
    checkBuckets_stops hover]

/-- Where all are charged, the request is not exempt. -/
theorem ChargesAll.limited (h : ChargesAll F limiter state attempt) {json : Json}
    (hcache : JsonDataCache.handleCacheOption limiter.cache attempt.now = some json)
    {bucket : String}
    (hbucket : bucket ∈ limiter.bucketsOf attempt.info attempt.value attempt.now) :
    limiter.shouldBeLimited attempt.info attempt.value json = true := by
  by_contra hlimited
  have hrisen := h.risen attempt.order bucket hbucket
  unfold leftBy at hrisen
  rw [shouldRequestPass_exempt hcache hlimited] at hrisen
  exact absurd hrisen (Nat.lt_succ_self _).ne

/-- Where all are charged, no reading of the clock comes before the window: a bucket that
cannot be checked is not charged in an order that it comes first in. -/
theorem ChargesAll.clock (h : ChargesAll F limiter state attempt) {json : Json}
    (hcache : JsonDataCache.handleCacheOption limiter.cache attempt.now = some json)
    (hlimited : limiter.shouldBeLimited attempt.info attempt.value json = true) {first : String}
    (hfirst : first ∈ limiter.bucketsOf attempt.info attempt.value attempt.now) :
    10 ^ 9 * ((updateCurrentWindow limiter.windowDuration attempt.now state).currentWindow *
      limiter.windowDuration) ≤ attempt.tick first := by
  by_contra hearly
  obtain ⟨hnothing, hover⟩ := checkBucket_charges_early (F := F) hearly
  have hrisen := h.risen (attempt.order.startingWith first) first hfirst
  rw [leftBy_startingWith hcache hlimited hfirst hover, checkBucket_state, hnothing,
    incrementAll_nil] at hrisen
  omega

/-- Where all are charged, a bucket over the limit has none beside it: the loop that starts with
it ends there, and the other one is not charged. -/
theorem ChargesAll.within (h : ChargesAll F limiter state attempt) {json : Json}
    (hcache : JsonDataCache.handleCacheOption limiter.cache attempt.now = some json)
    (hlimited : limiter.shouldBeLimited attempt.info attempt.value json = true) {first : String}
    (hfirst : first ∈ limiter.bucketsOf attempt.info attempt.value attempt.now)
    (hmany : 1 < (limiter.bucketsOf attempt.info attempt.value attempt.now).card) :
    WithinLimit F limiter.windowDuration (limiter.getRatelimit attempt.info attempt.value json)
      attempt.tick (updateCurrentWindow limiter.windowDuration attempt.now state) first := by
  by_contra hover
  obtain ⟨other, hother, hne⟩ := Finset.exists_mem_ne hmany first
  have hrisen := h.risen (attempt.order.startingWith first) other hother
  rw [leftBy_startingWith hcache hlimited hfirst hover,
    (checkBucket_other _ _ _ _ hne _).2.2] at hrisen
  omega

/-- **Charging every attempt**: an attempt-mode check charges an attempt to all of its buckets,
whatever the order and whatever the answer, exactly when every bucket has its turn. This is about
the source for counts below `2 ^ 64 - 1`, to which it adds one without a wrap. -/
theorem chargesAll_iff (F : Type) [F32 F] {limiter : RateLimiter}
    (hmode : limiter.incrementMode = .attempt) (state : WindowState) (attempt : Attempt) :
    ChargesAll F limiter state attempt ↔ EveryTurnComes F limiter state attempt := by
  constructor
  · intro h
    by_cases hne : limiter.bucketsOf attempt.info attempt.value attempt.now = ∅
    · exact .inl hne
    right
    obtain ⟨bucket, hbucket⟩ := Finset.nonempty_iff_ne_empty.mpr hne
    cases hcache : JsonDataCache.handleCacheOption limiter.cache attempt.now with
    | none =>
      -- a request without a document has no buckets
      simp [bucketsOf, hcache] at hbucket
    | some json =>
      have hlimited := h.limited hcache hbucket
      refine ⟨json, rfl, hlimited, fun first hfirst => h.clock hcache hlimited hfirst, ?_⟩
      by_cases hone : (limiter.bucketsOf attempt.info attempt.value attempt.now).card = 1
      · exact .inl hone
      · right
        intro first hfirst
        have hsome : 0 < (limiter.bucketsOf attempt.info attempt.value attempt.now).card :=
          Finset.card_pos.mpr ⟨bucket, hbucket⟩
        exact h.within hcache hlimited hfirst (by omega)
  · intro h
    refine ⟨?_, ?_⟩
    · intro order order' bucket
      rw [count_leftBy hmode h, count_leftBy hmode h, leftBy_lastBuckets, leftBy_lastBuckets]
      exact ⟨rfl, rfl⟩
    · intro order bucket hbucket
      rw [count_leftBy hmode h, if_pos hbucket]

end Charges

/-! ## One reading of the clock, in exact arithmetic -/

section Exact

variable {self : RateLimiter} {limit : Nat} {state : WindowState} {attempt : Attempt}

/-- The part of its window that a clock reading has passed. -/
def elapsedFraction (windowDuration now : Nat) : ℚ :=
  F32.div (F32.asSecs (now - 10 ^ 9 * (getCurrentWindow windowDuration now * windowDuration)))
    (F32.ofU64 windowDuration)

/-- With a limit whose double fits the word, being within it is what it says. -/
theorem withinLimit_iff (hlimit : limit < 2 ^ 63) {windowDuration now : Nat}
    {tick : String → Nat} {bucket : String} (htick : tick bucket = now)
    (hwindow : state.currentWindow = getCurrentWindow windowDuration now) :
    WithinLimit ℚ windowDuration limit tick state bucket ↔
      weightedCount (state.currentBuckets.count bucket) (state.lastBuckets.count bucket)
          (elapsedFraction windowDuration now) ≤ limit ∧
        state.currentBuckets.count bucket < 2 * limit := by
  have helapsed : elapsedCurrentWindow windowDuration state.currentWindow (tick bucket) =
      some (elapsedFraction windowDuration now) := by
    rw [hwindow, htick]
    exact if_pos (windowStart_le windowDuration now)
  have hdoubled : 2 * limit % 2 ^ 64 = 2 * limit := Nat.mod_eq_of_lt (by omega)
  unfold WithinLimit
  rw [helapsed]
  simp only [Option.some.injEq, exists_eq_left', exceeds, Bool.or_eq_false_iff, F32.gt_rat,
    F32.ofU64_rat, decide_eq_false_iff_not, not_lt, hdoubled, not_le]

/-- A check whose readings do not come before the window is answered. -/
theorem checkBuckets_answers {F : Type} [F32 F] {windowDuration rateLimit : Nat}
    {charge : Option Nat} {tick : String → Nat} {buckets : List String} {state : WindowState}
    (hclock : ∀ bucket ∈ buckets,
      10 ^ 9 * (state.currentWindow * windowDuration) ≤ tick bucket) :
    (checkBuckets F windowDuration rateLimit charge tick buckets state).1.verdict ≠ none := by
  induction buckets generalizing state with
  | nil => simp [checkBuckets]
  | cons first rest ih =>
    -- Induction on the buckets: a turn rolls nothing over, so the clocks stay readable.
    have hone := checkBucket_state F windowDuration rateLimit charge tick first state
    rw [checkBuckets]
    split
    · apply ih
      intro bucket hbucket
      rw [hone, incrementAll_currentWindow]
      exact hclock bucket (List.mem_cons_of_mem _ hbucket)
    · -- the turn was able to read the clock
      obtain ⟨ratioElapsed, helapsed⟩ := elapsedCurrentWindow_isSome_iff (F := F).mpr
        (hclock first (List.mem_cons_self ..))
      unfold checkBucket
      cases charge with
      | none => simp [helapsed]
      | some val => simp [helapsed]

/-- **A check of several buckets** by an attempt-mode limiter: it passes exactly when every
bucket is within the limit as they stand after the rollover. Then each of them is charged one,
and a check that does not pass charges none but them. -/
theorem check_decides (hself : LimitsAttempts self limit) (hlimit : limit < 2 ^ 63) {json : Json}
    (hcache : JsonDataCache.handleCacheOption self.cache attempt.now = some json)
    (hlimited : self.shouldBeLimited attempt.info attempt.value json = true)
    (htick : ∀ bucket, attempt.tick bucket = attempt.now) {buckets : Finset String}
    (hbuckets : self.bucketsOf attempt.info attempt.value attempt.now = buckets) :
    let rolled := updateCurrentWindow self.windowDuration attempt.now state
    let checked := shouldRequestPass ℚ self state attempt
    (checked.1.verdict = some true ↔ ∀ bucket ∈ buckets,
      weightedCount (rolled.currentBuckets.count bucket) (rolled.lastBuckets.count bucket)
          (elapsedFraction self.windowDuration attempt.now) ≤ limit ∧
        rolled.currentBuckets.count bucket < 2 * limit) ∧
    (checked.1.verdict = some true → ∀ bucket, checked.2.currentBuckets.count bucket =
      rolled.currentBuckets.count bucket + if bucket ∈ buckets then 1 else 0) ∧
    (checked.1.verdict ≠ some true → checked.1.verdict = some false ∧ ∀ bucket ∉ buckets,
      checked.2.currentBuckets.count bucket = rolled.currentBuckets.count bucket) ∧
    checked.2.lastBuckets = rolled.lastBuckets := by
  intro rolled checked
  -- After the rollover the window is the one of the reading, and the loop goes over `buckets`.
  have hwindow : rolled.currentWindow = getCurrentWindow self.windowDuration attempt.now :=
    updateCurrentWindow_currentWindow ..
  have hchecked : checked = checkBuckets ℚ self.windowDuration limit (some 1) attempt.tick
      (attempt.order.list buckets) rolled := by
    show shouldRequestPass ℚ self state attempt = _
    rw [shouldRequestPass_limited hcache hlimited, hbuckets, hself.rate, rateUsed, hself.mode]
    rfl
  have hstate : checked.2 = incrementAll checked.1.charges rolled :=
    shouldRequestPass_state ℚ self state attempt
  refine ⟨?_, ?_, ?_, ?_⟩
  -- the verdict: each bucket is tested at the counts the check found
  · rw [hchecked, checkBuckets_verdict_iff (attempt.order.nodup _)]
    simp only [attempt.order.mem_list, withinLimit_iff hlimit (htick _) hwindow]
  -- a check that passes has charged every bucket once
  · intro hpassed bucket
    rw [hchecked] at hpassed
    have hcharges := (checkBuckets_passed hpassed).2
    rw [← hchecked] at hcharges
    rw [hstate, hcharges, chargesOf, count_incrementAll_map (attempt.order.nodup _)]
    simp only [attempt.order.mem_list]
  · intro hdenied
    constructor
    · -- no reading comes before the window, so there is an answer
      have hanswered : checked.1.verdict ≠ none := by
        rw [hchecked]
        apply checkBuckets_answers
        intro bucket _
        rw [hwindow, htick]
        exact windowStart_le ..
      cases hverdict : checked.1.verdict with
      | none => exact absurd hverdict hanswered
      | some verdict =>
        rw [hverdict, ne_eq, Option.some.injEq, Bool.not_eq_true] at hdenied
        rw [hdenied]
    · intro bucket hbucket
      rw [hstate]
      apply count_incrementAll_of_not_mem
      intro charged hcharged
      rw [← hbuckets] at hbucket
      intro hsame
      -- only buckets of the request are charged
      have hmem := shouldRequestPass_charges_mem hcharged
      rw [hsame] at hmem
      exact hbucket hmem
  · rw [hstate, incrementAll_lastBuckets]

end Exact

/-! ## Two buckets, one of them full -/

/-- A limiter with a limit of one whose requests all have two buckets. -/
def twoBuckets : RateLimiter :=
  { oneBucket .attempt 1 with getBuckets := fun _ _ _ _ => {"a", "b"} }

/-- The first bucket was charged twice. -/
def fullA : WindowState := increment (newState 60 0) "a" 2

/-- The bucket that is not full is charged in one order and not in the other. -/
theorem order_decides_charges :
    (leftBy ℚ twoBuckets fullA (checkAt 0)
        (IterOrder.sorted.startingWith "a")).currentBuckets.count "b" = 0 ∧
      (leftBy ℚ twoBuckets fullA (checkAt 0)
        (IterOrder.sorted.startingWith "b")).currentBuckets.count "b" = 1 ∧
      ¬ ChargesAll ℚ twoBuckets fullA (checkAt 0) := by
  have hfirst : (IterOrder.sorted.startingWith "a").list {"a", "b"} = ["a", "b"] :=
    IterOrder.list_startingWith_pair _ (by simp)
  have hsecond : (IterOrder.sorted.startingWith "b").list {"a", "b"} = ["b", "a"] := by
    rw [Finset.pair_comm]
    exact IterOrder.list_startingWith_pair _ (by simp)
  have hnone : (leftBy ℚ twoBuckets fullA (checkAt 0)
      (IterOrder.sorted.startingWith "a")).currentBuckets.count "b" = 0 := by
    show (checkBuckets ℚ 60 1 (some 1) _ ((IterOrder.sorted.startingWith "a").list {"a", "b"})
      fullA).2.currentBuckets.count "b" = 0
    rw [hfirst]
    decide +kernel
  -- the full bucket ends the loop only after the other one had its turn
  refine ⟨hnone, ?_, ?_⟩
  · show (checkBuckets ℚ 60 1 (some 1) _ ((IterOrder.sorted.startingWith "b").list {"a", "b"})
      fullA).2.currentBuckets.count "b" = 1
    rw [hsecond]
    decide +kernel
  · intro h
    have hrisen := h.risen (IterOrder.sorted.startingWith "a") "b" (by decide +kernel)
    rw [hnone] at hrisen
    omega

/-- The law at the same check. -/
theorem chargesAll_iff_fullA :
    ChargesAll ℚ twoBuckets fullA (checkAt 0) ↔ EveryTurnComes ℚ twoBuckets fullA (checkAt 0) :=
  chargesAll_iff ℚ rfl fullA (checkAt 0)

end AntelopeFirewall.RateLimiter
