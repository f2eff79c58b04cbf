import AntelopeFirewall.RateLimiter.MultiBucket
import Mathlib.Tactic.GCongr
import Mathlib.Tactic.Ring

/-!
# The Interpolated Count

The count that a check compares with the limit weights the counts of two windows by the part
of the current one that has elapsed. The window is fixed by one clock reading and the part that
has elapsed is taken from a later one, after the document, the buckets and the charges were
waited for.

- `turns` are the comparisons that the loop over the buckets makes,
- `interpolates_iff` says when the count lies between the two it is made of,
- `turn_interpolates_iff` says it of every turn of a call.

The weighting is read as exact arithmetic.
-/

namespace AntelopeFirewall.RateLimiter

open Library

/-! ## The turns of a call -/

section Turns

variable (F : Type) [F32 F]

/-- The turns of the loop: every bucket it comes to, with the counts that it finds. -/
def turns (windowDuration rateLimit : Nat) (charge : Option Nat) (tick : String → Nat) :
    List String → WindowState → List (String × WindowState)
  | [], _ => []
  | bucket :: rest, state =>
    let checked := checkBucket F windowDuration rateLimit charge tick bucket state
    (bucket, state) ::
      -- the first bucket that is not let through is the last one
      if checked.1.verdict = some true then
        turns windowDuration rateLimit charge tick rest checked.2
      else []

/-- The turns of a call: those of its loop, if it comes to the loop. -/
def turnsOf (self : RateLimiter) (state : WindowState) (attempt : Attempt) :
    List (String × WindowState) :=
  match JsonDataCache.handleCacheOption self.cache attempt.now with
  | none => []
  | some json =>
    if self.shouldBeLimited attempt.info attempt.value json then
      turns F self.windowDuration (self.getRatelimit attempt.info attempt.value json)
        (self.rateUsed attempt.info attempt.value json) attempt.tick
        (attempt.order.list (self.getBuckets self.name attempt.info attempt.value json))
        (updateCurrentWindow self.windowDuration attempt.now state)
    else []

variable {F} {windowDuration rateLimit : Nat} {charge : Option Nat} {tick : String → Nat}
  {buckets : List String} {state : WindowState}

/-- The loop does what its turns do, and lets the request through if they all do. -/
theorem checkBuckets_eq_turns (buckets : List String) (state : WindowState) :
    let checked := checkBuckets F windowDuration rateLimit charge tick buckets state
    let turns := turns F windowDuration rateLimit charge tick buckets state
    let decide := fun turn : String × WindowState =>
      (checkBucket F windowDuration rateLimit charge tick turn.1 turn.2).1
    checked.1.charges = turns.flatMap (fun turn => (decide turn).charges) ∧
      (checked.1.verdict = some true ↔ ∀ turn ∈ turns, (decide turn).verdict = some true) := by
  induction buckets generalizing state with
  | nil => simp [checkBuckets, turns]
  | cons bucket rest ih =>
    obtain ⟨hcharges, hverdict⟩ :=
      ih (checkBucket F windowDuration rateLimit charge tick bucket state).2
    dsimp only at hcharges hverdict ⊢
    rw [checkBuckets, turns]
    dsimp only
    split
    · next hpassed =>
      -- the loop goes on with what the first turn has left
      refine ⟨?_, ?_⟩
      · rw [hcharges, List.flatMap_cons]
      · rw [List.forall_mem_cons, ← hverdict]
        exact (and_iff_right hpassed).symm
    · next hstopped =>
      refine ⟨?_, ?_⟩
      · rw [List.flatMap_singleton]
      · simp [hstopped]

/-- No turn moves the window. -/
theorem currentWindow_of_mem_turns {turn : String × WindowState}
    (h : turn ∈ turns F windowDuration rateLimit charge tick buckets state) :
    turn.2.currentWindow = state.currentWindow := by
  induction buckets generalizing state with
  | nil => cases h
  | cons bucket rest ih =>
    rw [turns] at h
    rcases List.mem_cons.mp h with rfl | hlater
    · rfl
    · split at hlater
      · rw [ih hlater, checkBucket_state, incrementAll_currentWindow]
      · cases hlater

/-- A call compares in the window of its first reading. -/
theorem currentWindow_of_mem_turnsOf {self : RateLimiter} {attempt : Attempt}
    {turn : String × WindowState} (h : turn ∈ turnsOf F self state attempt) :
    turn.2.currentWindow = getCurrentWindow self.windowDuration attempt.now := by
  unfold turnsOf at h
  split at h
  · cases h
  · split at h
    · rw [currentWindow_of_mem_turns h, updateCurrentWindow_currentWindow]
    · cases h

end Turns

/-! ## Between the two counts -/

/-- The end of the window that a clock reading falls into. -/
def windowEnd (windowDuration now : Nat) : Nat :=
  10 ^ 9 * ((getCurrentWindow windowDuration now + 1) * windowDuration)

/-- With the reading of its turn, the count of a bucket is between those of the two windows, and
the weight of the last one is not negative. -/
def Interpolates (windowDuration now : Nat) (bucket : String) (state : WindowState) : Prop :=
  let currentCount := state.currentBuckets.count bucket
  let lastCount := state.lastBuckets.count bucket
  ∃ ratioElapsed : ℚ,
    elapsedCurrentWindow windowDuration state.currentWindow now = some ratioElapsed ∧
      0 ≤ 1 - ratioElapsed ∧
      (min lastCount currentCount : ℚ) ≤ weightedCount currentCount lastCount ratioElapsed ∧
      weightedCount currentCount lastCount ratioElapsed ≤ (max lastCount currentCount : ℚ)

/-- A mean with weights that are not negative is between what it is made of. -/
theorem weightedCount_between (currentCount lastCount : Nat) {ratioElapsed : ℚ}
    (hnonneg : 0 ≤ ratioElapsed) (hle : 0 ≤ 1 - ratioElapsed) :
    (min lastCount currentCount : ℚ) ≤ weightedCount currentCount lastCount ratioElapsed ∧
      weightedCount currentCount lastCount ratioElapsed ≤ (max lastCount currentCount : ℚ) := by
  have hvalue : weightedCount currentCount lastCount ratioElapsed =
      currentCount * ratioElapsed + lastCount * (1 - ratioElapsed) := by
    simp [weightedCount]
  -- The two weights add up to one, so a constant is its own mean.
  have hwhole : ∀ c : ℚ, c * ratioElapsed + c * (1 - ratioElapsed) = c := by
    intro c
    ring
  rw [hvalue]
  constructor
  · calc (min lastCount currentCount : ℚ)
        = min (lastCount : ℚ) currentCount * ratioElapsed +
            min (lastCount : ℚ) currentCount * (1 - ratioElapsed) := (hwhole _).symm
      _ ≤ currentCount * ratioElapsed + lastCount * (1 - ratioElapsed) := by
          gcongr
          · exact min_le_right ..
          · exact min_le_left ..
  · calc (currentCount : ℚ) * ratioElapsed + lastCount * (1 - ratioElapsed)
        ≤ max (lastCount : ℚ) currentCount * ratioElapsed +
            max (lastCount : ℚ) currentCount * (1 - ratioElapsed) := by
          gcongr
          · exact le_max_right ..
          · exact le_max_left ..
      _ = max (lastCount : ℚ) currentCount := hwhole _

/-- The reading of a turn: what it leaves of the window is the weight of the last count. -/
theorem elapsedCurrentWindow_eq {windowDuration currentWindow later : Nat}
    (hpos : 0 < windowDuration) (hstart : 10 ^ 9 * (currentWindow * windowDuration) ≤ later) :
    ∃ ratioElapsed : ℚ,
      elapsedCurrentWindow windowDuration currentWindow later = some ratioElapsed ∧
        0 ≤ ratioElapsed ∧
        (0 ≤ 1 - ratioElapsed ↔ later ≤ 10 ^ 9 * ((currentWindow + 1) * windowDuration)) := by
  have hwindow : (0 : ℚ) < 10 ^ 9 * windowDuration := by positivity
  have hend : 10 ^ 9 * ((currentWindow + 1) * windowDuration) =
      10 ^ 9 * (currentWindow * windowDuration) + 10 ^ 9 * windowDuration := by ring
  refine ⟨_, elapsedCurrentWindow_rat hstart, by positivity, ?_⟩
  rw [sub_nonneg, div_div, div_le_one hwindow, hend]
  -- over the window's end the fraction is over one
  constructor
  · intro hle
    have hnat : later - 10 ^ 9 * (currentWindow * windowDuration) ≤ 10 ^ 9 * windowDuration := by
      exact_mod_cast hle
    omega
  · intro hle
    have hnat : later - 10 ^ 9 * (currentWindow * windowDuration) ≤ 10 ^ 9 * windowDuration := by
      omega
    exact_mod_cast hnat

/-- **When the count is interpolated**: the later reading is not behind the end of the window
of the first one. -/
theorem interpolates_iff {windowDuration now later : Nat} (hpos : 0 < windowDuration)
    (hlater : now ≤ later) {bucket : String} {state : WindowState}
    (hwindow : state.currentWindow = getCurrentWindow windowDuration now) :
    Interpolates windowDuration later bucket state ↔ later ≤ windowEnd windowDuration now := by
  -- the reading is in the window or behind it, so there is a fraction to read
  have hstart : 10 ^ 9 * (state.currentWindow * windowDuration) ≤ later := by
    rw [hwindow]
    exact (windowStart_le windowDuration now).trans hlater
  obtain ⟨ratioElapsed, hread, hnonneg, hweight⟩ := elapsedCurrentWindow_eq hpos hstart
  rw [hwindow] at hweight
  unfold windowEnd
  rw [← hweight]
  constructor
  · intro h
    obtain ⟨ratio, hratio, hle, -⟩ := h
    rw [hread, Option.some.injEq] at hratio
    rwa [hratio]
  · intro hle
    exact ⟨ratioElapsed, hread, hle, weightedCount_between _ _ hnonneg hle⟩

/-- **Every turn of a call**: when its reading is not before the first one, its count is
interpolated exactly if it is not behind the end of the window of that one. -/
theorem turn_interpolates_iff {self : RateLimiter} {state : WindowState} {attempt : Attempt}
    {bucket : String} {found : WindowState} (hturn : (bucket, found) ∈ turnsOf ℚ self state attempt)
    (hlater : attempt.now ≤ attempt.tick bucket) :
    Interpolates self.windowDuration (attempt.tick bucket) bucket found ↔
      attempt.tick bucket ≤ windowEnd self.windowDuration attempt.now :=
  interpolates_iff self.windowDuration_pos hlater (currentWindow_of_mem_turnsOf hturn)

/-! ## A call that takes longer than its window lasts -/

/-- A request of the second minute whose bucket is read two seconds later, in the third. -/
def lateAttempt : Attempt :=
  { checkAt (119 * 10 ^ 9) with tick := fun _ => 121 * 10 ^ 9 }

/-- The counts as its turn finds them: two in the last window, none in the current one. -/
def lateState : WindowState := updateCurrentWindow 60 (119 * 10 ^ 9) fullA

/-- The weight of the last count is below zero, and so is the count that is compared. -/
theorem late_reading_negative :
    ("a", lateState) ∈ turnsOf ℚ (oneBucket .attempt 1) fullA lateAttempt ∧
      lateAttempt.now ≤ lateAttempt.tick "a" ∧
      (lateState.lastBuckets.count "a" = 2 ∧ lateState.currentBuckets.count "a" = 0) ∧
      elapsedCurrentWindow 60 lateState.currentWindow (lateAttempt.tick "a") =
        some (61 / 60 : ℚ) ∧
      weightedCount 0 2 (61 / 60 : ℚ) = -1 / 30 ∧
      ¬ Interpolates 60 (lateAttempt.tick "a") "a" lateState := by
  have hread : elapsedCurrentWindow 60 lateState.currentWindow (lateAttempt.tick "a") =
      some (61 / 60 : ℚ) := by decide +kernel
  refine ⟨?_, by decide, by decide, hread, by norm_num [weightedCount], ?_⟩
  · show ("a", lateState) ∈ turns ℚ 60 1 (some 1) _ (IterOrder.sorted.list {"a"}) lateState
    rw [IterOrder.list_singleton, turns]
    exact List.mem_cons_self ..
  · intro h
    obtain ⟨ratio, hratio, hle, -⟩ := h
    rw [hread, Option.some.injEq] at hratio
    rw [← hratio] at hle
    norm_num at hle

/-- A request of the first minute whose bucket is read half a minute later, in the same one. -/
def promptAttempt : Attempt := { checkAt 0 with tick := fun _ => 30 * 10 ^ 9 }

theorem turn_interpolates_iff_prompt :
    ("a", fullA) ∈ turnsOf ℚ (oneBucket .attempt 1) fullA promptAttempt ∧
      promptAttempt.now < promptAttempt.tick "a" ∧
      (Interpolates 60 (promptAttempt.tick "a") "a" fullA ↔
        promptAttempt.tick "a" ≤ windowEnd 60 promptAttempt.now) := by
  have hturn : ("a", fullA) ∈ turnsOf ℚ (oneBucket .attempt 1) fullA promptAttempt := by
    show ("a", fullA) ∈ turns ℚ 60 1 (some 1) _ (IterOrder.sorted.list {"a"}) fullA
    rw [IterOrder.list_singleton, turns]
    exact List.mem_cons_self ..
  exact ⟨hturn, by decide, turn_interpolates_iff hturn (Nat.zero_le _)⟩

end AntelopeFirewall.RateLimiter
