import AntelopeFirewall.Firewall.Ceilings
import AntelopeFirewall.RateLimiter.Isolation

/-!
# Groups of Buckets

A request can have several buckets at a limiter, and whether one of them is charged depends on the
others. Buckets that never come together with others are a group of their own: what is asked for
them says all about the answers, in any interleaving and for any limiter that counts attempts.

- `Apart` says that no check mixes buckets of a group with others,
- `shouldRequestPass_inside` and `shouldRequestPass_outside` are the two kinds of steps,
- `filter_checks` is the run, `groups_isolated` compares two interleavings.
-/

namespace AntelopeFirewall

open Library Library.Machine Library.Concurrent

namespace RateLimiter

/-! ## Checks inside and outside a group -/

/-- The buckets of an attempt. -/
def attemptBuckets (limiter : RateLimiter) (attempt : Attempt) : Finset String :=
  limiter.bucketsOf attempt.info attempt.value attempt.now

/-- An attempt has a bucket of a group. -/
def touches (limiter : RateLimiter) (group : String → Bool) (attempt : Attempt) : Bool :=
  ∃ bucket ∈ limiter.attemptBuckets attempt, group bucket = true

/-- An attempt with a bucket of a group has no other buckets. -/
def Apart (limiter : RateLimiter) (group : String → Bool) (attempt : Attempt) : Prop :=
  limiter.touches group attempt = true →
    ∀ bucket ∈ limiter.attemptBuckets attempt, group bucket = true

instance (limiter : RateLimiter) (group : String → Bool) (attempt : Attempt) :
    Decidable (limiter.Apart group attempt) :=
  inferInstanceAs (Decidable (_ = true → _))

/-- From a window on, the counts of two states say the same about a group. -/
def AlikeOn (group : String → Bool) (window : Nat) (state other : WindowState) : Prop :=
  ∀ bucket, group bucket = true → TwoWindow.Alike bucket window (view state) (view other)

variable {F : Type} [F32 F] {limiter : RateLimiter} {group : String → Bool} {window : Nat}
  {state other : WindowState} {attempt : Attempt}

theorem AlikeOn.rolled (h : AlikeOn group (getCurrentWindow limiter.windowDuration attempt.now)
    state other) :
    AlikeOn group (getCurrentWindow limiter.windowDuration attempt.now)
      (updateCurrentWindow limiter.windowDuration attempt.now state) other := by
  intro bucket hbucket
  rw [view_updateCurrentWindow]
  exact (h bucket hbucket).advance_left

theorem AlikeOn.symm (h : AlikeOn group window state other) : AlikeOn group window other state :=
  fun bucket hbucket => (h bucket hbucket).symm

/-- In its own window, what is alike is what is counted. -/
theorem counts_of_alike {bucket : String} (h : TwoWindow.Alike bucket window (view state)
    (view other)) (hstate : state.currentWindow = window) (hother : other.currentWindow = window) :
    state.currentBuckets.count bucket = other.currentBuckets.count bucket ∧
      state.lastBuckets.count bucket = other.lastBuckets.count bucket := by
  have hcurrent := h.current
  have hlast := h.last
  have hstay : (view state).advance window = view state := if_pos hstate.symm
  have hstay' : (view other).advance window = view other := if_pos hother.symm
  rw [hstay, hstay'] at hcurrent hlast
  exact ⟨hcurrent, hlast⟩

/-- Buckets that are alike are decided and charged alike. -/
theorem checkBuckets_alike (windowDuration rateLimit : Nat) (charge : Option Nat)
    (tick : String → Nat) {buckets : List String}
    (h : ∀ bucket ∈ buckets, TwoWindow.Alike bucket window (view state) (view other))
    (hstate : state.currentWindow = window) (hother : other.currentWindow = window) :
    (checkBuckets F windowDuration rateLimit charge tick buckets state).1 =
      (checkBuckets F windowDuration rateLimit charge tick buckets other).1 := by
  induction buckets generalizing state other with
  | nil => rfl
  | cons bucket rest ih =>
    obtain ⟨hcurrent, hlast⟩ :=
      counts_of_alike (h bucket (List.mem_cons_self ..)) hstate hother
    have hone := checkBucket_congr (F := F) windowDuration rateLimit charge tick
      (hstate.trans hother.symm) hcurrent hlast
    -- the same charges keep the rest alike
    have hrest : ∀ charges,
        (checkBuckets F windowDuration rateLimit charge tick rest
            (incrementAll charges state)).1 =
          (checkBuckets F windowDuration rateLimit charge tick rest
            (incrementAll charges other)).1 := by
      intro charges
      exact ih
        (fun later hlater => alike_incrementAll (h later (List.mem_cons_of_mem _ hlater)) hstate
          hother charges)
        ((incrementAll_currentWindow ..).trans hstate)
        ((incrementAll_currentWindow ..).trans hother)
    simp only [checkBuckets]
    rw [checkBucket_state, checkBucket_state, hone]
    split
    · rw [hrest]
    · exact hone

/-- **Step inside**: an attempt with buckets of the group alone is answered alike and keeps the
group alike. -/
theorem shouldRequestPass_inside
    (hinside : ∀ bucket ∈ limiter.attemptBuckets attempt, group bucket = true)
    (h : AlikeOn group (getCurrentWindow limiter.windowDuration attempt.now) state other) :
    (shouldRequestPass F limiter state attempt).1 =
        (shouldRequestPass F limiter other attempt).1 ∧
      AlikeOn group (getCurrentWindow limiter.windowDuration attempt.now)
        (shouldRequestPass F limiter state attempt).2
        (shouldRequestPass F limiter other attempt).2 := by
  have hrolled := h.rolled.symm.rolled.symm
  -- The decision reads the counts of the group only, which agree once both have rolled over.
  have hdecision : (shouldRequestPass F limiter state attempt).1 =
      (shouldRequestPass F limiter other attempt).1 := by
    unfold attemptBuckets bucketsOf at hinside
    unfold shouldRequestPass
    cases hcache : JsonDataCache.handleCacheOption limiter.cache attempt.now with
    | none => rfl
    | some json =>
      rw [hcache] at hinside
      dsimp only at hinside ⊢
      split
      · refine checkBuckets_alike _ _ _ _ (fun bucket hbucket => ?_)
          (updateCurrentWindow_currentWindow ..) (updateCurrentWindow_currentWindow ..)
        exact hrolled bucket (hinside bucket (attempt.order.mem_list_iff.mp hbucket))
      · rfl
  refine ⟨hdecision, fun bucket hbucket => ?_⟩
  rw [shouldRequestPass_state, shouldRequestPass_state, hdecision]
  exact alike_incrementAll (hrolled bucket hbucket) (updateCurrentWindow_currentWindow ..)
    (updateCurrentWindow_currentWindow ..) _

/-- **Step outside**: an attempt without a bucket of the group goes unnoticed. -/
theorem shouldRequestPass_outside (houtside : limiter.touches group attempt = false)
    (h : AlikeOn group (getCurrentWindow limiter.windowDuration attempt.now) state other) :
    AlikeOn group (getCurrentWindow limiter.windowDuration attempt.now)
      (shouldRequestPass F limiter state attempt).2 other := by
  intro bucket hbucket
  rw [shouldRequestPass_state]
  refine alike_incrementAll_other (h.rolled bucket hbucket) fun charge hcharge hsame => ?_
  refine of_decide_eq_false houtside ⟨charge.1, shouldRequestPass_charges_mem hcharge, ?_⟩
  rw [hsame]
  exact hbucket

/-! ## Runs -/

/-- **Run**: from counts that are alike on a group, what a run answers to attempts of the group is
what the run of these attempts alone answers. -/
theorem filter_checks {start : Nat}
    (h : AlikeOn group (getCurrentWindow limiter.windowDuration start) state other)
    {attempts : List Attempt} (hapart : ∀ attempt ∈ attempts, limiter.Apart group attempt)
    (hclock : ClockNeverGoesBack start (attempts.map Attempt.now)) :
    (trace (shouldRequestPass F limiter) state attempts).filter
        (fun answered => limiter.touches group answered.1) =
      trace (shouldRequestPass F limiter) other (attempts.filter (limiter.touches group)) := by
  -- Induction on the checks: one outside the group leaves its counts, one inside is answered alike.
  induction attempts generalizing state other start with
  | nil => rfl
  | cons attempt rest ih =>
    obtain ⟨hstart, hlater⟩ := List.pairwise_cons.mp hclock
    have hnow : AlikeOn group (getCurrentWindow limiter.windowDuration attempt.now) state other :=
      fun bucket hbucket => (h bucket hbucket).later
        (getCurrentWindow_mono _ (hstart _ (List.mem_cons_self ..)))
    have hrest := fun later hin => hapart later (List.mem_cons_of_mem _ hin)
    rw [trace]
    cases htouches : limiter.touches group attempt with
    | false =>
      rw [List.filter_cons_of_neg (by simp [htouches]),
        List.filter_cons_of_neg (by simp [htouches])]
      exact ih (shouldRequestPass_outside htouches hnow) hrest hlater
    | true =>
      obtain ⟨hanswer, hthen⟩ := shouldRequestPass_inside (F := F)
        (hapart attempt (List.mem_cons_self ..) htouches) hnow
      rw [List.filter_cons_of_pos (a := (attempt, _)) htouches, List.filter_cons_of_pos htouches,
        trace, ih hthen hrest hlater, hanswer]

end RateLimiter

namespace Firewall

section Runs

variable {F : Type} [F32 F] {fw : Firewall} {crates : Crates} {i : Fin fw.ratelimiters.length}

/-! ## Two interleavings -/

/-- What a limiter was asked to check in a log. -/
def attemptsOn (i : Fin fw.ratelimiters.length) (log : List (Nat × Section F fw crates)) :
    List Attempt :=
  (callsOn i log).filterMap RateLimiter.attemptOf

/-- What a limiter was asked to check in a log, with what it decided. -/
def decisionsOn (i : Fin fw.ratelimiters.length) (log : List (Nat × Section F fw crates)) :
    List (Attempt × Decision) :=
  (log.filterMap fun entry => answeredBy i entry.2).filterMap RateLimiter.decisionOf

/-- The checks of a limiter that counts attempts are decided as in a run of their own. -/
theorem decisionsOn_log (shared : ∀ part : Part fw, part.State)
    (events : List (System.Event (fw.system F crates)))
    (hmode : (fw.limiterAt i).incrementMode = .attempt) {state : WindowState}
    (hstate : shared (.limiter i) = state) :
    decisionsOn i (logOf F fw crates shared events) =
      trace (RateLimiter.shouldRequestPass F (fw.limiterAt i)) state
        (attemptsOn i (logOf F fw crates shared events)) := by
  have hanswered : (logOf F fw crates shared events).filterMap (fun entry =>
      answeredBy i entry.2) = trace ((fw.limiterAt i).respond F) state
        (callsOn i (logOf F fw crates shared events)) := by
    rw [← hstate]
    exact (System.run_explains (S := fw.system F crates) ⟨shared, []⟩ events).answered
      (.limiter i)
  unfold decisionsOn attemptsOn
  rw [hanswered, RateLimiter.trace_respond_attempt hmode]

/-- What a limiter that counts attempts decides for a group of buckets in an interleaving is what
it decides when the checks of the group are all it is asked. -/
theorem decisionsOn_group {shared : ∀ part : Part fw, part.State}
    {events : List (System.Event (fw.system F crates))} {group : String → Bool} {start : Nat}
    (hmode : (fw.limiterAt i).incrementMode = .attempt)
    (hstart : shared (.limiter i) =
      RateLimiter.newState (fw.limiterAt i).windowDuration start)
    (hapart : ∀ attempt ∈ attemptsOn i (logOf F fw crates shared events),
      (fw.limiterAt i).Apart group attempt)
    (hclock : RateLimiter.ClockNeverGoesBack start
      ((attemptsOn i (logOf F fw crates shared events)).map Attempt.now)) :
    (decisionsOn i (logOf F fw crates shared events)).filter
        (fun decided => (fw.limiterAt i).touches group decided.1) =
      trace (RateLimiter.shouldRequestPass F (fw.limiterAt i))
        (RateLimiter.newState (fw.limiterAt i).windowDuration start)
        ((attemptsOn i (logOf F fw crates shared events)).filter
          ((fw.limiterAt i).touches group)) := by
  rw [decisionsOn_log shared events hmode hstart]
  refine RateLimiter.filter_checks (fun bucket _ => ?_) hapart hclock
  exact TwoWindow.alike_fresh (Nat.le_refl _) (Nat.le_refl _)

/-- **Groups**: take two interleavings of any requests at a limiter that counts attempts, and
buckets that its checks do not mix with others. If both have the same checks of the group, in the
same order, it decides these checks alike in both. -/
theorem groups_isolated (F : Type) [F32 F] (fw : Firewall) (crates : Crates)
    (i : Fin fw.ratelimiters.length) (hmode : (fw.limiterAt i).incrementMode = .attempt)
    (group : String → Bool) (start : Nat) (shared shared' : ∀ part : Part fw, part.State)
    (events events' : List (System.Event (fw.system F crates)))
    (hstart : shared (.limiter i) = RateLimiter.newState (fw.limiterAt i).windowDuration start)
    (hstart' : shared' (.limiter i) =
      RateLimiter.newState (fw.limiterAt i).windowDuration start)
    (hapart : ∀ attempt ∈ attemptsOn i (logOf F fw crates shared events),
      (fw.limiterAt i).Apart group attempt)
    (hapart' : ∀ attempt ∈ attemptsOn i (logOf F fw crates shared' events'),
      (fw.limiterAt i).Apart group attempt)
    (hclock : RateLimiter.ClockNeverGoesBack start
      ((attemptsOn i (logOf F fw crates shared events)).map Attempt.now))
    (hclock' : RateLimiter.ClockNeverGoesBack start
      ((attemptsOn i (logOf F fw crates shared' events')).map Attempt.now))
    (hsame : (attemptsOn i (logOf F fw crates shared events)).filter
        ((fw.limiterAt i).touches group) =
      (attemptsOn i (logOf F fw crates shared' events')).filter
        ((fw.limiterAt i).touches group)) :
    (decisionsOn i (logOf F fw crates shared events)).filter
        (fun decided => (fw.limiterAt i).touches group decided.1) =
      (decisionsOn i (logOf F fw crates shared' events')).filter
        (fun decided => (fw.limiterAt i).touches group decided.1) := by
  -- Both sides are the run of the group's own checks, and these are the same.
  rw [decisionsOn_group hmode hstart hapart hclock, decisionsOn_group hmode hstart' hapart' hclock',
    hsame]

end Runs

/-! ## Two clients -/

/-- One attempt in a window for each of two buckets of one client, and for the one of all others. -/
def twoForOne : RateLimiter :=
  { RateLimiter.oneBucket .attempt 1 with
    getBuckets := fun _ info _ _ => if info.ip = .v4 1 then {"a", "b"} else {"c"} }

def servingTwo : Firewall := { servingOne .attempt 1 with ratelimiters := [twoForOne] }

def theTwoForOne : Fin servingTwo.ratelimiters.length := ⟨0, Nat.one_pos⟩

/-- A request of a client. -/
noncomputable def requestOf (bits : BitVec 32) : Incoming :=
  { answeredWith 200 with peer := .v4 bits }

/-- The client asks twice, and another one in between. -/
noncomputable def otherBetween : List (System.Event (servingTwo.system ℚ nullDocument)) :=
  [.join (requestOf 1), .join (requestOf 2), .join (requestOf 1),
    .turn 0, .turn 0, .turn 1, .turn 1, .turn 2, .turn 2]

/-- The client asks twice. -/
noncomputable def askingTwice : List (System.Event (servingTwo.system ℚ nullDocument)) :=
  [.join (requestOf 1), .join (requestOf 1), .turn 0, .turn 0, .turn 1, .turn 1]

/-- What the limiter is asked to check for it. -/
def attemptFrom (bits : BitVec 32) : Attempt where
  info := ⟨.empty, ⟨"/v1/chain/get_info", none⟩, .v4 bits⟩
  value := .null
  order := .sorted
  now := 0
  tick := fun _ => 0

theorem attemptsOn_otherBetween :
    attemptsOn theTwoForOne (logOf ℚ servingTwo nullDocument (fresh servingTwo 0) otherBetween) =
      [attemptFrom 1, attemptFrom 2, attemptFrom 1] := rfl

theorem attemptsOn_askingTwice :
    attemptsOn theTwoForOne (logOf ℚ servingTwo nullDocument (fresh servingTwo 0) askingTwice) =
      [attemptFrom 1, attemptFrom 1] := rfl

/-- The client that asks twice is decided alike, whether the other one is there or not. -/
theorem groups_isolated_otherBetween :
    let group : String → Bool := fun bucket => bucket ≠ "c"
    (decisionsOn theTwoForOne (logOf ℚ servingTwo nullDocument (fresh servingTwo 0)
        otherBetween)).filter (fun decided => twoForOne.touches group decided.1) =
      (decisionsOn theTwoForOne (logOf ℚ servingTwo nullDocument (fresh servingTwo 0)
        askingTwice)).filter (fun decided => twoForOne.touches group decided.1) := by
  intro group
  have hone : twoForOne.touches group (attemptFrom 1) = true := by decide +kernel
  have htwo : twoForOne.touches group (attemptFrom 2) = false := by decide +kernel
  have hapart : twoForOne.Apart group (attemptFrom 1) := by decide +kernel
  have hapart' : twoForOne.Apart group (attemptFrom 2) := by decide +kernel
  refine groups_isolated ℚ servingTwo nullDocument theTwoForOne rfl group 0 (fresh servingTwo 0)
    (fresh servingTwo 0) otherBetween askingTwice rfl rfl ?_ ?_ ?_ ?_ ?_
  · rw [attemptsOn_otherBetween]
    exact List.forall_mem_cons.mpr ⟨hapart, List.forall_mem_cons.mpr ⟨hapart',
      List.forall_mem_singleton.mpr hapart⟩⟩
  · rw [attemptsOn_askingTwice]
    exact List.forall_mem_cons.mpr ⟨hapart, List.forall_mem_singleton.mpr hapart⟩
  · rw [attemptsOn_otherBetween]
    simp [RateLimiter.ClockNeverGoesBack, attemptFrom]
  · rw [attemptsOn_askingTwice]
    simp [RateLimiter.ClockNeverGoesBack, attemptFrom]
  · rw [attemptsOn_otherBetween, attemptsOn_askingTwice]
    show List.filter (twoForOne.touches group) _ = List.filter (twoForOne.touches group) _
    rw [List.filter_cons_of_pos hone, List.filter_cons_of_neg (Bool.eq_false_iff.mp htwo),
      List.filter_cons_of_pos hone, List.filter_cons_of_pos hone, List.filter_cons_of_pos hone]

end Firewall

end AntelopeFirewall
