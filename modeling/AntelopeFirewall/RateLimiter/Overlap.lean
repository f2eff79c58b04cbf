import AntelopeFirewall.RateLimiter.Accounting
import Mathlib.Data.List.Perm.Basic

/-!
# Failing Requests in Flight

A failure-mode limiter checks a request before it is forwarded and charges it when the
answer has come back as a failure. In between the request is in flight, for as long as the
node takes, and the limiter has not heard of it.

- `Traffic` is the limiter with its requests in flight, `serve` one event,
- `FailuresBounded` is the documented bound of twice the limit for one window,
- `failures_bounded` proves it while the requests in flight still fit under the bound,
- `overlapping_failures_pass` is a run where they do not: three requests that were in
  flight together pass a limit of one.
-/

namespace AntelopeFirewall.RateLimiter

open Library Library.Machine

/-! ## Traffic through one limiter -/

/-- The counts of the limiter and the requests that passed it and have no answer yet. -/
structure Traffic where
  counts : WindowState
  inFlight : List (RequestInfo × Json)

/-- A request arrives at the limiter, or the request at a place among those in flight comes
back as a failure. -/
inductive Event where
  | arrive (attempt : Attempt)
  | fail (index : Nat) (response : Json × StatusCode)
      (failed : response.2.isSuccess = false) (order : IterOrder String) (now : Nat)

/-- The moment of an event. -/
def Event.now : Event → Nat
  | .arrive attempt => attempt.now
  | .fail _ _ _ _ now => now

/-- A limiter built at `start`, without traffic. -/
def idle (self : RateLimiter) (start : Nat) : Traffic :=
  ⟨newState self.windowDuration start, []⟩

/-- One event, with the verdict on an arriving request. -/
def serve (F : Type) [F32 F] (self : RateLimiter) (traffic : Traffic) :
    Event → Option Bool × Traffic
  | .arrive attempt =>
    let checked := shouldRequestPass F self traffic.counts attempt
    if checked.1.verdict = some true then
      (some true, ⟨checked.2, traffic.inFlight ++ [(attempt.info, attempt.value)]⟩)
    else (checked.1.verdict, ⟨checked.2, traffic.inFlight⟩)
  | .fail index response _ order now =>
    match traffic.inFlight[index]? with
    | some (info, value) =>
      (none, ⟨postIncrement self traffic.counts ⟨info, value, response, order, now⟩,
        traffic.inFlight.eraseIdx index⟩)
    | none => (none, traffic)

/-- The limiter charges failures and allows `limit`, as one configured with
`limit_on = "failure"` does. -/
structure LimitsFailures (limiter : RateLimiter) (limit : Nat) : Prop where
  mode : limiter.incrementMode = .failure
  rate : limiter.getRatelimit = fun _ _ _ => limit
  cache : limiter.cache = none

/-- The buckets of a request, for a limiter without a cached document. -/
def requestBuckets (self : RateLimiter) (request : RequestInfo × Json) : Finset String :=
  self.getBuckets self.name request.1 request.2 .null

/-- How many requests with the bucket are in flight. -/
def waiting (self : RateLimiter) (bucket : String) (traffic : Traffic) : Nat :=
  traffic.inFlight.countP fun request => bucket ∈ self.requestBuckets request

/-- Whether an event let a request with `bucket` through in `window`. -/
def letThrough (self : RateLimiter) (window : Nat) (bucket : String) :
    Event × Option Bool → Bool
  | (.arrive attempt, some true) =>
    getCurrentWindow self.windowDuration attempt.now = window ∧
      bucket ∈ self.requestBuckets (attempt.info, attempt.value)
  | _ => false

section

variable (F : Type) [F32 F] (self : RateLimiter) (limit start : Nat) (events : List Event)

/-- The traffic after some events. -/
def trafficAfter : Traffic := final (serve F self) (idle self start) events

/-- How many requests with `bucket` some events let through in `window`. All of them end
in failure: no event takes a request out of flight otherwise. -/
def letThroughIn (window : Nat) (bucket : String) : Nat :=
  (trace (serve F self) (idle self start) events).countP (letThrough self window bucket)

/-- In every window at most twice the limit of failing requests pass for the bucket. -/
def FailuresBounded (bucket : String) : Prop :=
  ∀ window, letThroughIn F self start events window bucket ≤ 2 * limit

/-- Whenever a request with the bucket arrives and the failures counted in its window are
below twice the limit, they still are together with the requests in flight. -/
def InFlightFits (bucket : String) : Prop :=
  ∀ earlier attempt, earlier ++ [.arrive attempt] <+: events →
    bucket ∈ self.requestBuckets (attempt.info, attempt.value) →
    let before := trafficAfter F self start earlier
    let count := (updateCurrentWindow self.windowDuration attempt.now
      before.counts).currentBuckets.count bucket
    count < 2 * limit → count + waiting self bucket before < 2 * limit

end

/-! ## What one event does -/

variable {F : Type} [F32 F] {self : RateLimiter} {limit start : Nat}

/-- A request that passes had room in the current counts, also when the doubled limit of the
check wraps. -/
theorem passed_room (hself : LimitsFailures self limit) {state : WindowState}
    {attempt : Attempt}
    (hpassed : (shouldRequestPass F self state attempt).1.verdict = some true)
    {bucket : String} (hbucket : bucket ∈ self.requestBuckets (attempt.info, attempt.value)) :
    (updateCurrentWindow self.windowDuration attempt.now state).currentBuckets.count bucket <
      2 * limit := by
  obtain ⟨json, -, hroom, -⟩ := shouldRequestPass_passed hpassed
  have hlisted : bucket ∈ self.bucketsOf attempt.info attempt.value attempt.now := by
    rw [bucketsOf, hself.cache]
    exact hbucket
  have hlt := hroom bucket hlisted
  rw [hself.rate] at hlt
  exact hlt.trans_le (Nat.mod_le _ _)

/-- A failure raises each bucket of its request by one, a success raises none. -/
theorem count_postIncrement (hself : LimitsFailures self limit) (state : WindowState)
    (outcome : Outcome) (bucket : String) :
    (postIncrement self state outcome).currentBuckets.count bucket =
      state.currentBuckets.count bucket +
        if bucket ∈ self.requestBuckets (outcome.info, outcome.data) then
          if outcome.response.2.isSuccess then 0 else 1
        else 0 := by
  have hcharges : self.postCharges outcome =
      (outcome.order.list (self.requestBuckets (outcome.info, outcome.data))).map
        fun b => (b, if outcome.response.2.isSuccess then 0 else 1) := by
    simp [postCharges, hself.cache, hself.mode, IncrementMode.failure, requestBuckets]
  rw [postIncrement, hcharges, count_incrementAll_map (outcome.order.nodup _)]
  simp only [IterOrder.mem_list_iff]

/-- Taking a request out of flight lowers the number waiting by that request. -/
theorem waiting_eraseIdx (self : RateLimiter) (bucket : String) {traffic : Traffic} {index : Nat}
    {request : RequestInfo × Json} (hget : traffic.inFlight[index]? = some request)
    (counts : WindowState) :
    waiting self bucket traffic =
      waiting self bucket ⟨counts, traffic.inFlight.eraseIdx index⟩ +
        if bucket ∈ self.requestBuckets request then 1 else 0 := by
  obtain ⟨hindex, rfl⟩ := List.getElem?_eq_some_iff.mp hget
  have hperm := List.getElem_cons_eraseIdx_perm hindex
  have hcount := hperm.countP_eq fun request => bucket ∈ self.requestBuckets request
  rw [List.countP_cons] at hcount
  simpa [waiting] using hcount.symm

/-! ## The bound -/

/-- What holds throughout a run: nothing was let through in windows to come, the bound holds
in every window, and in the stored one the requests let through are counted or in flight. -/
structure Covered (limiter : RateLimiter) (limit : Nat) (bucket : String)
    (answered : List (Event × Option Bool)) (traffic : Traffic) : Prop where
  future : ∀ window, traffic.counts.currentWindow < window →
    answered.countP (letThrough limiter window bucket) = 0
  bound : ∀ window, answered.countP (letThrough limiter window bucket) ≤ 2 * limit
  covered : answered.countP
      (letThrough limiter traffic.counts.currentWindow bucket) ≤
    traffic.counts.currentBuckets.count bucket + waiting limiter bucket traffic

theorem covered_idle (bucket : String) : Covered self limit bucket [] (idle self start) :=
  ⟨by simp, by simp, by simp⟩

/-- The rollover at an arrival keeps the run covered: what was let through in its window is
at most what the check reads and what is in flight. -/
theorem Covered.rollover {bucket : String} {answered : List (Event × Option Bool)}
    {traffic : Traffic} (h : Covered self limit bucket answered traffic) {now : Nat}
    (hahead : traffic.counts.currentWindow ≤ getCurrentWindow self.windowDuration now) :
    Covered self limit bucket answered
      ⟨updateCurrentWindow self.windowDuration now traffic.counts, traffic.inFlight⟩ where
  future := fun window hwindow => by
    rw [updateCurrentWindow_currentWindow] at hwindow
    exact h.future window (by omega)
  bound := h.bound
  covered := by
    dsimp only
    rw [updateCurrentWindow_currentWindow, count_updateCurrentWindow]
    split_ifs with hsame
    · rw [hsame]
      exact h.covered
    · -- the window is new to the limiter
      rw [h.future _ (by omega)]
      exact Nat.zero_le _

/-- An event that lets nothing through for the bucket keeps the run covered. -/
theorem Covered.keep {bucket : String} {answered : List (Event × Option Bool)}
    {traffic : Traffic} (h : Covered self limit bucket answered traffic)
    {e : Event × Option Bool} (he : ∀ window, letThrough self window bucket e = false) :
    Covered self limit bucket (answered ++ [e]) traffic := by
  have hsame : ∀ window, (answered ++ [e]).countP (letThrough self window bucket) =
      answered.countP (letThrough self window bucket) := fun window => by
    simp [List.countP_append, he window]
  refine ⟨fun window hwindow => ?_, fun window => ?_, ?_⟩
  · rw [hsame]
    exact h.future window hwindow
  · rw [hsame]
    exact h.bound window
  · rw [hsame]
    exact h.covered

/-- A request put in flight for other buckets changes nothing for this one. -/
theorem Covered.launch_other {bucket : String} {answered : List (Event × Option Bool)}
    {traffic : Traffic} (h : Covered self limit bucket answered traffic)
    {request : RequestInfo × Json} (hother : bucket ∉ self.requestBuckets request) :
    Covered self limit bucket answered
      ⟨traffic.counts, traffic.inFlight ++ [request]⟩ where
  future := h.future
  bound := h.bound
  covered := by simpa [waiting, hother] using h.covered

/-- A request let through in the stored window is in flight, and the bound holds for it if
what is counted and in flight was below. -/
theorem Covered.launch {bucket : String} {answered : List (Event × Option Bool)}
    {traffic : Traffic} (h : Covered self limit bucket answered traffic) {attempt : Attempt}
    (hwindow : getCurrentWindow self.windowDuration attempt.now = traffic.counts.currentWindow)
    (hbucket : bucket ∈ self.requestBuckets (attempt.info, attempt.value))
    (hfits : traffic.counts.currentBuckets.count bucket + waiting self bucket traffic <
      2 * limit) :
    Covered self limit bucket (answered ++ [(Event.arrive attempt, some true)])
      ⟨traffic.counts, traffic.inFlight ++ [(attempt.info, attempt.value)]⟩ := by
  -- What is let through rises by this request, in its own window only.
  have hcount : ∀ window,
      (answered ++ [(Event.arrive attempt, some true)]).countP (letThrough self window bucket) =
        answered.countP (letThrough self window bucket) +
          if traffic.counts.currentWindow = window then 1 else 0 := fun window => by
    simp [List.countP_append, List.countP_singleton, letThrough, hwindow, hbucket]
  have hcovered := h.covered
  refine ⟨fun window hlater => ?_, fun window => ?_, ?_⟩
  -- no later window has let anything through
  · have hnot : traffic.counts.currentWindow ≠ window := Nat.ne_of_lt hlater
    rw [hcount, h.future window hlater, if_neg hnot]
  · rw [hcount]
    split_ifs with hsame
    · -- what was let through in the window is counted or in flight, and there was room
      subst hsame
      omega
    · exact h.bound window
  · rw [hcount, if_pos rfl]
    simp only [waiting, List.countP_append, List.countP_singleton, hbucket, decide_true,
      if_true]
    simp only [waiting] at hcovered
    omega

/-- **Arrival step**: an arriving request keeps the run covered, if it finds that what is in
flight still fits. -/
theorem Covered.arrive (hself : LimitsFailures self limit) {bucket : String}
    {answered : List (Event × Option Bool)} {traffic : Traffic}
    (h : Covered self limit bucket answered traffic) {attempt : Attempt}
    (hahead : traffic.counts.currentWindow ≤
      getCurrentWindow self.windowDuration attempt.now)
    (hfits : bucket ∈ self.requestBuckets (attempt.info, attempt.value) →
      let count := (updateCurrentWindow self.windowDuration attempt.now
        traffic.counts).currentBuckets.count bucket
      count < 2 * limit → count + waiting self bucket traffic < 2 * limit) :
    Covered self limit bucket
      (answered ++ [(.arrive attempt, (serve F self traffic (.arrive attempt)).1)])
      (serve F self traffic (.arrive attempt)).2 := by
  have hrolled := h.rollover hahead
  simp only [serve]
  split_ifs with hpassed
  · rw [shouldRequestPass_state_failure hself.mode]
    by_cases hbucket : bucket ∈ self.requestBuckets (attempt.info, attempt.value)
    · have hroom := hfits hbucket (passed_room hself hpassed hbucket)
      exact hrolled.launch (updateCurrentWindow_currentWindow ..).symm hbucket hroom
    · exact (hrolled.keep fun window => by simp [letThrough, hbucket]).launch_other hbucket
  · rw [shouldRequestPass_state_failure hself.mode]
    -- a request that is turned away counts in no window
    apply hrolled.keep
    intro window
    unfold letThrough
    split
    · next heq => exact absurd (Prod.mk.inj heq).2 hpassed
    · rfl

/-- **Failure step**: a failure moves its request from flight to the counts. -/
theorem Covered.fail (hself : LimitsFailures self limit) {bucket : String}
    {answered : List (Event × Option Bool)} {traffic : Traffic}
    (h : Covered self limit bucket answered traffic) {index : Nat}
    {response : Json × StatusCode} {failed : response.2.isSuccess = false}
    {order : IterOrder String} {now : Nat} :
    let event := Event.fail index response failed order now
    Covered self limit bucket (answered ++ [(event, (serve F self traffic event).1)])
      (serve F self traffic event).2 := by
  intro event
  simp only [event, serve]
  cases hget : traffic.inFlight[index]? with
  | none =>
    -- there is no such request, and nothing happens
    exact h.keep fun _ => rfl
  | some request =>
    obtain ⟨info, value⟩ := request
    refine Covered.keep ?_ fun _ => rfl
    -- what the flight loses the counts gain
    have hwaiting := waiting_eraseIdx self bucket hget
      (postIncrement self traffic.counts ⟨info, value, response, order, now⟩)
    have hcovered := h.covered
    refine ⟨by simpa using h.future, h.bound, ?_⟩
    dsimp only
    rw [count_postIncrement hself, postIncrement_currentWindow]
    simp only [failed, Bool.false_eq_true, if_false]
    omega

/-- An event leaves the limiter at its own window or where it was. -/
theorem serve_currentWindow (hself : LimitsFailures self limit) (traffic : Traffic)
    (event : Event) :
    (serve F self traffic event).2.counts.currentWindow =
        getCurrentWindow self.windowDuration event.now ∨
      (serve F self traffic event).2.counts.currentWindow = traffic.counts.currentWindow := by
  cases event with
  | arrive attempt =>
    left
    simp only [serve]
    split_ifs <;>
      rw [shouldRequestPass_state_failure hself.mode, updateCurrentWindow_currentWindow] <;> rfl
  | fail index response failed order now =>
    right
    simp only [serve]
    cases traffic.inFlight[index]? with
    | none => rfl
    | some request => exact postIncrement_currentWindow _ _ _

/-- The stored window is not ahead of the next event. -/
theorem trafficAfter_currentWindow_le (hself : LimitsFailures self limit)
    {earlier : List Event} {now : Nat}
    (h : ClockNeverGoesBack start (earlier.map Event.now ++ [now])) :
    (trafficAfter F self start earlier).counts.currentWindow ≤
      getCurrentWindow self.windowDuration now :=
  mark_le (serve F self) (fun traffic => traffic.counts.currentWindow)
    (getCurrentWindow_mono self.windowDuration) (serve_currentWindow hself) rfl earlier
    h.le_last

/-- **Run**: a run whose requests in flight always fit is covered. -/
theorem run_covered (hself : LimitsFailures self limit) {events : List Event}
    (hclock : ClockNeverGoesBack start (events.map Event.now))
    {bucket : String} (hfits : InFlightFits F self limit start events bucket) :
    Covered self limit bucket (trace (serve F self) (idle self start) events)
      (trafficAfter F self start events) := by
  refine run_invariant (serve F self) (Covered self limit bucket) (covered_idle bucket)
    fun earlier event hpre hcovered => ?_
  rw [trace_concat, final_concat]
  cases event with
  | arrive attempt =>
    have hbefore := hclock.initial (hpre.map Event.now)
    rw [List.map_append] at hbefore
    exact hcovered.arrive hself (trafficAfter_currentWindow_le hself hbefore)
      (hfits earlier attempt hpre)
  | fail index response failed order now => exact hcovered.fail hself

/-- **Failure bound**: while the requests in flight fit under twice the limit together with
the failures counted, at most twice the limit of failing requests pass in one window. -/
theorem failures_bounded (F : Type) [F32 F] (self : RateLimiter) (limit : Nat)
    (hself : LimitsFailures self limit) (start : Nat)
    (events : List Event) (hclock : ClockNeverGoesBack start (events.map Event.now))
    (bucket : String) (hfits : InFlightFits F self limit start events bucket) :
    FailuresBounded F self limit start events bucket :=
  (run_covered hself hclock hfits).bound

/-! ## Requests in turn and requests together -/

/-- A first request passes a limit of one, and so do others while it has no answer: the
limiter is as it was built. -/
theorem serve_arrive_unanswered (inFlight : List (RequestInfo × Json)) :
    serve ℚ (oneBucket .failure 1) ⟨newState 60 0, inFlight⟩ (.arrive (checkAt 0)) =
      (some true, ⟨newState 60 0,
        inFlight ++ [((checkAt 0).info, (checkAt 0).value)]⟩) := by
  have hpassed : (shouldRequestPass ℚ (oneBucket .failure 1) (newState 60 0)
      (checkAt 0)).1.verdict = some true := by
    simp [shouldRequestPass, updateCurrentWindow, newState, getCurrentWindow, oneBucket,
      checkAt, checkBuckets, checkBucket, elapsedCurrentWindow, exceeds, weightedCount,
      F32.gt_rat, rateUsed, IncrementMode.failure]
  have hcounts : (shouldRequestPass ℚ (oneBucket .failure 1) (newState 60 0) (checkAt 0)).2 =
      newState 60 0 :=
    shouldRequestPass_state_failure rfl _ _
  simp only [serve, hpassed, hcounts, if_true]

theorem idle_oneBucket (mode : IncrementMode) (limit : Nat) :
    idle (oneBucket mode limit) 0 = ⟨newState 60 0, []⟩ := rfl

/-- Two requests, the second of which arrives after the first was answered. -/
theorem failures_bounded_in_turn :
    FailuresBounded ℚ (oneBucket .failure 1) 1 0
      [.arrive (checkAt 0), .fail 0 (.null, 502) rfl .sorted 1, .arrive (checkAt 2)] "a" := by
  refine failures_bounded ℚ (oneBucket .failure 1) 1 ⟨rfl, rfl, rfl⟩ 0 _
    (by simp [ClockNeverGoesBack, Event.now, checkAt]) "a" ?_
  -- nothing is in flight when a request arrives
  rintro (_ | ⟨first, _ | ⟨second, _ | ⟨third, rest⟩⟩⟩) attempt hpre - before count hcount
  · exact hcount
  · simp [List.cons_prefix_cons] at hpre
  · simp only [List.cons_append, List.nil_append, List.cons_prefix_cons] at hpre
    obtain ⟨rfl, rfl, -⟩ := hpre
    have hnone : before.inFlight = [] := by
      simp only [before, trafficAfter, final_cons, final_nil, idle_oneBucket,
        serve_arrive_unanswered, List.nil_append]
      rfl
    simpa [waiting, hnone] using hcount
  · simp [List.cons_prefix_cons] at hpre

/-- Three requests that are in flight together all pass a limit of one and all fail. -/
theorem overlapping_failures_pass :
    let fail : Event := .fail 0 (.null, 502) rfl .sorted 1
    let events := [.arrive (checkAt 0), .arrive (checkAt 0), .arrive (checkAt 0),
      fail, fail, fail]
    ClockNeverGoesBack 0 (events.map Event.now) ∧
    (trafficAfter ℚ (oneBucket .failure 1) 0 events).inFlight = [] ∧
    ¬ FailuresBounded ℚ (oneBucket .failure 1) 1 0 events "a" := by
  intro fail events
  refine ⟨by simp [ClockNeverGoesBack, events, fail, Event.now, checkAt], ?_, fun h => ?_⟩
  · simp only [trafficAfter, events, fail, final_cons, final_nil, idle_oneBucket,
      serve_arrive_unanswered, List.nil_append, List.cons_append]
    rfl
  · have hthree : letThroughIn ℚ (oneBucket .failure 1) 0 events 0 "a" = 3 := by
      -- each check reads a count of zero, as no answer has come back yet
      simp only [letThroughIn, events, fail, trace, idle_oneBucket, serve_arrive_unanswered,
        List.nil_append, List.cons_append]
      decide
    have htwo := h 0
    omega

end AntelopeFirewall.RateLimiter
