import AntelopeFirewall.RateLimiter.Failures
import AntelopeFirewall.RateLimiter.Isolation
import AntelopeFirewall.RateLimiter.MultiBucket

/-!
# Requests That Are Not to Be Limited

A limiter is built with a predicate that says which requests it is for. `shouldRequestPass`
evaluates it and answers false where it is false; `postIncrement` does not evaluate it.

- `exempted` is a call whose request the predicate leaves out,
- `LeavesOutExempted` says that such requests pass, are charged nothing, and do not change what
  happens to the others in a run,
- `leavesOutExempted_iff` is the condition for that,
- `others_undisturbed` is the part that holds of every limiter charged by its checks.
-/

namespace AntelopeFirewall.RateLimiter

open Library Library.Machine

/-! ## Runs with exempted requests -/

/-- The limiter is not for a request: it has a document, and its predicate is false. -/
def exempts (limiter : RateLimiter) (info : RequestInfo) (value : Json) (now : Nat) : Bool :=
  match JsonDataCache.handleCacheOption limiter.cache now with
  | some json => !limiter.shouldBeLimited info value json
  | none => false

/-- The limiter is not for the request of a call. -/
def exempted (limiter : RateLimiter) : Call → Bool
  | .check attempt => limiter.exempts attempt.info attempt.value attempt.now
  | .charge outcome => limiter.exempts outcome.info outcome.data outcome.now

/-- What is seen of a call: the decision of a check, or the charges after a response. -/
inductive Reply where
  | decided (decision : Decision)
  | charged (charges : List (String × Nat))

/-- The charges of a call. -/
def Reply.charges : Reply → List (String × Nat)
  | .decided decision => decision.charges
  | .charged charges => charges

/-- One call, with what is seen of it. -/
def respond (F : Type) [F32 F] (limiter : RateLimiter) (state : WindowState) :
    Call → Reply × WindowState
  | .check attempt =>
    let checked := shouldRequestPass F limiter state attempt
    (.decided checked.1, checked.2)
  | .charge outcome => (.charged (limiter.postCharges outcome), limiter.postIncrement state outcome)

/-- In a run an exempted request is left out of the limiter: its check lets it through, no call
for it raises a count, and all other calls are answered as in the run without it. -/
structure LeavesOutExempted (F : Type) [F32 F] (limiter : RateLimiter) (state : WindowState)
    (calls : List Call) : Prop where
  passes : ∀ attempt decision,
    (.check attempt, .decided decision) ∈ trace (respond F limiter) state calls →
      limiter.exempted (.check attempt) = true → decision.verdict = some true
  uncharged : ∀ call reply, (call, reply) ∈ trace (respond F limiter) state calls →
    limiter.exempted call = true → raising reply.charges = []
  others : (trace (respond F limiter) state calls).filter (fun e => !limiter.exempted e.1) =
    trace (respond F limiter) state (calls.filter fun call => !limiter.exempted call)

/-- The charge after a response comes to nothing: the limiter is charged by its checks, the
request has no buckets, or its rate is zero. -/
def ChargedNothing (limiter : RateLimiter) (outcome : Outcome) : Prop :=
  match limiter.incrementMode with
  | .before _ => True
  | .after getRateUsed => ∀ json,
    JsonDataCache.handleCacheOption limiter.cache outcome.now = some json →
      limiter.getBuckets limiter.name outcome.info outcome.data json = ∅ ∨
        getRateUsed outcome.info outcome.data outcome.response json = 0

/-- No exempted request of a run is checked, and the charge after one comes to nothing. -/
structure ExemptedStayAway (limiter : RateLimiter) (calls : List Call) : Prop where
  unchecked : ∀ attempt, .check attempt ∈ calls → limiter.exempted (.check attempt) = false
  free : ∀ outcome, .charge outcome ∈ calls → limiter.exempted (.charge outcome) = true →
    ChargedNothing limiter outcome

/-! ## Steps of exempted requests -/

section Steps

variable {F : Type} [F32 F] {limiter : RateLimiter} {state other : WindowState}

/-- An exempted request has a document that the predicate is false with. -/
theorem exempts_eq_true {info : RequestInfo} {value : Json} {now : Nat}
    (h : limiter.exempts info value now = true) :
    ∃ json, JsonDataCache.handleCacheOption limiter.cache now = some json ∧
      ¬ limiter.shouldBeLimited info value json = true := by
  unfold exempts at h
  cases hcache : JsonDataCache.handleCacheOption limiter.cache now with
  | none => simp [hcache] at h
  | some json =>
    simp only [hcache, Bool.not_eq_true'] at h
    exact ⟨json, rfl, by simp [h]⟩

/-- The check of an exempted request turns it away and rolls the window over. -/
theorem shouldRequestPass_exempted {attempt : Attempt}
    (h : limiter.exempted (.check attempt) = true) :
    shouldRequestPass F limiter state attempt =
      (⟨some false, []⟩, updateCurrentWindow limiter.windowDuration attempt.now state) := by
  obtain ⟨json, hcache, hexempt⟩ := exempts_eq_true h
  exact shouldRequestPass_exempt hcache hexempt

/-- The same charge to each of some buckets raises nothing if there are none or it is zero. -/
theorem raising_map_eq_nil_iff {buckets : List String} {val : Nat} :
    raising (buckets.map fun bucket => (bucket, val)) = [] ↔ buckets = [] ∨ val = 0 := by
  cases buckets with
  | nil => simp [raising]
  | cons bucket rest =>
    simp only [raising, List.filter_eq_nil_iff, List.map_cons, List.mem_cons, reduceCtorEq,
      false_or]
    constructor
    · intro hnone
      simpa using hnone (bucket, val) (.inl rfl)
    · rintro rfl charge (rfl | hcharge)
      · simp
      · obtain ⟨later, -, rfl⟩ := List.mem_map.mp hcharge
        simp

/-- The charge after a response raises no count exactly when it comes to nothing. -/
theorem raising_postCharges_iff {outcome : Outcome} :
    raising (limiter.postCharges outcome) = [] ↔ ChargedNothing limiter outcome := by
  unfold postCharges ChargedNothing
  cases JsonDataCache.handleCacheOption limiter.cache outcome.now with
  | none =>
    -- without a document nothing is charged in either mode
    cases limiter.incrementMode with
    | before getRateUsed => simp [raising]
    | after getRateUsed => simp [raising]
  | some json =>
    cases limiter.incrementMode with
    | before getRateUsed => simp [raising]
    | after getRateUsed =>
      simp only [raising_map_eq_nil_iff, IterOrder.list_eq_nil_iff, Option.some.injEq,
        forall_eq']

/-! ## Steps that see the same counts -/

/-- The same charges to the same counts leave the same counts. -/
theorem view_incrementAll_congr (hview : view state = view other)
    (charges : List (String × Nat)) :
    view (incrementAll charges state) = view (incrementAll charges other) := by
  induction charges generalizing state other with
  | nil => exact hview
  | cons charge charges ih =>
    rw [incrementAll_cons, incrementAll_cons]
    apply ih
    rw [view_increment, view_increment, hview]

/-- A loop over buckets is decided by what the counts say. -/
theorem checkBuckets_congr (windowDuration rateLimit : Nat) (charge : Option Nat)
    (tick : String → Nat) (buckets : List String) (hview : view state = view other) :
    (checkBuckets F windowDuration rateLimit charge tick buckets state).1 =
      (checkBuckets F windowDuration rateLimit charge tick buckets other).1 := by
  induction buckets generalizing state other with
  | nil => rfl
  | cons bucket rest ih =>
    have hturn : (checkBucket F windowDuration rateLimit charge tick bucket state).1 =
        (checkBucket F windowDuration rateLimit charge tick bucket other).1 := by
      apply checkBucket_congr
      · exact congrArg TwoWindow.index hview
      · exact congrFun (congrArg TwoWindow.current hview) bucket
      · exact congrFun (congrArg TwoWindow.last hview) bucket
    have hleft : view (checkBucket F windowDuration rateLimit charge tick bucket state).2 =
        view (checkBucket F windowDuration rateLimit charge tick bucket other).2 := by
      rw [checkBucket_state, checkBucket_state, hturn]
      exact view_incrementAll_congr hview _
    simp only [checkBuckets, hturn, ih hleft]
    -- both loops go on or both stop
    split
    · rfl
    · exact hturn

/-- A check is decided by what the counts say once the window is rolled over. -/
theorem shouldRequestPass_congr_view {attempt : Attempt}
    (hview : view (updateCurrentWindow limiter.windowDuration attempt.now state) =
      view (updateCurrentWindow limiter.windowDuration attempt.now other)) :
    (shouldRequestPass F limiter state attempt).1 =
        (shouldRequestPass F limiter other attempt).1 ∧
      view (shouldRequestPass F limiter state attempt).2 =
        view (shouldRequestPass F limiter other attempt).2 := by
  -- Decisions read the view of the counters, and so does what they charge.
  have hdecision : (shouldRequestPass F limiter state attempt).1 =
      (shouldRequestPass F limiter other attempt).1 := by
    unfold shouldRequestPass
    cases JsonDataCache.handleCacheOption limiter.cache attempt.now with
    | none => rfl
    | some json =>
      dsimp only
      split
      · exact checkBuckets_congr _ _ _ _ _ hview
      · rfl
  refine ⟨hdecision, ?_⟩
  rw [shouldRequestPass_state, shouldRequestPass_state, hdecision]
  exact view_incrementAll_congr hview _

/-- **Own step**: a call is answered by what the counts say, and so are the calls after it. -/
theorem respond_congr (hview : view state = view other) (call : Call) :
    (respond F limiter state call).1 = (respond F limiter other call).1 ∧
      view (respond F limiter state call).2 = view (respond F limiter other call).2 := by
  cases call with
  | check attempt =>
    have hrolled : view (updateCurrentWindow limiter.windowDuration attempt.now state) =
        view (updateCurrentWindow limiter.windowDuration attempt.now other) := by
      rw [view_updateCurrentWindow, view_updateCurrentWindow, hview]
    obtain ⟨hdecision, hleft⟩ := shouldRequestPass_congr_view (F := F) hrolled
    exact ⟨congrArg Reply.decided hdecision, hleft⟩
  | charge outcome => exact ⟨rfl, view_incrementAll_congr hview _⟩

end Steps

/-! ## Runs -/

section Runs

variable {F : Type} [F32 F] {limiter : RateLimiter} {state : WindowState} {calls : List Call}

/-- A run that leaves its exempted requests out checks none of them and charges them nothing. -/
theorem ExemptedStayAway.of_leavesOut (h : LeavesOutExempted F limiter state calls) :
    ExemptedStayAway limiter calls := by
  constructor
  · intro attempt hattempt
    by_contra hexempt
    rw [Bool.not_eq_false] at hexempt
    obtain ⟨reached, hreply⟩ := mem_trace_of_mem (respond F limiter) state hattempt
    -- the check answers false, whatever the counts say
    have hpasses := h.passes _ _ hreply hexempt
    rw [shouldRequestPass_exempted hexempt] at hpasses
    cases hpasses
  · intro outcome houtcome hexempt
    obtain ⟨reached, hreply⟩ := mem_trace_of_mem (respond F limiter) state houtcome
    exact raising_postCharges_iff.mp (h.uncharged _ _ hreply hexempt)

/-- A call that the counts do not show: the charge, of nothing, for an exempted request. -/
def unnoticed (limiter : RateLimiter) : Call → Bool
  | .check _ => false
  | .charge outcome =>
    limiter.exempted (.charge outcome) && (raising (limiter.postCharges outcome)).isEmpty

/-- In a run whose exempted requests stay away, their calls are those that go unnoticed. -/
theorem exempted_eq_unnoticed (h : ExemptedStayAway limiter calls) {call : Call}
    (hcall : call ∈ calls) : limiter.exempted call = limiter.unnoticed call := by
  cases call with
  | check attempt => exact h.unchecked attempt hcall
  | charge outcome =>
    cases hexempt : limiter.exempted (.charge outcome) with
    | false => simp [unnoticed, hexempt]
    | true =>
      have hfree := raising_postCharges_iff.mpr (h.free outcome hcall hexempt)
      simp [unnoticed, hexempt, hfree]

/-- **Step left out**: a call that goes unnoticed changes no count. -/
theorem view_respond_unnoticed {call : Call} (h : limiter.unnoticed call = true) :
    view (respond F limiter state call).2 = view state := by
  cases call with
  | check attempt => cases h
  | charge outcome =>
    simp only [unnoticed, Bool.and_eq_true, List.isEmpty_iff] at h
    exact view_incrementAll_of_raising_nil h.2 state

/-- **Run**: without the calls that go unnoticed the others are answered in the same way. -/
theorem filter_trace_unnoticed (F : Type) [F32 F] (limiter : RateLimiter) (state : WindowState)
    (calls : List Call) :
    (trace (respond F limiter) state calls).filter (fun e => !limiter.unnoticed e.1) =
      trace (respond F limiter) state (calls.filter fun call => !limiter.unnoticed call) := by
  -- the clock has no part in this
  have hclock : (0 :: calls.map fun _ => 0).Pairwise (· ≤ ·) := by simp
  refine filter_trace (respond F limiter) (fun _ => 0) (fun call => !limiter.unnoticed call)
    (fun _ state other => view state = view other) ?later ?left ?own rfl hclock
  case later =>
    intro _ _ state other _ hview
    exact hview
  case left =>
    intro state other call hcall hview
    rw [Bool.not_eq_false'] at hcall
    exact (view_respond_unnoticed hcall).trans hview
  case own =>
    intro state other call _ hview
    exact respond_congr hview call

/-- If exempted requests stay away they are left out of the run. -/
theorem ExemptedStayAway.leavesOut (h : ExemptedStayAway limiter calls) :
    LeavesOutExempted F limiter state calls := by
  constructor
  -- an exempted check would be unchecked, which none of these is
  · intro attempt decision hreply hexempt
    obtain ⟨hmem, -⟩ := of_mem_trace _ hreply
    rw [h.unchecked attempt hmem] at hexempt
    cases hexempt
  -- an exempted answer is charged nothing
  · intro call reply hreply hexempt
    obtain ⟨hmem, reached, rfl⟩ := of_mem_trace _ hreply
    cases call with
    | check attempt =>
      rw [h.unchecked attempt hmem] at hexempt
      cases hexempt
    | charge outcome => exact raising_postCharges_iff.mpr (h.free outcome hmem hexempt)
  · -- the exempted calls of this run are those that leave the counters alone
    have hcalls : ∀ call ∈ calls, (!limiter.exempted call) = !limiter.unnoticed call := by
      intro call hcall
      rw [exempted_eq_unnoticed h hcall]
    rw [List.filter_congr hcalls, ← filter_trace_unnoticed]
    apply List.filter_congr
    intro e he
    exact hcalls e.1 (of_mem_trace _ he).1

end Runs

/-- **Exemption**: in a run from any counts the exempted requests are left out of the limiter
exactly when none of them is checked and the charge after each comes to nothing. -/
theorem leavesOutExempted_iff (F : Type) [F32 F] (limiter : RateLimiter) (state : WindowState)
    (calls : List Call) :
    LeavesOutExempted F limiter state calls ↔ ExemptedStayAway limiter calls :=
  ⟨ExemptedStayAway.of_leavesOut, ExemptedStayAway.leavesOut⟩

/-! ## The requests a limiter is for -/

section Others

variable {F : Type} [F32 F] {limiter : RateLimiter}

/-- **Checks that are turned away**: a limiter that is charged by its checks answers the others
as in the run without the exempted requests, as long as the clock does not go back. All such a
request does is to roll the window over, which the next check would have done. -/
theorem others_undisturbed (hmode : limiter.incrementMode.shouldRunBeforeRequest = true)
    {start : Nat} {calls : List Call} (hclock : ClockNeverGoesBack start (calls.map Call.now)) :
    (trace (respond F limiter) (newState limiter.windowDuration start) calls).filter
        (fun e => !limiter.exempted e.1) =
      trace (respond F limiter) (newState limiter.windowDuration start)
        (calls.filter fun call => !limiter.exempted call) := by
  have hfree : ∀ outcome, limiter.postCharges outcome = [] := by
    intro outcome
    unfold postCharges
    cases JsonDataCache.handleCacheOption limiter.cache outcome.now with
    | none => rfl
    | some json =>
      cases hcharged : limiter.incrementMode with
      | before getRateUsed => rfl
      | after getRateUsed => simp [hcharged, IncrementMode.shouldRunBeforeRequest] at hmode
  have hcharge : ∀ state outcome, (respond F limiter state (.charge outcome)).2 = state := by
    intro state outcome
    show incrementAll (limiter.postCharges outcome) state = state
    rw [hfree, incrementAll_nil]
  refine filter_trace (respond F limiter) Call.now (fun call => !limiter.exempted call)
    (fun now state other => ∀ bucket, TwoWindow.Alike bucket
      (getCurrentWindow limiter.windowDuration now) (view state) (view other))
    ?later ?left ?own ?start hclock
  case later =>
    intro now now' state other hle halike bucket
    exact (halike bucket).later (getCurrentWindow_mono limiter.windowDuration hle)
  case left =>
    intro state other call hcall halike bucket
    rw [Bool.not_eq_false'] at hcall
    cases call with
    | check attempt =>
      show TwoWindow.Alike _ _ (view (shouldRequestPass F limiter state attempt).2) _
      rw [shouldRequestPass_exempted hcall, view_updateCurrentWindow]
      exact (halike bucket).advance_left
    | charge outcome =>
      rw [hcharge]
      exact halike bucket
  case own =>
    intro state other call _ halike
    cases call with
    | check attempt =>
      -- rolled over to the same window, the counts are the same
      have hrolled : view (updateCurrentWindow limiter.windowDuration attempt.now state) =
          view (updateCurrentWindow limiter.windowDuration attempt.now other) := by
        rw [view_updateCurrentWindow, view_updateCurrentWindow]
        exact TwoWindow.advance_eq_of_alike halike
      obtain ⟨hdecision, hleft⟩ := shouldRequestPass_congr_view (F := F) hrolled
      refine ⟨congrArg Reply.decided hdecision, ?_⟩
      intro bucket
      apply TwoWindow.alike_of_eq hleft
      exact (shouldRequestPass_currentWindow state attempt).le
    | charge outcome =>
      rw [hcharge, hcharge]
      exact ⟨rfl, halike⟩
  case start =>
    intro bucket
    exact TwoWindow.alike_of_eq rfl (Nat.le_refl _)

/-- A configured limiter is for every request. -/
theorem exempted_newRatelimiter {crates : Crates} {select : Table String (Finset String)}
    {ratelimit : RatelimitConfig} (hnew : newRatelimiter crates select ratelimit = .ok limiter)
    (call : Call) : limiter.exempted call = false := by
  have hexempts : ∀ info value now, limiter.exempts info value now = false := by
    intro info value now
    unfold newRatelimiter at hnew
    split at hnew
    · cases hnew
      rfl
    · cases hnew
  cases call with
  | check attempt => exact hexempts ..
  | charge outcome => exact hexempts ..

/-- So there is no run of one that the predicate has a part in. -/
theorem exemptedStayAway_newRatelimiter {crates : Crates}
    {select : Table String (Finset String)} {ratelimit : RatelimitConfig}
    (hnew : newRatelimiter crates select ratelimit = .ok limiter) (calls : List Call) :
    ExemptedStayAway limiter calls := by
  constructor
  · intro attempt _
    exact exempted_newRatelimiter hnew _
  · intro outcome _ hexempt
    rw [exempted_newRatelimiter hnew] at hexempt
    cases hexempt

end Others

/-! ## A limiter that is for no request -/

/-- A limiter with a limit of five a minute for none of the requests. -/
def forNone (mode : IncrementMode) : RateLimiter :=
  { oneBucket mode 5 with shouldBeLimited := fun _ _ _ => false }

/-- Its only check is denied, and after a failure its bucket is charged. -/
theorem forNone_limits :
    ClockNeverGoesBack 0 [1, 2] ∧
    ¬ LeavesOutExempted ℚ (forNone .attempt) (newState 60 0) [.check (checkAt 1)] ∧
    ¬ LeavesOutExempted ℚ (forNone .failure) (newState 60 0) [.charge (failureAt 2)] := by
  refine ⟨by simp [ClockNeverGoesBack], ?_, ?_⟩
  · intro h
    have hpasses := h.passes (checkAt 1) ⟨some false, []⟩ (List.mem_singleton_self _) rfl
    cases hpasses
  · intro h
    have huncharged := h.uncharged (.charge (failureAt 2)) _ (List.mem_singleton_self _) rfl
    have hcharged : (forNone .failure).postCharges (failureAt 2) = [("a", 1)] :=
      oneBucket_postCharges 5 2
    simp only [respond, Reply.charges, hcharged] at huncharged
    cases huncharged

end AntelopeFirewall.RateLimiter
