import AntelopeFirewall.Config.Basic
import AntelopeFirewall.RateLimiter.Overlap

/-!
# Charging Failing Answers

A limiter in failure mode is to charge the buckets of a request once for every answer of a
node that is not a success. The charge is made at the end of the response path, and two things
leave that path early: a counter of the answer that cannot be registered, and a body that is not
JSON. `failure_charge_iff` says which answers are charged as they should be.
-/

namespace AntelopeFirewall.Firewall

open Library RateLimiter

/-- A limiter that charges answers, as a configuration can have it. -/
theorem limitsFailures_of_mem {crates : Crates} {config : Config}
    (checked : CheckedConfig crates config) {i : Nat} {limiter : RateLimiter}
    (hget : checked.firewall.ratelimiters[i]? = some limiter)
    (hafter : limiter.incrementMode.shouldRunBeforeRequest = false) :
    ∃ limit, LimitsFailures limiter limit := by
  obtain ⟨ratelimit, -, hnew⟩ :=
    mem_addRatelimiters checked.ratelimiters_eq (List.mem_of_getElem? hget)
  unfold newRatelimiter at hnew
  split at hnew
  · cases hnew
    refine ⟨ratelimit.limit, ?_, rfl, rfl⟩
    -- from_config gives a limiter on attempts the mode that runs before the request
    cases hlimit : ratelimit.limitOn with
    | attempt =>
      dsimp only at hafter
      rw [hlimit] at hafter
      cases hafter
    | failure => rfl
  · cases hnew

/-- What a request does to the counts of a limiter when its answer is charged exactly once:
its check at most rolls the window over, and its charge raises the request's buckets by one
if the answer is not a success, and nothing else. -/
structure ChargedOnce (limiter : RateLimiter) (d : Dispatch) (status : StatusCode)
    (checkNow : Nat) (checkFound checkLeft chargeFound chargeLeft : WindowState) : Prop where
  check : checkLeft = updateCurrentWindow limiter.windowDuration checkNow checkFound
  window : chargeLeft.currentWindow = chargeFound.currentWindow
  last : chargeLeft.lastBuckets = chargeFound.lastBuckets
  current : ∀ bucket, chargeLeft.currentBuckets.count bucket =
    chargeFound.currentBuckets.count bucket +
      if bucket ∈ limiter.requestBuckets (d.received.info, d.received.body) then
        if status.isSuccess then 0 else 1
      else 0

/-- The check of a failure-mode limiter of a firewall rolls its window over. -/
theorem checkRatelimiters_failure {F : Type} [F32 F] {received : Received}
    {check : Nat → CheckReadings} {limiters : List RateLimiter} {found : Nat → WindowState}
    (hlimited : (checkRatelimiters F received check 0 limiters found).1 = .ok ()) {i : Nat}
    {limiter : RateLimiter} (hget : limiters[i]? = some limiter)
    (hmode : limiter.incrementMode = .failure) :
    (checkRatelimiters F received check 0 limiters found).2 i =
      updateCurrentWindow limiter.windowDuration (check i).now (found i) := by
  have hone := checkRatelimiters_get hlimited hget
  rw [Nat.zero_add] at hone
  rw [hone, shouldRequestPass_state_failure hmode]

section ChargedOnce

variable {limiter : RateLimiter} {d : Dispatch} {status : StatusCode} {now : Nat}
  {found left : WindowState}

/-- Counts that no charge has touched are right when there was nothing to charge, and only
then. -/
theorem chargedOnce_unchanged_iff
    (hcheck : left = updateCurrentWindow limiter.windowDuration now found)
    (counts : WindowState) :
    ChargedOnce limiter d status now found left counts counts ↔
      status.isSuccess = true ∨ limiter.requestBuckets (d.received.info, d.received.body) = ∅ := by
  constructor
  · intro honce
    by_cases hsuccess : status.isSuccess = true
    · exact .inl hsuccess
    · right
      apply Finset.eq_empty_of_forall_notMem
      intro bucket hbucket
      -- a failure would have raised the bucket
      have hcount := honce.current bucket
      rw [if_pos hbucket, if_neg hsuccess] at hcount
      omega
  · intro hnothing
    refine ⟨hcheck, rfl, rfl, fun bucket => ?_⟩
    rcases hnothing with hsuccess | hempty
    · rw [if_pos hsuccess, ite_self, Nat.add_zero]
    · rw [hempty, if_neg (Finset.notMem_empty _), Nat.add_zero]

/-- The charge after a response is the one that is asked for. -/
theorem chargedOnce_postIncrement {limit : Nat} (hlimits : LimitsFailures limiter limit)
    (hcheck : left = updateCurrentWindow limiter.windowDuration now found)
    (counts : WindowState) (value : Json) (charge : ChargeReadings) :
    ChargedOnce limiter d status now found left counts
      (limiter.postIncrement counts
        ⟨d.received.info, d.received.body, (value, status), charge.order, charge.now⟩) where
  check := hcheck
  window := postIncrement_currentWindow ..
  last := postIncrement_lastBuckets ..
  current := count_postIncrement hlimits _ _

end ChargedOnce

section Relay

variable {fw : Firewall} {crates : Crates} {d : Dispatch} {reply : NodeReply}
  {metrics : Metrics.State} {charge : Nat → ChargeReadings} {found : Nat → WindowState}
  {bytes : List UInt8}

/-- No limiter hears of an answer that is not JSON, or whose counters cannot be raised. -/
theorem relay_left_of_stopped (hbytes : reply.body = some bytes)
    (hstopped : ¬ ((crates.fromSlice bytes).isSome = true ∧
      Metrics.CanCount metrics (urlName crates d.chosen) reply.status)) :
    (fw.relay crates d (some reply) metrics charge found).2 = found := by
  rw [← Metrics.countsAnswer_iff] at hstopped
  simp only [relay, hbytes]
  split
  · next hcounted =>
    -- the counters were raised, so it is the body
    cases hparsed : crates.fromSlice bytes with
    | none => rfl
    | some value => exact absurd ⟨by rw [hparsed]; rfl, hcounted⟩ hstopped
  · rfl

/-- An answer that is JSON reaches the charges once its counters are raised. -/
theorem relay_left_of_parsed (hbytes : reply.body = some bytes) {value : Json}
    (hparsed : crates.fromSlice bytes = some value)
    (hcount : Metrics.CanCount metrics (urlName crates d.chosen) reply.status) :
    (fw.relay crates d (some reply) metrics charge found).2 =
      postIncrements d.received (value, reply.status) charge 0 fw.ratelimiters found := by
  simp only [relay, hbytes, hparsed, if_pos ((Metrics.countsAnswer_iff ..).mpr hcount)]

end Relay

/-- **Failure charge**: every limiter in failure mode charges the answer exactly once, just
when the answer is a success, or its body is JSON and its counters can be raised, or no such
limiter has a bucket for the request. -/
theorem failure_charge_iff {F : Type} [F32 F] {crates : Crates} {config : Config}
    {fw : Firewall} (hbuild : fromConfig crates config = .ok fw) {request : Request}
    {peer : IpAddr} {env : Env} {found : Guarded} {d : Dispatch}
    (hdispatched : (fw.handleRequest F crates request peer env found).1.dispatched = some d)
    {reply : NodeReply} (hreply : env.reply = some reply) {bytes : List UInt8}
    (hbytes : reply.body = some bytes) :
    (∀ i limiter, fw.ratelimiters[i]? = some limiter →
        limiter.incrementMode.shouldRunBeforeRequest = false →
        let left := (fw.handleRequest F crates request peer env found).2
        ChargedOnce limiter d reply.status (env.check i).now (found.checked i) (left.checked i)
          (found.charged i) (left.charged i)) ↔
      (reply.status.isSuccess = true ∨
        ((crates.fromSlice bytes).isSome = true ∧
          Metrics.CanCount env.metrics (urlName crates d.chosen) reply.status) ∨
        ∀ limiter ∈ fw.ratelimiters, limiter.incrementMode.shouldRunBeforeRequest = false →
          limiter.requestBuckets (d.received.info, d.received.body) = ∅) := by
  obtain ⟨checked, rfl⟩ := fromConfig_ok hbuild
  have hok := handleRequest_dispatched.mp hdispatched
  -- The request was sent, so its checks passed and left what the charges find.
  obtain ⟨-, hlimited, -, -⟩ := dispatch_ok_iff.mp hok
  obtain ⟨hchecked, hcharged⟩ := dispatch_left hok
  rw [handleRequest_of_dispatch hok]
  dsimp only
  rw [hchecked, hcharged, hreply]
  by_cases hreached : (crates.fromSlice bytes).isSome = true ∧
      Metrics.CanCount env.metrics (urlName crates d.chosen) reply.status
  · -- every limiter makes its charge
    obtain ⟨value, hparsed⟩ := Option.isSome_iff_exists.mp hreached.1
    rw [relay_left_of_parsed hbytes hparsed hreached.2]
    refine iff_of_true ?_ (.inr (.inl hreached))
    intro i limiter hget hafter
    obtain ⟨limit, hlimits⟩ := limitsFailures_of_mem checked hget hafter
    -- its charge is one of the loop, and finds what the counts were
    have hone : postIncrements d.received (value, reply.status) env.charge 0
        checked.firewall.ratelimiters found.charged (0 + i) = _ :=
      postIncrements_get found.charged hget hafter
    rw [Nat.zero_add] at hone
    rw [hone]
    exact chargedOnce_postIncrement hlimits
      (checkRatelimiters_failure hlimited hget hlimits.mode) (found.charged i) value (env.charge i)
  · -- the path ends before the charges, so every count is where it was
    rw [relay_left_of_stopped hbytes hreached]
    have hunchanged : ∀ i limiter, checked.firewall.ratelimiters[i]? = some limiter →
        limiter.incrementMode.shouldRunBeforeRequest = false →
        (ChargedOnce limiter d reply.status (env.check i).now (found.checked i)
            ((checkRatelimiters F d.received env.check 0 checked.firewall.ratelimiters
              found.checked).2 i) (found.charged i) (found.charged i) ↔
          reply.status.isSuccess = true ∨
            limiter.requestBuckets (d.received.info, d.received.body) = ∅) := by
      intro i limiter hget hafter
      obtain ⟨limit, hlimits⟩ := limitsFailures_of_mem checked hget hafter
      exact chargedOnce_unchanged_iff (checkRatelimiters_failure hlimited hget hlimits.mode) _
    constructor
    · intro hall
      -- a limiter that has a bucket would have had to raise it for a failure
      by_cases hsuccess : reply.status.isSuccess = true
      · exact .inl hsuccess
      · refine .inr (.inr fun limiter hmem hafter => ?_)
        obtain ⟨i, hget⟩ := List.getElem?_of_mem hmem
        have honce := (hunchanged i limiter hget hafter).mp (hall i limiter hget hafter)
        exact honce.resolve_left hsuccess
    · intro hcondition i limiter hget hafter
      apply (hunchanged i limiter hget hafter).mpr
      rcases hcondition with hsuccess | hreached' | hempty
      · exact .inl hsuccess
      · exact absurd hreached' hreached
      · exact .inr (hempty limiter (List.mem_of_getElem? hget) hafter)

/-! ## A bad gateway -/

/-- A limiter that allows each address five failures a minute. -/
def fiveFailures : RatelimitConfig where
  name := "base"
  limitOn := .failure
  bucketType := .ip
  limit := 5
  windowDuration := 60

def baseLimiter : RateLimiter where
  name := "base"
  shouldBeLimited := fun _ _ _ => true
  getBuckets := RatelimitBucket.ip.getBuckets (.small []) ∅
  getRatelimit := fun _ _ _ => 5
  incrementMode := .failure
  cache := none
  windowDuration := 60
  windowDuration_pos := Nat.succ_pos 59

/-- A proxy in front of the node answers with an error page. -/
def badGateway : NodeReply :=
  ⟨502, Crates.loopback 5001, .empty, some (Text.utf8 "<html>502 Bad Gateway</html>")⟩

noncomputable def badGatewayEnv : Env := { quietEnv with reply := some badGateway }

theorem fiveFailures_dispatched :
    ∃ fw d, fromConfig (.small []) (oneGetNode [fiveFailures]) = .ok fw ∧
      fw.ratelimiters = [baseLimiter] ∧
      (fw.handleRequest ℚ (.small []) (infoRequest none) (.v4 0) badGatewayEnv
        quietState).1.dispatched = some d ∧ d.received = infoReceived none := by
  have hlimiters : addRatelimiters (.small []) (selectAccounts [fiveFailures]) []
    [fiveFailures] = .ok [baseLimiter] := rfl
  obtain ⟨checked, hbuild, hfw⟩ := oneGetNode_built rfl hlimiters
  -- the limiter has counted nothing yet
  have hlimited : (checkRatelimiters ℚ (infoReceived none) badGatewayEnv.check 0 [baseLimiter]
      quietState.checked).1 = .ok () := by
    have hverdict : (baseLimiter.shouldRequestPass ℚ (quietState.checked 0)
        ⟨(infoReceived none).info, .null, (badGatewayEnv.check 0).order,
          (badGatewayEnv.check 0).now, (badGatewayEnv.check 0).tick⟩).1.verdict = some true := by
      show (baseLimiter.shouldRequestPass ℚ ⟨0, ∅, ∅⟩
        ⟨(infoReceived none).info, .null, .sorted, 0, fun _ => 0⟩).1.verdict = some true
      decide +kernel
    rw [checkRatelimiters_cons [] hverdict]
    rfl
  obtain ⟨sent, hdispatched⟩ := oneGetNode_dispatch hfw ℚ badGatewayEnv hlimited
  refine ⟨checked.firewall, _, hbuild, ?_, handleRequest_dispatched.mpr hdispatched, rfl⟩
  rw [hfw]
  rfl

/-- The answer is a failure, but the limiter's count for the address stays where it was. -/
theorem badGateway_not_charged :
    ∃ fw d, fromConfig (.small []) (oneGetNode [fiveFailures]) = .ok fw ∧
      (fw.handleRequest ℚ (.small []) (infoRequest none) (.v4 0) badGatewayEnv
        quietState).1.dispatched = some d ∧
      fw.ratelimiters[0]? = some baseLimiter ∧
      baseLimiter.incrementMode.shouldRunBeforeRequest = false ∧
      let left :=
        (fw.handleRequest ℚ (.small []) (infoRequest none) (.v4 0) badGatewayEnv quietState).2
      ¬ ChargedOnce baseLimiter d 502 0 (quietState.checked 0) (left.checked 0)
        (quietState.charged 0) (left.charged 0) := by
  obtain ⟨fw, d, hbuild, hlimiters, hdispatched, hreceived⟩ := fiveFailures_dispatched
  have hfirst : fw.ratelimiters[0]? = some baseLimiter := by rw [hlimiters]; rfl
  have hok := handleRequest_dispatched.mp hdispatched
  have hleft : (fw.handleRequest ℚ (.small []) (infoRequest none) (.v4 0) badGatewayEnv
      quietState).2.charged 0 = quietState.charged 0 := by
    have hnot : (Crates.fromSlice (.small []) (Text.utf8 "<html>502 Bad Gateway</html>")) =
        none := rfl
    rw [handleRequest_of_dispatch hok, (dispatch_left hok).2]
    dsimp only
    have hrelay : (fw.relay (.small []) d (some badGateway) quietMetrics badGatewayEnv.charge
        quietState.charged).2 = quietState.charged := by
      refine relay_left_of_stopped rfl fun h => ?_
      rw [hnot] at h
      exact Bool.noConfusion h.1
    exact congrFun hrelay 0
  refine ⟨fw, d, hbuild, hdispatched, hfirst, rfl, ?_⟩
  -- the charge that is owed would raise the count by one
  intro left honce
  have hcount := honce.current "0.0.0.0"
  have hbucket : "0.0.0.0" ∈ baseLimiter.requestBuckets (d.received.info, d.received.body) := by
    rw [hreceived]
    decide +kernel
  have hfailed : StatusCode.isSuccess 502 = false := by simp [StatusCode.isSuccess]
  rw [hleft, if_pos hbucket, hfailed] at hcount
  simp at hcount

/-- The law for the same answer. -/
theorem failure_charge_iff_badGateway :
    ∃ fw d, fromConfig (.small []) (oneGetNode [fiveFailures]) = .ok fw ∧
      (fw.handleRequest ℚ (.small []) (infoRequest none) (.v4 0) badGatewayEnv
        quietState).1.dispatched = some d ∧
      ((∀ i limiter, fw.ratelimiters[i]? = some limiter →
          limiter.incrementMode.shouldRunBeforeRequest = false →
          let left :=
            (fw.handleRequest ℚ (.small []) (infoRequest none) (.v4 0) badGatewayEnv quietState).2
          ChargedOnce limiter d 502 (badGatewayEnv.check i).now (quietState.checked i)
            (left.checked i) (quietState.charged i) (left.charged i)) ↔
        (StatusCode.isSuccess 502 = true ∨
          (((Crates.small []).fromSlice (Text.utf8 "<html>502 Bad Gateway</html>")).isSome = true ∧
            Metrics.CanCount quietMetrics (urlName (.small []) d.chosen) 502) ∨
          ∀ limiter ∈ fw.ratelimiters, limiter.incrementMode.shouldRunBeforeRequest = false →
            limiter.requestBuckets (d.received.info, d.received.body) = ∅)) := by
  obtain ⟨fw, d, hbuild, -, hdispatched, -⟩ := fiveFailures_dispatched
  -- The node answers with a page that is not JSON, so the other sides are false there.
  have hreply : badGatewayEnv.reply = some badGateway := rfl
  exact ⟨fw, d, hbuild, hdispatched, failure_charge_iff hbuild hdispatched hreply rfl⟩

end AntelopeFirewall.Firewall
