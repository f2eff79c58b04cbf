import AntelopeFirewall.Firewall.Refusals
import AntelopeFirewall.HealthChecker
import AntelopeFirewall.Routing.Selectable

/-!
# Every Request Is Answered

A task that panics leaves its client without an answer. `handle_request` unwraps in several
places: the clock of a limiter, the weights and the hosts of the nodes, the headers it writes, the
counters of the answer, the body of the node. Here a firewall that was built from a configuration
is followed through all of them. The counters that are registered before the sending are in
`Metrics.Registration`.

- `limited_answers`, `routed`, `forwarded` are about one phase each,
- `unanswered_iff` is about the requests of the firewall, in any interleaving.
-/

namespace AntelopeFirewall

open Library Library.Concurrent

namespace RateLimiter

variable {F : Type} [F32 F]

/-- A limiter without a document answers when no bucket is read before the window of the check. -/
theorem shouldRequestPass_answers {limiter : RateLimiter} (hcache : limiter.cache = none)
    {state : WindowState} {attempt : Attempt}
    (hticks : ∀ bucket, 10 ^ 9 * (getCurrentWindow limiter.windowDuration attempt.now *
      limiter.windowDuration) ≤ attempt.tick bucket) :
    (shouldRequestPass F limiter state attempt).1.verdict ≠ none := by
  unfold shouldRequestPass
  rw [hcache, JsonDataCache.handleCacheOption_none]
  dsimp only
  split
  · refine checkBuckets_answers fun bucket _ => ?_
    rw [updateCurrentWindow_currentWindow]
    exact hticks bucket
  · exact Option.some_ne_none _

end RateLimiter

namespace Firewall

/-- No check of a request reads the clock before the window that it opened. -/
def ReadsForward (fw : Firewall) (env : Env) : Prop :=
  ∀ (i : Fin fw.ratelimiters.length) (bucket : String),
    10 ^ 9 * (RateLimiter.getCurrentWindow (fw.limiterAt i).windowDuration (env.check i).now *
      (fw.limiterAt i).windowDuration) ≤ (env.check i).tick bucket

variable {F : Type} [F32 F] {fw : Firewall} {crates : Crates} {request : Request}
  {peer : IpAddr} {env : Env} {found : Guarded} {received : Received}

/-! ## One phase at a time -/

theorem received_answers {filterNow : Nat → Nat} :
    fw.receive crates request peer filterNow ≠ .error .panic := by
  intro h
  obtain ⟨response, hanswer, -⟩ := receive_error_cases h
  cases hanswer

/-- The limiters of a configuration come to a verdict. -/
theorem limited_answers (hcache : ∀ limiter ∈ fw.ratelimiters, limiter.cache = none)
    (hticks : ReadsForward fw env) :
    (checkRatelimiters F received env.check 0 fw.ratelimiters found.checked).1 ≠
      .error .panic := by
  -- For the induction: the limiters from some place on, with whatever counts they find.
  suffices hgeneral : ∀ (limiters : List RateLimiter) (first : Nat) (counts : Nat → WindowState),
      (∀ k limiter, limiters[k]? = some limiter → fw.ratelimiters[first + k]? = some limiter) →
        (checkRatelimiters F received env.check first limiters counts).1 ≠ .error .panic by
    exact hgeneral fw.ratelimiters 0 found.checked fun k limiter hget => by rwa [Nat.zero_add]
  intro limiters
  induction limiters with
  | nil =>
    intro first counts _ h
    cases h
  | cons limiter rest ih =>
    intro first counts hplaces
    have hget : fw.ratelimiters[first]? = some limiter := hplaces 0 limiter rfl
    obtain ⟨hlt, rfl⟩ := List.getElem?_eq_some_iff.mp hget
    simp only [checkRatelimiters]
    split
    -- the limiter lets the request through, and the next one is asked
    · refine ih (first + 1) _ fun k other hother => ?_
      rw [Nat.add_right_comm, Nat.add_assoc]
      exact hplaces (k + 1) other hother
    -- a refusal is an answer
    · intro h
      cases h
    -- and no check is without a verdict, as its clock is not early
    · next hverdict =>
      exact absurd hverdict (RateLimiter.shouldRequestPass_answers
        (hcache _ (List.getElem_mem hlt)) (hticks ⟨first, hlt⟩))

/-- After the sending only counters that cannot be raised and a body that cannot be read leave a
request without an answer. -/
theorem relay_unanswered_iff {d : Dispatch} {reply : Option NodeReply} {metrics : Metrics.State}
    {charge : Nat → ChargeReadings} {counts : Nat → WindowState} :
    (fw.relay crates d reply metrics charge counts).1 = none ↔
      ∃ answer, reply = some answer ∧ (answer.body = none ∨
        ¬ Metrics.CanCount metrics (urlName crates d.chosen) answer.status) := by
  unfold relay
  cases reply with
  | none => simp
  | some answer =>
    simp only [Option.some.injEq, exists_eq_left', ← Metrics.countsAnswer_iff]
    split
    · next hcounted =>
      cases hbody : answer.body with
      | none => simp
      | some bytes =>
        dsimp only
        -- a body that is no JSON has an error response
        cases crates.fromSlice bytes with
        | none => simp [hcounted]
        | some value => simp [hcounted]
    · next hpanics => exact iff_of_true rfl (.inr hpanics)

end Firewall

namespace CheckedConfig

/-- What the two lists of nodes need beyond what the configuration checks. -/
structure Routable (crates : Crates) (config : Config) : Prop where
  hosts : ∀ listed ∈ config.getNodes ++ config.pushNodes, ∀ node,
    listed.entry crates = some node → node.url.hostStr.isSome = true
  getWeight : listWeight config.getNodes < 2 ^ 64
  pushWeight : listWeight config.pushNodes < 2 ^ 64

variable {F : Type} [F32 F] {crates : Crates} {config : Config}
  (checked : CheckedConfig crates config) {request : Request} {peer : IpAddr} {env : Env}
  {found : Guarded} {received : Firewall.Received}

theorem caches {limiter : RateLimiter} (h : limiter ∈ checked.firewall.ratelimiters) :
    limiter.cache = none := by
  obtain ⟨ratelimit, -, hnew⟩ := mem_addRatelimiters checked.ratelimiters_eq h
  exact (RateLimiter.limits_newRatelimiter hnew).cache

theorem host_of_nodesFor (hroutable : Routable crates config) {path : String} {node : NodeEntry}
    (h : node ∈ checked.nodesFor path) : node.url.hostStr.isSome = true := by
  obtain ⟨listed, hlisted, hentry⟩ := checked.mem_nodesFor.mp h
  refine hroutable.hosts listed ?_ node hentry
  unfold classNodes at hlisted
  split at hlisted
  · exact List.mem_append_left _ hlisted
  · split at hlisted
    · exact List.mem_append_right _ hlisted
    · cases hlisted

/-- Of matched nodes one is chosen, whatever the state of the routing mode is. -/
theorem route_answers (hdraws : crates.DrawsWeights) (hroutable : Routable crates config) :
    (checked.firewall.route F crates received env found).1 ≠ .error .panic := by
  let urls := checked.firewall.matchingEngine.findMatchingUrls env.health received.info
    received.body
  -- What is matched is of one of the two lists, whose weights fit together.
  have hnodes : ∀ node ∈ urls, node ∈ checked.nodesFor received.info.uri.path :=
    fun node hnode => (checked.mem_findMatchingUrls.mp hnode).1
  have hfits : ∑ node ∈ urls, node.weight < 2 ^ 64 :=
    (checked.sum_weight_findMatchingUrls_le _ _ _).trans_lt
      (listWeight_classNodes_lt hroutable.getWeight hroutable.pushWeight _)
  rcases urls.eq_empty_or_nonempty with hempty | hne
  · -- nothing was matched
    unfold Firewall.route
    dsimp only
    rw [if_pos (Finset.card_eq_zero.mpr hempty)]
    exact nofun
  · cases hpinned : (checked.firewall.limitPin crates received.info.ip env.pinNow
      (Firewall.findPinned received.info (env.order.list urls)) found.pins).1 with
    | some node =>
      rw [Firewall.route_pinned rfl hne hpinned]
      exact nofun
    | none =>
      -- by the routing state: either the hosts or the sum of the weights is what it needs
      have hselectable : RoutingModeState.Selectable urls found.routing := by
        cases found.routing with
        | leastConnected counts =>
          exact fun node hnode => checked.host_of_nodesFor hroutable (hnodes node hnode)
        | roundRobin counts => exact hfits
        | random => exact hfits
      have hsteps := (RoutingModeState.noPanic_iff (F := F) hdraws hne
        (fun node hnode => checked.weight_pos_of_nodesFor (hnodes node hnode)) found.routing
        env.order).mpr hselectable
      obtain ⟨node, -, hchosen⟩ := RoutingModeState.chosen_of_noPanic
        (env.order.list_ne_nil hne) hsteps received.info.uri.path env.draw
      rw [Firewall.route_unhonored rfl hne hpinned]
      dsimp only
      rw [hchosen]
      exact nofun

theorem forward_answers (hcrates : crates.KeepsHosts) {chosen : Option NodeEntry}
    (hrouted : (checked.firewall.route F crates received env found).1 = .ok chosen) :
    Firewall.forward crates chosen received ≠ .error .panic := by
  obtain ⟨node, rfl⟩ := Firewall.route_isSome hrouted
  have hnode := (checked.mem_findMatchingUrls.mp (Firewall.route_mem hrouted)).1
  obtain ⟨text, hparsed⟩ := checked.parsed_of_nodesFor hnode
  obtain ⟨sent, hforward, -⟩ := Firewall.forward_ok hcrates hparsed received
  rw [hforward]
  exact nofun

/-- A request that is not sent to a node is answered instead. -/
theorem dispatch_answers (hcrates : crates.KeepsHosts) (hdraws : crates.DrawsWeights)
    (hroutable : Routable crates config) (hticks : Firewall.ReadsForward checked.firewall env)
    {stop : Stop}
    (h : (checked.firewall.dispatch F crates request peer env found).1 = .error stop) :
    stop ≠ .panic := by
  -- By the phase that ended the request; none of them panics.
  rintro rfl
  rcases Firewall.dispatch_error_cases h with hreceived | ⟨received, -, hstopped⟩
  · exact Firewall.received_answers hreceived
  · rcases hstopped with hlimited | ⟨left, hrouted | ⟨chosen, hrouted, hforward⟩⟩
    · exact Firewall.limited_answers (fun _ hmem => checked.caches hmem) hticks hlimited
    · exact checked.route_answers hdraws hroutable hrouted
    · exact checked.forward_answers hcrates hrouted hforward

/-- **Answers**: a request is left without an answer exactly if it was sent to a node whose
answer cannot be counted or cannot be read to its end. -/
theorem handleRequest_unanswered_iff (hcrates : crates.KeepsHosts) (hdraws : crates.DrawsWeights)
    (hroutable : Routable crates config) (hticks : Firewall.ReadsForward checked.firewall env) :
    let handled := (checked.firewall.handleRequest F crates request peer env found).1
    handled.response = none ↔
      ∃ d reply, handled.dispatched = some d ∧ env.reply = some reply ∧ (reply.body = none ∨
        ¬ Metrics.CanCount env.metrics (Firewall.urlName crates d.chosen) reply.status) := by
  intro handled
  cases hdispatch : (checked.firewall.dispatch F crates request peer env found).1 with
  | error stop =>
    -- a request that was not sent was answered by the firewall itself
    have hhandled : handled = Firewall.stopped stop :=
      Firewall.handled_of_dispatch_error hdispatch
    have hstop := checked.dispatch_answers hcrates hdraws hroutable hticks hdispatch
    cases stop with
    | answer response => simp [hhandled, Firewall.stopped]
    | panic => exact absurd rfl hstop
  | ok d =>
    have hhandled := congrArg Prod.fst (Firewall.handleRequest_of_dispatch hdispatch)
    have hdispatched : handled.dispatched = some d :=
      Firewall.handleRequest_dispatched.mpr hdispatch
    have hresponse : handled.response = (checked.firewall.relay crates d env.reply env.metrics
        env.charge (checked.firewall.dispatch F crates request peer env found).2.charged).1 :=
      congrArg Firewall.Handled.response hhandled
    rw [hresponse, Firewall.relay_unanswered_iff, hdispatched]
    simp

/-- **Answers in a run**: in any interleaving, from any state, a request that is through was left
without an answer exactly if the node it was sent to answered and the counters of the answer could
not be raised or its body could not be read. -/
theorem unanswered_iff (F : Type) [F32 F] (checked : CheckedConfig crates config)
    (hcrates : crates.KeepsHosts) (hdraws : crates.DrawsWeights)
    (hroutable : Routable crates config)
    (shared : ∀ part : Firewall.Part checked.firewall, part.State)
    (events : List (System.Event (checked.firewall.system F crates))) (j : Nat)
    (task : Firewall.Task) (handled : Firewall.Handled)
    (htask : (Firewall.after F checked.firewall crates shared events).parties[j]? = some task)
    (hended : task.progress = .ended handled)
    (hticks : Firewall.ReadsForward checked.firewall task.env) :
    handled.response = none ↔
      ∃ d reply, handled.dispatched = some d ∧ task.env.reply = some reply ∧ (reply.body = none ∨
        ¬ Metrics.CanCount task.env.metrics (Firewall.urlName crates d.chosen) reply.status) := by
  -- The request ended as its call does, and a call has an answer but in these two cases.
  obtain ⟨incoming, found, progress, -, rfl, hreached⟩ := Firewall.reached_of_mem htask
  dsimp only at hended
  subst hended
  generalize System.visitsBy j (Firewall.logOf F checked.firewall crates shared events) =
    visits at hreached
  cases hreached with
  | ended hhandled =>
    rw [← hhandled]
    exact checked.handleRequest_unanswered_iff hcrates hdraws hroutable hticks

end CheckedConfig

/-! ## One node that answers -/

theorem RoutingModeState.lenient_keepsHosts : lenient.KeepsHosts where
  hostStr_setPath _ _ := rfl
  host_isHeader := by
    intro text url host hurl hhost
    unfold lenient at hurl
    dsimp only at hurl
    split at hurl
    · -- the text without a scheme has no host
      cases hurl
      cases hhost
    · exact (Crates.small_keepsHosts []).host_isHeader text url host hurl hhost

theorem oneGetNode_routable : CheckedConfig.Routable RoutingModeState.lenient (oneGetNode []) where
  hosts := by
    intro listed hlisted node hentry
    obtain rfl := List.mem_singleton.mp hlisted
    cases hentry
    rfl
  getWeight := by decide
  pushWeight := by decide

/-- There is no other node to send a request to. -/
theorem oneGetNode_chosen (checked : CheckedConfig RoutingModeState.lenient (oneGetNode []))
    {F : Type} [F32 F] {request : Request} {peer : IpAddr} {env : Env} {found : Guarded}
    {d : Firewall.Dispatch} (h : (checked.firewall.dispatch F RoutingModeState.lenient request
      peer env found).1 = .ok d) : d.chosen = some getOne := by
  obtain ⟨-, -, hrouted, -⟩ := Firewall.dispatch_ok_iff.mp h
  obtain ⟨node, hnode⟩ := Firewall.route_isSome hrouted
  rw [hnode] at hrouted ⊢
  have hmatched := (checked.mem_findMatchingUrls.mp (Firewall.route_mem hrouted)).1
  obtain ⟨listed, hlisted, hentry⟩ := checked.mem_nodesFor.mp hmatched
  unfold CheckedConfig.classNodes at hlisted
  split at hlisted
  · obtain rfl := List.mem_singleton.mp hlisted
    cases hentry
    rfl
  · -- no push node is listed
    split at hlisted <;> cases hlisted

/-- A request to a node that answers has an answer after eight turns. -/
theorem CheckedConfig.unanswered_iff_oneGet :
    ∃ checked : CheckedConfig RoutingModeState.lenient (oneGetNode []), ∃ task handled,
      (Firewall.after ℚ checked.firewall RoutingModeState.lenient
        (Firewall.fresh checked.firewall 0)
        (.join (Firewall.answeredWith 200) :: List.replicate 8 (.turn 0))).parties[0]? =
          some task ∧
      task.progress = .ended handled ∧ handled.response ≠ none := by
  -- There are no limiters and no pins, so eight turns end the request.
  have hlimiters : addRatelimiters RoutingModeState.lenient (selectAccounts []) [] [] = .ok [] :=
    rfl
  obtain ⟨checked, -, hfw⟩ := oneGetNode_built rfl hlimiters
  have hnone : checked.firewall.ratelimiters.length = 0 := by
    rw [hfw]
    rfl
  let events : List (System.Event (checked.firewall.system ℚ RoutingModeState.lenient)) :=
    .join (Firewall.answeredWith 200) :: List.replicate 8 (.turn 0)
  obtain ⟨task, htask, hzero⟩ := Firewall.ended_alone ℚ checked.firewall
    RoutingModeState.lenient (Firewall.fresh checked.firewall 0) (Firewall.answeredWith 200) 8
    (by rw [hnone])
  obtain ⟨handled, hended⟩ := Firewall.ended_of_remaining_zero hzero
  have hplace : (Firewall.after ℚ checked.firewall RoutingModeState.lenient
      (Firewall.fresh checked.firewall 0) events).parties[0]? = some task := htask
  obtain ⟨incoming, found, progress, hincoming, rfl, hreached⟩ := Firewall.reached_of_mem hplace
  obtain rfl : Firewall.answeredWith 200 = incoming := Option.some_inj.mp hincoming
  refine ⟨checked, _, handled, htask, hended, fun hunanswered => ?_⟩
  obtain ⟨d, reply, hsent, hreply, hcause⟩ := (CheckedConfig.unanswered_iff ℚ checked
    RoutingModeState.lenient_keepsHosts RoutingModeState.lenient_drawsWeights
    oneGetNode_routable (Firewall.fresh checked.firewall 0) events 0 _ handled htask hended
    fun i => absurd i.2 (by omega)).mp hunanswered
  -- The node answered 200 with an empty JSON body.
  cases hreply
  rcases hcause with hbody | hpanics
  · cases hbody
  · -- the counters of its host are stored
    let last : Firewall.Task := ⟨(Firewall.answeredWith 200).request,
      (Firewall.answeredWith 200).peer, (Firewall.answeredWith 200).env, progress⟩
    have hdispatched : last.dispatched = some d := by
      unfold Firewall.Task.dispatched
      rw [hended]
      exact hsent
    rw [oneGetNode_chosen checked (hreached.dispatched hdispatched).1] at hpanics
    exact hpanics (quietMetrics_canCount 200)

end AntelopeFirewall
