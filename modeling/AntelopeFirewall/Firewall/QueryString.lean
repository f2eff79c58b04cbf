import AntelopeFirewall.Firewall.Gates
import AntelopeFirewall.Routing.RoundRobin

/-!
# The Query String

A client can ask for a node in the query of a read request, and nothing else in the firewall
reads a query.

- `IgnoresQuery` says so of the filters, the limiters and the matching rules of a firewall,
  and `ignoresQuery` that a built firewall has no others,
- `receive_setQuery`, `checkRatelimiters_setQuery`, `forward_setQuery` and `relay_setQuery`
  carry that through the phases of a request,
- `query_buys_node_only` compares the runs of two requests that differ in their queries.
-/

namespace AntelopeFirewall

open Library

/-! ## Another query -/

def RequestInfo.setQuery (info : RequestInfo) (query : Option String) : RequestInfo :=
  { info with uri := { info.uri with query := query } }

def Request.setQuery (request : Request) (query : Option String) : Request :=
  { request with uri := { request.uri with query := query } }

namespace Firewall

def Received.setQuery (received : Received) (query : Option String) : Received :=
  { received with info := received.info.setQuery query }

/-- No function of a firewall sees a difference between two queries. -/
structure IgnoresQuery (F : Type) [F32 F] (fw : Firewall) : Prop where
  filters : ∀ filter ∈ fw.filters, ∀ info body now query,
    filter.shouldRequestPass (info.setQuery query) body now =
      filter.shouldRequestPass info body now
  checks : ∀ limiter ∈ fw.ratelimiters, ∀ state info body order now tick query,
    limiter.shouldRequestPass F state ⟨info.setQuery query, body, order, now, tick⟩ =
      limiter.shouldRequestPass F state ⟨info, body, order, now, tick⟩
  charges : ∀ limiter ∈ fw.ratelimiters, ∀ state info body response order now query,
    limiter.postIncrement state ⟨info.setQuery query, body, response, order, now⟩ =
      limiter.postIncrement state ⟨info, body, response, order, now⟩
  rules : ∀ health info body query,
    fw.matchingEngine.findMatchingUrls health (info.setQuery query) body =
      fw.matchingEngine.findMatchingUrls health info body

/-- The buckets of a request are read off its body, its path and its address. -/
theorem getBuckets_setQuery (crates : Crates) (select : Table String (Finset String))
    (bucket : RatelimitBucket) (name : String) (info : RequestInfo) (body cached : Json)
    (query : Option String) :
    bucket.getBuckets crates select name (info.setQuery query) body cached =
      bucket.getBuckets crates select name info body cached := by
  cases bucket with
  | contract => rfl
  | ip => rfl
  | sender => rfl
  | table => rfl

/-- The functions of a built firewall read the path, the address and the body. -/
theorem ignoresQuery {F : Type} [F32 F] {crates : Crates} {config : Config} {fw : Firewall}
    (hbuild : fromConfig crates config = .ok fw) : fw.IgnoresQuery F := by
  obtain ⟨checked, rfl⟩ := fromConfig_ok hbuild
  have hlimiters : ∀ limiter ∈ checked.firewall.ratelimiters, ∃ ratelimit : RatelimitConfig,
      newRatelimiter crates (selectAccounts config.ratelimit) ratelimit = .ok limiter := by
    intro limiter hmem
    obtain ⟨ratelimit, -, hnew⟩ := mem_addRatelimiters checked.ratelimiters_eq hmem
    exact ⟨ratelimit, hnew⟩
  constructor
  · -- there is one filter, which takes the path, the body and the address
    intro filter hmem info body now query
    obtain rfl := List.mem_singleton.mp hmem
    rfl
  · intro limiter hmem state info body order now tick query
    obtain ⟨ratelimit, hnew⟩ := hlimiters limiter hmem
    unfold newRatelimiter at hnew
    split at hnew
    · cases hnew
      -- the buckets are those of the address or of the body
      unfold RateLimiter.shouldRequestPass RateLimiter.rateUsed
      simp only [getBuckets_setQuery]
      cases ratelimit.limitOn with
      | attempt => rfl
      | failure => rfl
    · cases hnew
  · intro limiter hmem state info body response order now query
    obtain ⟨ratelimit, hnew⟩ := hlimiters limiter hmem
    unfold newRatelimiter at hnew
    split at hnew
    · cases hnew
      unfold RateLimiter.postIncrement RateLimiter.postCharges
      simp only [getBuckets_setQuery]
      cases ratelimit.limitOn with
      | attempt => rfl
      | failure => rfl
    · cases hnew
  · intro health info body query
    unfold CheckedConfig.firewall assemble MatchingEngine.findMatchingUrls
    cases config.healthcheck with
    | none => rfl
    | some _ => rfl

/-! ## The phases -/

section Phases

variable {F : Type} [F32 F] {fw : Firewall} {crates : Crates}

theorem passesFilters_setQuery (hignores : fw.IgnoresQuery F) (info : RequestInfo) (body : Json)
    (filterNow : Nat → Nat) (query : Option String) :
    fw.passesFilters (info.setQuery query) body filterNow =
      fw.passesFilters info body filterNow := by
  rw [Bool.eq_iff_iff, passesFilters_iff, passesFilters_iff]
  refine forall_congr' fun i => forall_congr' fun filter => forall_congr' fun hget => ?_
  rw [hignores.filters filter (List.mem_of_getElem? hget)]

/-- A request with another query is received as it would be with its own, or stopped with the
same answer. -/
theorem receive_setQuery (hignores : fw.IgnoresQuery F) (request : Request) (peer : IpAddr)
    (filterNow : Nat → Nat) (query : Option String) :
    fw.receive crates (request.setQuery query) peer filterNow =
      (fw.receive crates request peer filterNow).map fun received => received.setQuery query := by
  let info : RequestInfo :=
    ⟨request.headers, request.uri, fw.resolveClientIp crates request.headers peer⟩
  have hbytes : bodyBytes (request.setQuery query) = bodyBytes request := rfl
  have hhint : (request.setQuery query).sizeHintUpper = request.sizeHintUpper := rfl
  unfold receive
  rw [hbytes, hhint]
  by_cases hsize : request.sizeHintUpper.getD (2 ^ 64 - 1) > fw.maxRequestBodySize
  · rw [if_pos hsize, if_pos hsize]
    rfl
  · rw [if_neg hsize, if_neg hsize]
    cases bodyBytes request with
    | none => rfl
    | some bytes =>
      dsimp only [Request.setQuery]
      cases readBody crates request.method bytes with
      | none => rfl
      | some body =>
        -- the filters give one answer to both
        have hpasses := passesFilters_setQuery hignores info body filterNow query
        dsimp only [info, RequestInfo.setQuery] at hpasses ⊢
        rw [hpasses]
        split
        · by_cases hoptions : request.method = .options
          · simp only [hoptions, ↓reduceIte]
            rfl
          · simp only [hoptions, ↓reduceIte]
            rfl
        · rfl

theorem checkRatelimiters_setQuery {limiters : List RateLimiter}
    (hignores : ∀ limiter ∈ limiters, ∀ state info body order now tick query,
      limiter.shouldRequestPass F state ⟨RequestInfo.setQuery info query, body, order, now, tick⟩ =
        limiter.shouldRequestPass F state ⟨info, body, order, now, tick⟩)
    (received : Received) (check : Nat → CheckReadings) (first : Nat)
    (found : Nat → WindowState) (query : Option String) :
    checkRatelimiters F (received.setQuery query) check first limiters found =
      checkRatelimiters F received check first limiters found := by
  induction limiters generalizing first found with
  | nil => rfl
  | cons limiter rest ih =>
    have hlimiter := hignores limiter (List.mem_cons_self ..)
    have hrest := fun other hother => hignores other (List.mem_cons_of_mem _ hother)
    simp only [checkRatelimiters, Received.setQuery, hlimiter]
    split
    · exact ih hrest _ _
    · rfl
    · rfl

theorem postIncrements_setQuery {limiters : List RateLimiter}
    (hignores : ∀ limiter ∈ limiters, ∀ state info body response order now query,
      limiter.postIncrement state ⟨RequestInfo.setQuery info query, body, response, order, now⟩ =
        limiter.postIncrement state ⟨info, body, response, order, now⟩)
    (received : Received) (response : Json × StatusCode) (charge : Nat → ChargeReadings)
    (first : Nat) (found : Nat → WindowState) (query : Option String) :
    postIncrements (received.setQuery query) response charge first limiters found =
      postIncrements received response charge first limiters found := by
  induction limiters generalizing first found with
  | nil => rfl
  | cons limiter rest ih =>
    have hlimiter := hignores limiter (List.mem_cons_self ..)
    have hrest := fun other hother => hignores other (List.mem_cons_of_mem _ hother)
    simp only [postIncrements, Received.setQuery, hlimiter]
    exact ih hrest _ _

/-- Nothing of the query is sent to a node. -/
theorem forward_setQuery (chosen : Option NodeEntry) (received : Received)
    (query : Option String) :
    forward crates chosen (received.setQuery query) = forward crates chosen received := rfl

/-- An answer is relayed, and charged, without a look at the query. -/
theorem relay_setQuery (hignores : fw.IgnoresQuery F) (received : Received)
    (chosen : Option NodeEntry) (sent : Sent) (reply : Option NodeReply)
    (metrics : Metrics.State) (charge : Nat → ChargeReadings) (found : Nat → WindowState)
    (query : Option String) :
    fw.relay crates ⟨received.setQuery query, chosen, sent⟩ reply metrics charge found =
      fw.relay crates ⟨received, chosen, sent⟩ reply metrics charge found := by
  -- The relay looks at the reply; only the charges look at the request, and not at its query.
  cases reply with
  | none => rfl
  | some reply =>
    unfold relay
    dsimp only
    split
    · cases reply.body with
      | none => rfl
      | some bytes =>
        dsimp only
        cases crates.fromSlice bytes with
        | none => rfl
        | some value =>
          dsimp only
          rw [postIncrements_setQuery hignores.charges]
          rfl
    · rfl

/-- A request that is not for a read endpoint asks for no node. -/
theorem route_setQuery (hignores : fw.IgnoresQuery F) {received : Received}
    (hpath : received.info.uri.path ∉ getEndpoints) (env : Env) (found : Guarded)
    (query : Option String) :
    fw.route F crates (received.setQuery query) env found =
      fw.route F crates received env found := by
  have hasks : ∀ nodes, findPinned (received.setQuery query).info nodes =
      findPinned received.info nodes := by
    intro nodes
    have hnone : requestedUpstream received.info = none := if_pos hpath
    have hnone' : requestedUpstream (received.setQuery query).info = none := if_pos hpath
    unfold findPinned
    rw [hnone, hnone']
  unfold route
  rw [show fw.matchingEngine.findMatchingUrls env.health (received.setQuery query).info
    (received.setQuery query).body = _ from hignores.rules env.health received.info _ query]
  simp only [hasks]
  rfl

end Phases

/-! ## The choice and what follows from it -/

/-- What the routing mode makes of a request: the node that it chooses, or a panic. -/
def modeChoice (F : Type) [F32 F] (fw : Firewall) (crates : Crates) (received : Received)
    (env : Env) (routing : RoutingModeState) : Except Stop (Option NodeEntry) :=
  match (RoutingModeState.choose F crates routing received.info.uri.path
      (env.order.list (fw.matchingEngine.findMatchingUrls env.health received.info received.body))
      env.draw).1 with
  | some node => .ok node
  | none => .error .panic

/-- A choice is made by the routing mode, or it is one of the matched nodes. -/
def MayChoose (F : Type) [F32 F] (fw : Firewall) (crates : Crates) (received : Received)
    (env : Env) (routing : RoutingModeState) (choice : Except Stop (Option NodeEntry)) : Prop :=
  choice = fw.modeChoice F crates received env routing ∨
    ∃ node ∈ fw.matchingEngine.findMatchingUrls env.health received.info received.body,
      choice = .ok (some node)

/-- How a request that is stopped was handled. -/
def Handled.ofStop : Stop → Handled
  | .answer response => ⟨none, some response⟩
  | .panic => ⟨none, none⟩

/-- What a node answers to what it is sent, and the metrics that the answer comes to. -/
abbrev Replies := Sent → Option NodeReply × Metrics.State

/-- What follows from a choice when the nodes answer what they are sent by `replies`: the
request is addressed, answered, and charged for its answer. -/
def follow (fw : Firewall) (crates : Crates) (received : Received)
    (replies : Replies) (charge : Nat → ChargeReadings)
    (charged : Nat → WindowState) (choice : Except Stop (Option NodeEntry)) :
    Handled × (Nat → WindowState) :=
  match choice with
  | .error stop => (Handled.ofStop stop, charged)
  | .ok chosen =>
    match forward crates chosen received with
    | .error stop => (Handled.ofStop stop, charged)
    | .ok sent =>
      let relayed := fw.relay crates ⟨received, chosen, sent⟩ (replies sent).1 (replies sent).2
        charge charged
      (⟨some ⟨received, chosen, sent⟩, relayed.1⟩, relayed.2)

/-- Take a request through a firewall whose nodes answer what they are sent by `replies`. -/
def handleWith (F : Type) [F32 F] (fw : Firewall) (crates : Crates)
    (replies : Replies) (request : Request) (peer : IpAddr) (env : Env)
    (found : Guarded) : Handled × Guarded :=
  let answer :=
    match (fw.dispatch F crates request peer env found).1 with
    | .ok d => replies d.sent
    | .error _ => (none, env.metrics)
  fw.handleRequest F crates request peer { env with reply := answer.1, metrics := answer.2 } found

/-- What the client and the nodes see of a request: the chosen node with what it is sent, and
the response. -/
def Handled.shown (handled : Handled) : Option (Option NodeEntry × Sent) × Option Response :=
  (handled.dispatched.map fun d => (d.chosen, d.sent), handled.response)

section Runs

variable {F : Type} [F32 F] {fw : Firewall} {crates : Crates}
  {replies : Replies} {request : Request} {peer : IpAddr} {env : Env}
  {found : Guarded}

/-- A request does not see the answer before it is sent. -/
theorem dispatch_reply (reply : Option NodeReply) (metrics : Metrics.State) :
    fw.dispatch F crates request peer { env with reply := reply, metrics := metrics } found =
      fw.dispatch F crates request peer env found := rfl

theorem handleWith_stopped {stop : Stop} {left : Guarded}
    (h : fw.dispatch F crates request peer env found = (.error stop, left)) :
    fw.handleWith F crates replies request peer env found = (Handled.ofStop stop, left) := by
  unfold handleWith handleRequest
  dsimp only
  rw [dispatch_reply, h]
  cases stop with
  | answer response => rfl
  | panic => rfl

theorem handleWith_dispatched {d : Dispatch}
    (h : (fw.dispatch F crates request peer env found).1 = .ok d) :
    fw.handleWith F crates replies request peer env found =
      let relayed := fw.relay crates d (replies d.sent).1 (replies d.sent).2 env.charge
        (fw.dispatch F crates request peer env found).2.charged
      (⟨some d, relayed.1⟩,
        { (fw.dispatch F crates request peer env found).2 with charged := relayed.2 }) := by
  have hreply : (fw.dispatch F crates request peer { env with
      reply := (replies d.sent).1, metrics := (replies d.sent).2 } found).1 = .ok d := h
  unfold handleWith
  rw [h]
  exact handleRequest_of_dispatch hreply

/-- Past the limiters a request is routed, and the rest follows from the choice. -/
theorem handleWith_routed {received : Received}
    (hreceived : fw.receive crates request peer env.filterNow = .ok received)
    (hlimited : (checkRatelimiters F received env.check 0 fw.ratelimiters found.checked).1 =
      .ok ()) :
    let routed := fw.route F crates received env { found with
      checked := (checkRatelimiters F received env.check 0 fw.ratelimiters found.checked).2 }
    let followed := fw.follow crates received replies env.charge found.charged routed.1
    fw.handleWith F crates replies request peer env found =
      (followed.1, { routed.2 with charged := followed.2 }) := by
  intro routed
  have hdispatched : fw.dispatch F crates request peer env found =
      (routed.1.bind fun chosen => (forward crates chosen received).map fun sent =>
        ⟨received, chosen, sent⟩, routed.2) := dispatch_routed hreceived hlimited
  have hcharged : routed.2.charged = found.charged := (route_left received).2
  obtain ⟨choice, left⟩ := routed
  dsimp only at hdispatched hcharged ⊢
  -- routing has charged nothing
  rw [← hcharged]
  cases choice with
  | error stop => exact handleWith_stopped hdispatched
  | ok chosen =>
    simp only [Except.bind, follow] at hdispatched ⊢
    cases hforward : forward crates chosen received with
    | error stop =>
      rw [hforward] at hdispatched
      exact handleWith_stopped hdispatched
    | ok sent =>
      rw [hforward] at hdispatched
      rw [handleWith_dispatched (congrArg Prod.fst hdispatched), hdispatched]

/-- A request that no node is matched to is not routed. -/
theorem route_unmatched {received : Received}
    (h : fw.matchingEngine.findMatchingUrls env.health received.info received.body = ∅) :
    fw.route F crates received env found =
      (.error (.answer (getErrorResponse "Failed to find a route for your request.")), found) := by
  unfold route
  rw [h]
  rfl

/-- Whatever the query asks for, a matched request goes where the routing mode sends it or to
one of the matched nodes. -/
theorem route_mayChoose {received : Received}
    (hne : (fw.matchingEngine.findMatchingUrls env.health received.info received.body).Nonempty) :
    fw.MayChoose F crates received env found.routing
      (fw.route F crates received env found).1 := by
  cases hpin : (fw.limitPin crates received.info.ip env.pinNow (findPinned received.info
      (env.order.list (fw.matchingEngine.findMatchingUrls env.health received.info
        received.body))) found.pins).1 with
  | none =>
    left
    rw [route_unhonored rfl hne hpin]
    rfl
  | some node =>
    right
    have hrouted := route_pinned (F := F) rfl hne hpin
    exact ⟨node, route_mem hrouted, hrouted⟩

/-- What may be chosen does not depend on the query. -/
theorem mayChoose_setQuery (hignores : fw.IgnoresQuery F) {received : Received}
    {routing : RoutingModeState} {choice : Except Stop (Option NodeEntry)}
    (query : Option String) :
    fw.MayChoose F crates (received.setQuery query) env routing choice ↔
      fw.MayChoose F crates received env routing choice := by
  have hmatched : fw.matchingEngine.findMatchingUrls env.health (received.setQuery query).info
      (received.setQuery query).body = _ :=
    hignores.rules env.health received.info received.body query
  unfold MayChoose modeChoice
  rw [hmatched]
  rfl

/-- What follows from a choice does not depend on the query, but for the record of it. -/
theorem follow_setQuery (hignores : fw.IgnoresQuery F) {received : Received}
    (charge : Nat → ChargeReadings) (charged : Nat → WindowState)
    (choice : Except Stop (Option NodeEntry)) (query : Option String) :
    (fw.follow crates (received.setQuery query) replies charge charged choice).1.shown =
        (fw.follow crates received replies charge charged choice).1.shown ∧
      (fw.follow crates (received.setQuery query) replies charge charged choice).2 =
        (fw.follow crates received replies charge charged choice).2 := by
  cases choice with
  | error stop => exact ⟨rfl, rfl⟩
  | ok chosen =>
    simp only [follow, forward_setQuery]
    cases forward crates chosen received with
    | error stop => exact ⟨rfl, rfl⟩
    | ok sent =>
      simp only [relay_setQuery hignores]
      exact ⟨rfl, trivial⟩

end Runs

/-! ## Two queries -/

/-- What the filters, the limiters and the rules are given of a request. -/
def infoOf (fw : Firewall) (crates : Crates) (request : Request) (peer : IpAddr) : RequestInfo :=
  ⟨request.headers, request.uri, fw.resolveClientIp crates request.headers peer⟩

/-- The runs of two requests show the same and leave the same state. -/
def SameRuns (F : Type) [F32 F] (fw : Firewall) (crates : Crates)
    (replies : Replies) (a b : Request) (peer : IpAddr) (env : Env)
    (found : Guarded) : Prop :=
  (fw.handleWith F crates replies a peer env found).1.shown =
      (fw.handleWith F crates replies b peer env found).1.shown ∧
    (fw.handleWith F crates replies a peer env found).2 =
      (fw.handleWith F crates replies b peer env found).2

/-- The run of a request is what follows from a choice. -/
def Follows (F : Type) [F32 F] (fw : Firewall) (crates : Crates)
    (replies : Replies) (request : Request) (peer : IpAddr) (env : Env)
    (found : Guarded) (received : Received) (choice : Except Stop (Option NodeEntry)) : Prop :=
  (fw.handleWith F crates replies request peer env found).1.shown =
      (fw.follow crates received replies env.charge found.charged choice).1.shown ∧
    (fw.handleWith F crates replies request peer env found).2.charged =
      (fw.follow crates received replies env.charge found.charged choice).2

/-- Two requests differ at most in the node that is chosen for them. -/
structure DifferInNodeOnly (F : Type) [F32 F] (fw : Firewall) (crates : Crates)
    (replies : Replies) (a b : Request) (peer : IpAddr) (env : Env)
    (found : Guarded) : Prop where
  /-- Every filter decides alike. -/
  filters : ∀ filter ∈ fw.filters, ∀ body now,
    filter.shouldRequestPass (fw.infoOf crates a peer) body now =
      filter.shouldRequestPass (fw.infoOf crates b peer) body now
  /-- Every limiter decides alike and is left with the same counts. -/
  checks : ∀ limiter ∈ fw.ratelimiters, ∀ state body order now tick,
    limiter.shouldRequestPass F state ⟨fw.infoOf crates a peer, body, order, now, tick⟩ =
      limiter.shouldRequestPass F state ⟨fw.infoOf crates b peer, body, order, now, tick⟩
  charges : ∀ limiter ∈ fw.ratelimiters, ∀ state body response order now,
    limiter.postIncrement state ⟨fw.infoOf crates a peer, body, response, order, now⟩ =
      limiter.postIncrement state ⟨fw.infoOf crates b peer, body, response, order, now⟩
  checked : (fw.handleWith F crates replies a peer env found).2.checked =
    (fw.handleWith F crates replies b peer env found).2.checked
  /-- The matched sets are the same. -/
  matched : ∀ body, fw.matchingEngine.findMatchingUrls env.health (fw.infoOf crates a peer) body =
    fw.matchingEngine.findMatchingUrls env.health (fw.infoOf crates b peer) body
  /-- What is sent goes to the path of the requests, without a query. -/
  sent : ∀ request ∈ [a, b], ∀ d,
    (fw.handleWith F crates replies request peer env found).1.dispatched = some d →
    ∃ base, d.sent.url = (crates.setPath base a.uri.path).setQuery none
  /-- A node that is chosen is a matched node. -/
  chosen : ∀ request ∈ [a, b], ∀ d node,
    (fw.handleWith F crates replies request peer env found).1.dispatched = some d →
    d.chosen = some node →
    node ∈ fw.matchingEngine.findMatchingUrls env.health (fw.infoOf crates a peer)
      d.received.body
  /-- On a push endpoint there is no difference. -/
  push : a.uri.path ∈ pushEndpoints → fw.SameRuns F crates replies a b peer env found
  /-- On a read endpoint both follow, by the same rule, from choices that are matched nodes or
  what the routing mode comes to. -/
  read : fw.SameRuns F crates replies a b peer env found ∨
    ∃ received choiceA choiceB, fw.receive crates a peer env.filterNow = .ok received ∧
      fw.MayChoose F crates received env found.routing choiceA ∧
      fw.MayChoose F crates received env found.routing choiceB ∧
      fw.Follows F crates replies a peer env found received choiceA ∧
      fw.Follows F crates replies b peer env found received choiceB
  /-- The routing state of a built firewall does not change. -/
  routing : found.routing = fw.routingMode →
    (fw.handleWith F crates replies a peer env found).2.routing =
      (fw.handleWith F crates replies b peer env found).2.routing

section Comparison

variable {F : Type} [F32 F] {fw : Firewall} {crates : Crates}
  {replies : Replies} {request : Request} {peer : IpAddr} {env : Env}
  {found : Guarded}

/-- What is sent for a request goes to the path of the request, without a query, and a chosen
node is a matched one. -/
theorem handleWith_dispatched_sent {d : Dispatch}
    (h : (fw.handleWith F crates replies request peer env found).1.dispatched = some d) :
    (∃ base, d.sent.url = (crates.setPath base request.uri.path).setQuery none) ∧
      ∀ node, d.chosen = some node → node ∈ fw.matchingEngine.findMatchingUrls env.health
        (fw.infoOf crates request peer) d.received.body := by
  unfold handleWith at h
  have hreplied := handleRequest_dispatched.mp h
  rw [dispatch_reply] at hreplied
  obtain ⟨hreceived, -, hrouted, hforward⟩ := dispatch_ok_iff.mp hreplied
  have hinfo : d.received.info = fw.infoOf crates request peer :=
    (receive_ok_iff.mp hreceived).2.2.1
  rw [← hinfo]
  constructor
  · obtain ⟨base, hurl, -⟩ := forward_url hforward
    rw [hinfo] at hurl
    exact ⟨base, hurl⟩
  · intro node hnode
    rw [hnode] at hrouted
    exact route_mem hrouted

/-- A request is addressed and answered alike for two queries. -/
theorem follows_setQuery (hignores : fw.IgnoresQuery F) {received : Received}
    {choice : Except Stop (Option NodeEntry)} (query : Option String) :
    fw.Follows F crates replies request peer env found (received.setQuery query) choice ↔
      fw.Follows F crates replies request peer env found received choice := by
  unfold Follows
  rw [(follow_setQuery hignores env.charge found.charged choice query).1,
    (follow_setQuery hignores env.charge found.charged choice query).2]

/-- All queries of a request lead to the same run, or each leads to what follows from a
choice. -/
theorem runs_setQuery (hignores : fw.IgnoresQuery F) (crates : Crates)
    (replies : Replies) (request : Request) (peer : IpAddr) (env : Env)
    (found : Guarded) :
    (∃ handled left, ∀ query,
      fw.handleWith F crates replies (request.setQuery query) peer env found = (handled, left)) ∨
    ∃ received, fw.receive crates request peer env.filterNow = .ok received ∧
      ∀ query,
        let routed := fw.route F crates (received.setQuery query) env { found with
          checked := (checkRatelimiters F received env.check 0 fw.ratelimiters found.checked).2 }
        fw.MayChoose F crates received env found.routing routed.1 ∧
        fw.Follows F crates replies (request.setQuery query) peer env found received routed.1 ∧
        (fw.handleWith F crates replies (request.setQuery query) peer env found).2 =
          { routed.2 with charged :=
            (fw.follow crates received replies env.charge found.charged routed.1).2 } := by
  have hlimiters : ∀ received query, checkRatelimiters F (Received.setQuery received query)
      env.check 0 fw.ratelimiters found.checked =
      checkRatelimiters F received env.check 0 fw.ratelimiters found.checked :=
    fun received query => checkRatelimiters_setQuery hignores.checks received _ _ _ query
  cases hreceived : fw.receive crates request peer env.filterNow with
  | error stop =>
    -- the filters stop the request, or something before them
    refine .inl ⟨.ofStop stop, found, ?_⟩
    intro query
    have hstopped : fw.receive crates (request.setQuery query) peer env.filterNow =
        .error stop := by
      rw [receive_setQuery hignores, hreceived]
      rfl
    exact handleWith_stopped (dispatch_unreceived hstopped)
  | ok received =>
    have hwith : ∀ query, fw.receive crates (request.setQuery query) peer env.filterNow =
        .ok (received.setQuery query) := by
      intro query
      rw [receive_setQuery hignores, hreceived]
      rfl
    let left : Guarded := { found with
      checked := (checkRatelimiters F received env.check 0 fw.ratelimiters found.checked).2 }
    cases hlimited : (checkRatelimiters F received env.check 0 fw.ratelimiters
        found.checked).1 with
    | error stop =>
      refine .inl ⟨.ofStop stop, left, ?_⟩
      intro query
      rw [← hlimiters received query] at hlimited
      have hdispatched := dispatch_limited (hwith query) hlimited
      rw [hlimiters] at hdispatched
      exact handleWith_stopped hdispatched
    | ok _ =>
      have hrun : ∀ query,
          fw.handleWith F crates replies (request.setQuery query) peer env found = _ :=
        fun query => handleWith_routed (hwith query)
          ((congrArg Prod.fst (hlimiters received query)).trans hlimited)
      simp only [hlimiters] at hrun
      have hrules : ∀ query, fw.matchingEngine.findMatchingUrls env.health
          (received.setQuery query).info (received.setQuery query).body = _ :=
        fun query => hignores.rules env.health received.info received.body query
      rcases Finset.eq_empty_or_nonempty (fw.matchingEngine.findMatchingUrls env.health
        received.info received.body) with hempty | hne
      · -- there is no node for the path
        let stop : Stop :=
          .answer (getErrorResponse "Failed to find a route for your request.")
        refine .inl ⟨.ofStop stop, left, ?_⟩
        intro query
        rw [hrun query, route_unmatched ((hrules query).trans hempty)]
        rfl
      · refine .inr ⟨received, rfl, fun query => ⟨?_, ?_, ?_⟩⟩
        · rw [← mayChoose_setQuery hignores query]
          apply route_mayChoose
          rw [hrules query]
          exact hne
        · rw [← follows_setQuery hignores query]
          unfold Follows
          rw [hrun query]
          exact ⟨rfl, rfl⟩
        · rw [hrun query, (follow_setQuery hignores _ _ _ query).2]

/-- **The query buys a node choice only**: the runs of two requests that differ in their
queries differ at most in the choice of a matched node, and on a push endpoint not even in
that. -/
theorem query_buys_node_only {config : Config} (hbuild : fromConfig crates config = .ok fw)
    (replies : Replies) (request : Request) (peer : IpAddr) (env : Env)
    (found : Guarded) (first second : Option String) :
    DifferInNodeOnly F fw crates replies (request.setQuery first) (request.setQuery second) peer
      env found := by
  have hignores : fw.IgnoresQuery F := ignoresQuery hbuild
  have hinfo : ∀ query, fw.infoOf crates (request.setQuery query) peer =
      (fw.infoOf crates request peer).setQuery query := fun _ => rfl
  have hruns := runs_setQuery hignores crates replies request peer env found
  constructor
  · intro filter hmem body now
    rw [hinfo, hinfo, hignores.filters filter hmem, hignores.filters filter hmem]
  · intro limiter hmem state body order now tick
    rw [hinfo, hinfo, hignores.checks limiter hmem, hignores.checks limiter hmem]
  · intro limiter hmem state body response order now
    rw [hinfo, hinfo, hignores.charges limiter hmem, hignores.charges limiter hmem]
  · rcases hruns with ⟨handled, left, hruns⟩ | ⟨received, -, hruns⟩
    · rw [hruns, hruns]
    · rw [(hruns first).2.2, (hruns second).2.2]
      exact (route_left _).1.trans (route_left _).1.symm
  · intro body
    rw [hinfo, hinfo, hignores.rules, hignores.rules]
  · intro other hother d hd
    rcases List.mem_pair.mp hother with rfl | rfl
    · exact (handleWith_dispatched_sent hd).1
    · exact (handleWith_dispatched_sent hd).1
  · intro other hother d node hd hnode
    rcases List.mem_pair.mp hother with rfl | rfl
    · exact (handleWith_dispatched_sent hd).2 node hnode
    · have hmem := (handleWith_dispatched_sent hd).2 node hnode
      rw [hinfo, hignores.rules] at hmem
      rw [hinfo, hignores.rules]
      exact hmem
  · intro hpath
    rcases hruns with ⟨handled, left, hruns⟩ | ⟨received, hreceived, hruns⟩
    · unfold SameRuns
      rw [hruns, hruns]
      exact ⟨rfl, rfl⟩
    · have hpush : received.info.uri.path ∉ getEndpoints := by
        rw [(receive_ok_iff.mp hreceived).2.2.1]
        exact not_mem_getEndpoints hpath
      -- neither of the two asks for a node, so the choices are the same
      simp only [route_setQuery hignores hpush] at hruns
      obtain ⟨-, hfirst, hleft⟩ := hruns first
      obtain ⟨-, hsecond, hleft'⟩ := hruns second
      exact ⟨hfirst.1.trans hsecond.1.symm, hleft.trans hleft'.symm⟩
  · rcases hruns with ⟨handled, left, hruns⟩ | ⟨received, hreceived, hruns⟩
    · left
      unfold SameRuns
      rw [hruns, hruns]
      exact ⟨rfl, rfl⟩
    · right
      have hwith : fw.receive crates (request.setQuery first) peer env.filterNow =
          .ok (received.setQuery first) := by
        rw [receive_setQuery hignores, hreceived]
        rfl
      exact ⟨received.setQuery first, _, _, hwith,
        (mayChoose_setQuery hignores first).mpr (hruns first).1,
        (mayChoose_setQuery hignores first).mpr (hruns second).1,
        (follows_setQuery hignores first).mpr (hruns first).2.1,
        (follows_setQuery hignores first).mpr (hruns second).2.1⟩
  · intro hrouting
    obtain ⟨checked, rfl⟩ := fromConfig_ok hbuild
    exact (RoutingModeState.handleRequest_routingMode checked hrouting).trans
      (RoutingModeState.handleRequest_routingMode checked hrouting).symm

end Comparison

/-- A request that names the only node, and the same request without a name. -/
theorem query_buys_node_only_getOne :
    ∃ fw, fromConfig (.small []) (oneGetNode []) = .ok fw ∧
      DifferInNodeOnly ℚ fw (.small []) (fun _ => (none, quietMetrics))
        ((infoRequest none).setQuery (some "upstream=get_one")) ((infoRequest none).setQuery none)
        (.v4 0) quietEnv quietState := by
  have hlimiters : addRatelimiters (.small []) (selectAccounts []) [] [] = .ok [] := rfl
  obtain ⟨checked, hbuild, -⟩ := oneGetNode_built rfl hlimiters
  exact ⟨checked.firewall, hbuild, query_buys_node_only hbuild _ _ _ _ _ _ _⟩

end Firewall

end AntelopeFirewall
