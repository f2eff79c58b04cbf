import AntelopeFirewall.Firewall.Basic

/-!
# The Phases of a Request

What it means that a request got through a phase, one lemma for each phase:

- `receive_ok_iff` and `dispatch_ok_iff`, so that no later proof unfolds the handler,
- `receive_error_cases`, `route_error_cases` and `forward_error` for where a request ends, with
  `dispatch_error_cases`,
- `checkRatelimiters_get` and `postIncrements_get` for a single limiter of the list,
- `route_mem`, `route_pinned` and `route_unpinned` for the choice of the node,
- `forward_ok` for the address it is sent to.
-/

namespace AntelopeFirewall.Firewall

open Library

/-! ## How far a request got -/

section Phases

variable {F : Type} [F32 F] {fw : Firewall} {crates : Crates} {request : Request}
  {peer : IpAddr} {env : Env} {found : Guarded}

/-- A request is received when its body was read and every filter lets it through. -/
theorem receive_ok_iff {filterNow : Nat → Nat} {received : Received} :
    fw.receive crates request peer filterNow = .ok received ↔
      request.sizeHintUpper.getD (2 ^ 64 - 1) ≤ fw.maxRequestBodySize ∧
      request.method ≠ .options ∧
      received.info =
        ⟨request.headers, request.uri, fw.resolveClientIp crates request.headers peer⟩ ∧
      bodyBytes request = some received.bytes ∧
      readBody crates request.method received.bytes = some received.body ∧
      fw.passesFilters received.info received.body filterNow = true := by
  -- The size, the body, its JSON, the filters and the method, in the order of the source.
  obtain ⟨info, bytes, body⟩ := received
  unfold receive
  constructor
  · -- every other way through the checks ends with an answer
    intro h
    split at h
    · cases h
    · next hsize =>
      split at h
      · cases h
      · next bytes' hbytes =>
        dsimp only at h
        split at h
        · cases h
        · next body' hbody =>
          split at h
          · next hpasses =>
            split at h
            · cases h
            · next hoptions =>
              cases h
              exact ⟨Nat.le_of_not_lt hsize, hoptions, rfl, hbytes, hbody, hpasses⟩
          · cases h
  -- under all of the conditions each test takes its last branch
  · intro hconditions
    obtain ⟨hsize, hoptions, rfl, hbytes, hbody, hpasses⟩ := hconditions
    dsimp only at hbytes hbody hpasses ⊢
    rw [if_neg (Nat.not_lt.mpr hsize), hbytes]
    dsimp only
    rw [hbody]
    dsimp only
    rw [if_pos hpasses, if_neg hoptions]

/-- The answers to a request that is not received. -/
theorem receive_error_cases {filterNow : Nat → Nat} {stop : Stop}
    (h : fw.receive crates request peer filterNow = .error stop) :
    ∃ response, stop = .answer response ∧
      (response = bodyTooBig ∨
        response = getErrorResponse "Error occurred while parsing request body." ∨
        response = getErrorResponse "Unable to parse body as JSON." ∨
        response = getBlockedResponse ∨ response = getOptionsResponse) := by
  unfold receive at h
  split at h
  · cases h
    exact ⟨_, rfl, .inl rfl⟩
  · dsimp only at h
    split at h
    · -- the body did not arrive
      cases h
      exact ⟨_, rfl, .inr (.inl rfl)⟩
    · split at h
      · cases h
        exact ⟨_, rfl, .inr (.inr (.inl rfl))⟩
      · split at h
        · split at h
          · -- a preflight request
            cases h
            exact ⟨_, rfl, .inr (.inr (.inr (.inr rfl)))⟩
          · cases h
        · cases h
          exact ⟨_, rfl, .inr (.inr (.inr (.inl rfl)))⟩

/-- A request is dispatched when every phase goes through. -/
theorem dispatch_ok_iff {d : Dispatch} :
    (fw.dispatch F crates request peer env found).1 = .ok d ↔
      fw.receive crates request peer env.filterNow = .ok d.received ∧
      (checkRatelimiters F d.received env.check 0 fw.ratelimiters found.checked).1 = .ok () ∧
      (fw.route F crates d.received env { found with
        checked := (checkRatelimiters F d.received env.check 0 fw.ratelimiters
          found.checked).2 }).1 = .ok d.chosen ∧
      forward crates d.chosen d.received = .ok d.sent := by
  -- The four phases one after the other; the state is that which the checks left.
  obtain ⟨received, chosen, sent⟩ := d
  unfold dispatch
  constructor
  · -- a phase that stops the request stops the whole
    intro h
    split at h
    · cases h
    · next received' hreceived =>
      dsimp only at h
      split at h
      · cases h
      · next hlimited =>
        split at h
        · cases h
        · next chosen' hrouted =>
          split at h
          · cases h
          · next sent' hforward =>
            cases h
            exact ⟨hreceived, hlimited, hrouted, hforward⟩
  -- phases that all succeed are run through
  · intro hphases
    obtain ⟨hreceived, hlimited, hrouted, hforward⟩ := hphases
    dsimp only at hlimited hrouted hforward
    rw [hreceived]
    dsimp only
    rw [hlimited]
    dsimp only
    rw [hrouted]
    dsimp only
    rw [hforward]

/-- A request that is not dispatched was stopped by one of the phases. -/
theorem dispatch_error_cases {stop : Stop}
    (h : (fw.dispatch F crates request peer env found).1 = .error stop) :
    fw.receive crates request peer env.filterNow = .error stop ∨
      ∃ received, fw.receive crates request peer env.filterNow = .ok received ∧
        ((checkRatelimiters F received env.check 0 fw.ratelimiters found.checked).1 =
            .error stop ∨
          ∃ left, (fw.route F crates received env left).1 = .error stop ∨
            ∃ chosen, (fw.route F crates received env left).1 = .ok chosen ∧
              forward crates chosen received = .error stop) := by
  unfold dispatch at h
  split at h
  · next hreceived =>
    cases h
    exact .inl hreceived
  · next received hreceived =>
    refine .inr ⟨received, hreceived, ?_⟩
    dsimp only at h
    split at h
    · next hlimited =>
      cases h
      exact .inl hlimited
    · -- the state that the checks left is that of the routing
      split at h
      · next hrouted =>
        cases h
        exact .inr ⟨_, .inl hrouted⟩
      · next chosen hrouted =>
        split at h
        · next hforward =>
          cases h
          exact .inr ⟨_, .inr ⟨chosen, hrouted, hforward⟩⟩
        · cases h

/-- Past the limiters a request is routed and addressed, and the rest of the state is left as
routing leaves it. -/
theorem dispatch_routed {received : Received}
    (hreceived : fw.receive crates request peer env.filterNow = .ok received)
    (hlimited : (checkRatelimiters F received env.check 0 fw.ratelimiters found.checked).1 =
      .ok ()) :
    let routed := fw.route F crates received env { found with
      checked := (checkRatelimiters F received env.check 0 fw.ratelimiters found.checked).2 }
    fw.dispatch F crates request peer env found =
      (routed.1.bind fun chosen => (forward crates chosen received).map fun sent =>
        ⟨received, chosen, sent⟩, routed.2) := by
  intro routed
  unfold dispatch
  rw [hreceived]
  dsimp only
  rw [hlimited]
  dsimp only
  -- whatever the routing says, the forwarding is all that follows
  cases hchoice : routed.1 with
  | error stop => rfl
  | ok chosen =>
    show _ = ((forward crates chosen received).map _, _)
    dsimp only
    cases forward crates chosen received with
    | error stop => rfl
    | ok sent => rfl

/-- What `handleRequest` reports as dispatched is what was dispatched. -/
theorem handleRequest_dispatched {d : Dispatch} :
    (fw.handleRequest F crates request peer env found).1.dispatched = some d ↔
      (fw.dispatch F crates request peer env found).1 = .ok d := by
  unfold handleRequest
  dsimp only
  cases (fw.dispatch F crates request peer env found).1 with
  | error stop => cases stop <;> simp
  | ok d' => simp

/-- A dispatched request ends with the relaying of its answer. -/
theorem handleRequest_of_dispatch {d : Dispatch}
    (h : (fw.dispatch F crates request peer env found).1 = .ok d) :
    fw.handleRequest F crates request peer env found =
      (⟨some d, (fw.relay crates d env.reply env.metrics env.charge
        (fw.dispatch F crates request peer env found).2.charged).1⟩,
      { (fw.dispatch F crates request peer env found).2 with
        charged := (fw.relay crates d env.reply env.metrics env.charge
          (fw.dispatch F crates request peer env found).2.charged).2 }) := by
  unfold handleRequest
  dsimp only
  rw [h]

/-- Routing touches no counts. -/
theorem route_left (received : Received) :
    (fw.route F crates received env found).2.checked = found.checked ∧
      (fw.route F crates received env found).2.charged = found.charged := by
  unfold route
  dsimp only
  split
  · -- nothing was matched
    exact ⟨rfl, rfl⟩
  · split
    · -- pinned
      exact ⟨rfl, rfl⟩
    · split
      · exact ⟨rfl, rfl⟩
      · exact ⟨rfl, rfl⟩

/-- A dispatched request leaves the counts as the checks of the limiters leave them, and
has not charged its answer. -/
theorem dispatch_left {d : Dispatch}
    (h : (fw.dispatch F crates request peer env found).1 = .ok d) :
    (fw.dispatch F crates request peer env found).2.checked =
        (checkRatelimiters F d.received env.check 0 fw.ratelimiters found.checked).2 ∧
      (fw.dispatch F crates request peer env found).2.charged = found.charged := by
  obtain ⟨hreceived, hlimited, hrouted, hforward⟩ := dispatch_ok_iff.mp h
  unfold dispatch
  rw [hreceived]
  dsimp only
  rw [hlimited]
  dsimp only
  rw [hrouted]
  dsimp only
  rw [hforward]
  exact route_left d.received

end Phases

/-! ## The limiters one by one -/

section Limiters

variable {F : Type} [F32 F] {received : Received}

/-- After a limiter that lets a request through the others are checked. -/
theorem checkRatelimiters_cons {check : Nat → CheckReadings} {first : Nat} {limiter : RateLimiter}
    {found : Nat → WindowState} (rest : List RateLimiter)
    (hpassed : (limiter.shouldRequestPass F (found first)
      ⟨received.info, received.body, (check first).order, (check first).now,
        (check first).tick⟩).1.verdict = some true) :
    checkRatelimiters F received check first (limiter :: rest) found =
      checkRatelimiters F received check (first + 1) rest
        (Function.update found first (limiter.shouldRequestPass F (found first)
          ⟨received.info, received.body, (check first).order, (check first).now,
            (check first).tick⟩).2) := by
  simp only [checkRatelimiters, hpassed]

/-- The checks of later limiters leave the counts of the earlier ones. -/
theorem checkRatelimiters_lt {check : Nat → CheckReadings} {limiters : List RateLimiter}
    {first i : Nat} (h : i < first) (found : Nat → WindowState) :
    (checkRatelimiters F received check first limiters found).2 i = found i := by
  induction limiters generalizing first found with
  | nil => rfl
  | cons limiter rest ih =>
    have hother : ∀ state, Function.update found first state i = found i :=
      fun state => Function.update_of_ne h.ne state found
    simp only [checkRatelimiters]
    -- whatever the verdict is, the check wrote the counts of its own limiter only
    split
    · rw [ih (Nat.lt_succ_of_lt h), hother]
    · exact hother _
    · exact hother _

/-- When all limiters let a request through, each has made its own check. -/
theorem checkRatelimiters_get {check : Nat → CheckReadings} {limiters : List RateLimiter}
    {first : Nat} {found : Nat → WindowState}
    (hpassed : (checkRatelimiters F received check first limiters found).1 = .ok ())
    {k : Nat} {limiter : RateLimiter} (hget : limiters[k]? = some limiter) :
    (checkRatelimiters F received check first limiters found).2 (first + k) =
      (limiter.shouldRequestPass F (found (first + k))
        ⟨received.info, received.body, (check (first + k)).order, (check (first + k)).now,
          (check (first + k)).tick⟩).2 := by
  induction limiters generalizing first found k with
  | nil => simp at hget
  | cons head rest ih =>
    simp only [checkRatelimiters] at hpassed ⊢
    split at hpassed
    · cases k with
      | zero =>
        cases hget
        simp only [Nat.add_zero]
        -- the checks after it leave its counts
        rw [checkRatelimiters_lt (Nat.lt_add_one first), Function.update_self]
      | succ k =>
        have hlater : first + (k + 1) ≠ first := by omega
        have hindex : first + (k + 1) = first + 1 + k := by omega
        -- and it finds them as the checks before it found them
        rw [hindex, ih hpassed hget, ← hindex, Function.update_of_ne hlater]
    · cases hpassed
    · cases hpassed

/-- The charges of later limiters leave the counts of the earlier ones. -/
theorem postIncrements_lt {response : Json × StatusCode} {charge : Nat → ChargeReadings}
    {limiters : List RateLimiter} {first i : Nat} (h : i < first)
    (found : Nat → WindowState) :
    postIncrements received response charge first limiters found i = found i := by
  induction limiters generalizing first found with
  | nil => rfl
  | cons limiter rest ih =>
    simp only [postIncrements]
    rw [ih (Nat.lt_succ_of_lt h)]
    split
    · rfl
    · exact Function.update_of_ne h.ne _ found

/-- Each limiter that runs after the request has made its own charge. -/
theorem postIncrements_get {response : Json × StatusCode} {charge : Nat → ChargeReadings}
    {limiters : List RateLimiter} {first : Nat} (found : Nat → WindowState) {k : Nat}
    {limiter : RateLimiter} (hget : limiters[k]? = some limiter)
    (hafter : limiter.incrementMode.shouldRunBeforeRequest = false) :
    postIncrements received response charge first limiters found (first + k) =
      limiter.postIncrement (found (first + k))
        ⟨received.info, received.body, response, (charge (first + k)).order,
          (charge (first + k)).now⟩ := by
  induction limiters generalizing first found k with
  | nil => simp at hget
  | cons head rest ih =>
    simp only [postIncrements]
    cases k with
    | zero =>
      cases hget
      simp only [Nat.add_zero]
      rw [postIncrements_lt (Nat.lt_add_one first), hafter]
      exact Function.update_self ..
    | succ k =>
      -- the charge of the first limiter goes to another place
      have hlater : first + (k + 1) ≠ first := by omega
      have hindex : first + (k + 1) = first + 1 + k := by omega
      rw [hindex, ih _ hget, ← hindex]
      split
      · rfl
      · rw [Function.update_of_ne hlater]

end Limiters

/-! ## Reaching a node -/

/-- A request for a node with a parsed URL is sent to the node's own URL, with the path of
the request and no query. -/
theorem forward_ok {crates : Crates} (hcrates : crates.KeepsHosts) {node : NodeEntry}
    {text : String} (hparsed : crates.parseUrl text = some node.url) (received : Received) :
    ∃ sent, forward crates (some node) received = .ok sent ∧
      sent.url = (crates.setPath node.url received.info.uri.path).setQuery none := by
  have hhost : ((crates.setPath node.url received.info.uri.path).setQuery none).hostStr =
      node.url.hostStr := hcrates.hostStr_setPath ..
  unfold forward baseUrl
  dsimp only
  rw [hhost]
  cases hname : node.url.hostStr with
  | none => exact ⟨_, rfl, rfl⟩
  | some host =>
    obtain ⟨value, hvalue⟩ :=
      Option.isSome_iff_exists.mp (hcrates.host_isHeader text node.url host hparsed hname)
    dsimp only
    rw [hvalue]
    exact ⟨_, rfl, rfl⟩

/-- What is sent goes to the path of the request, without a query; to the URL of the node if
there is one. -/
theorem forward_url {crates : Crates} {chosen : Option NodeEntry} {received : Received}
    {sent : Sent} (h : forward crates chosen received = .ok sent) :
    ∃ base, sent.url = (crates.setPath base received.info.uri.path).setQuery none ∧
      ∀ node, chosen = some node → base = node.url := by
  -- The base is the URL of the node, and the local host without one.
  unfold forward baseUrl at h
  dsimp only at h
  split at h
  · cases h
  · next base hbase =>
    have hnode : ∀ node, chosen = some node → base = node.url := by
      intro node hchosen
      rw [hchosen] at hbase
      exact (Option.some.inj hbase).symm
    -- the host header is set only for a node
    split at h
    · cases h
      exact ⟨base, rfl, hnode⟩
    · split at h
      · cases h
        exact ⟨base, rfl, hnode⟩
      · cases h

/-- The forwarding fails without an answer. -/
theorem forward_error {crates : Crates} {chosen : Option NodeEntry} {received : Received}
    {stop : Stop} (h : forward crates chosen received = .error stop) : stop = .panic := by
  unfold forward at h
  dsimp only at h
  split at h
  · cases h
    rfl
  · split at h
    · cases h
    · split at h
      · cases h
      · -- the host is no value of a header
        cases h
        rfl

section Routing

variable {F : Type} [F32 F] {fw : Firewall} {crates : Crates} {received : Received}
  {env : Env} {found : Guarded}

/-- Routing fails with an answer only where nothing was matched. -/
theorem route_error_cases {stop : Stop}
    (h : (fw.route F crates received env found).1 = .error stop) :
    stop = .answer (getErrorResponse "Failed to find a route for your request.") ∨
      stop = .panic := by
  unfold route at h
  dsimp only at h
  split at h
  · cases h
    exact .inl rfl
  · split at h
    · cases h
    · split at h
      · cases h
      · -- the routing mode found none
        cases h
        exact .inr rfl

/-- A request that is routed has matched nodes. -/
theorem route_matched {chosen : Option NodeEntry}
    (h : (fw.route F crates received env found).1 = .ok chosen) :
    (fw.matchingEngine.findMatchingUrls env.health received.info received.body).Nonempty := by
  by_contra hnone
  rw [Finset.not_nonempty_iff_eq_empty] at hnone
  unfold route at h
  rw [hnone] at h
  cases h

/-- Routing does not end without a node. -/
theorem route_isSome {chosen : Option NodeEntry}
    (h : (fw.route F crates received env found).1 = .ok chosen) : ∃ node, chosen = some node := by
  unfold route at h
  dsimp only at h
  split at h
  · cases h
  · split at h
    · -- pinned
      cases h
      exact ⟨_, rfl⟩
    · split at h
      · next hchosen =>
        cases h
        exact RoutingModeState.choose_isSome hchosen
      · cases h

/-- A chosen node is one of the matched nodes. -/
theorem route_mem {node : NodeEntry}
    (h : (fw.route F crates received env found).1 = .ok (some node)) :
    node ∈ fw.matchingEngine.findMatchingUrls env.health received.info received.body := by
  unfold route at h
  dsimp only at h
  split at h
  · cases h
  · split at h
    · next pinned hpinned =>
      cases h
      -- the pin limiter hands on the node that was found by name
      have hfound : findPinned received.info (env.order.list
          (fw.matchingEngine.findMatchingUrls env.health received.info received.body)) =
          some node := by
        unfold limitPin at hpinned
        split at hpinned
        · next asked limiter hasked _ =>
          dsimp only at hpinned
          split at hpinned
          · rw [hasked]
            exact hpinned
          · cases hpinned
        · exact hpinned
      obtain ⟨name, -, hfind⟩ := Option.bind_eq_some_iff.mp hfound
      exact (env.order.mem_list _ _).mp (List.mem_of_find?_eq_some hfind)
    · split at h
      · next chosen hchosen =>
        cases h
        exact (env.order.mem_list _ _).mp (RoutingModeState.choose_mem hchosen)
      · cases h

/-- A pin that is found and not dropped decides. -/
theorem route_pinned {urls : Finset NodeEntry} {node : NodeEntry}
    (hurls : fw.matchingEngine.findMatchingUrls env.health received.info received.body = urls)
    (hne : urls.Nonempty)
    (hpinned : (fw.limitPin crates received.info.ip env.pinNow
      (findPinned received.info (env.order.list urls)) found.pins).1 = some node) :
    (fw.route F crates received env found).1 = .ok (some node) := by
  unfold route
  dsimp only
  rw [hurls, if_neg hne.card_ne_zero, hpinned]

/-- A request without a pin that counts makes one choice of the routing mode: its node comes
from it, and so does the routing state that is left. -/
theorem route_unhonored {urls : Finset NodeEntry}
    (hurls : fw.matchingEngine.findMatchingUrls env.health received.info received.body = urls)
    (hne : urls.Nonempty)
    (hnone : (fw.limitPin crates received.info.ip env.pinNow
      (findPinned received.info (env.order.list urls)) found.pins).1 = none) :
    let limited := fw.limitPin crates received.info.ip env.pinNow
      (findPinned received.info (env.order.list urls)) found.pins
    let chosen := RoutingModeState.choose F crates found.routing received.info.uri.path
      (env.order.list urls) env.draw
    fw.route F crates received env found =
      (match chosen.1 with
        | some node => .ok node
        | none => .error .panic,
      { found with pins := limited.2, routing := chosen.2 }) := by
  intro limited chosen
  unfold route
  dsimp only
  rw [hurls, if_neg hne.card_ne_zero, hnone]
  show (match chosen.1 with
    | some node => _
    | none => _) = _
  cases chosen.1 with
  | none => rfl
  | some node => rfl

/-- A request that asks for no node leaves the pin counters alone, too. -/
theorem route_unpinned {urls : Finset NodeEntry}
    (hurls : fw.matchingEngine.findMatchingUrls env.health received.info received.body = urls)
    (hne : urls.Nonempty) (hunpinned : requestedUpstream received.info = none) :
    let chosen := RoutingModeState.choose F crates found.routing received.info.uri.path
      (env.order.list urls) env.draw
    fw.route F crates received env found =
      (match chosen.1 with
        | some node => .ok node
        | none => .error .panic,
      { found with routing := chosen.2 }) := by
  -- A request that names no node leaves the pin limiter out of it.
  have hfound : findPinned received.info (env.order.list urls) = none := by
    unfold findPinned
    rw [hunpinned, Option.bind_none]
  have hlimited : fw.limitPin crates received.info.ip env.pinNow
      (findPinned received.info (env.order.list urls)) found.pins = (none, found.pins) := by
    rw [hfound]
    rfl
  have hrouted := route_unhonored (F := F) hurls hne
    (congrArg Prod.fst hlimited)
  rw [hlimited] at hrouted
  exact hrouted

/-- A single matched node takes every turn of the round robin. -/
theorem route_single {node : NodeEntry} {counts : Table String Nat}
    (hurls : fw.matchingEngine.findMatchingUrls env.health received.info received.body = {node})
    (hunpinned : requestedUpstream received.info = none)
    (hmode : found.routing = .roundRobin counts) (hpos : 0 < node.weight)
    (hweight : node.weight < 2 ^ 64) :
    (fw.route F crates received env found).1 = .ok (some node) := by
  have htotal : RoutingModeState.totalWeight [node] = node.weight := by
    show (node.weight + 0) % 2 ^ 64 = node.weight
    rw [Nat.add_zero, Nat.mod_eq_of_lt hweight]
  -- every counter value falls into the turns of the only node
  have hturn : ∀ count, RoutingModeState.nextInTurn count [node] = some (some node) := by
    intro count
    unfold RoutingModeState.nextInTurn
    rw [htotal, if_neg hpos.ne', RoutingModeState.weightedWalk, if_pos (Nat.mod_lt _ hpos)]
  have hchosen : (RoutingModeState.choose F crates found.routing received.info.uri.path
      (env.order.list {node}) env.draw).1 = some (some node) := by
    rw [IterOrder.list_singleton, hmode]
    exact hturn _
  rw [route_unpinned hurls (Finset.singleton_nonempty node) hunpinned]
  dsimp only
  rw [hchosen]

end Routing

/-- A received request that the limiters let through is dispatched to a single matched node. -/
theorem dispatch_single {F : Type} [F32 F] {fw : Firewall} {crates : Crates}
    (hcrates : crates.KeepsHosts) {request : Request} {peer : IpAddr} {env : Env}
    {found : Guarded} {received : Received}
    (hreceived : fw.receive crates request peer env.filterNow = .ok received)
    (hlimited : (checkRatelimiters F received env.check 0 fw.ratelimiters found.checked).1 =
      .ok ())
    {node : NodeEntry} {text : String} (hparsed : crates.parseUrl text = some node.url)
    (hurls : fw.matchingEngine.findMatchingUrls env.health received.info received.body = {node})
    (hunpinned : requestedUpstream received.info = none) {counts : Table String Nat}
    (hmode : found.routing = .roundRobin counts) (hpos : 0 < node.weight)
    (hweight : node.weight < 2 ^ 64) :
    ∃ sent, (fw.dispatch F crates request peer env found).1 =
      .ok ⟨received, some node, sent⟩ := by
  obtain ⟨sent, hsent, -⟩ := forward_ok hcrates hparsed received
  refine ⟨sent, dispatch_ok_iff.mpr ⟨hreceived, hlimited, ?_, hsent⟩⟩
  exact route_single hurls hunpinned hmode hpos hweight

/-! ## The answer of a node -/

/-- What the client of a request that was sent gets is the error of the firewall, or what the node
answered with the headers of the relaying. -/
theorem relay_cases {fw : Firewall} {crates : Crates} {d : Dispatch} {reply : Option NodeReply}
    {metrics : Metrics.State} {charge : Nat → ChargeReadings} {counts : Nat → WindowState}
    {response : Response}
    (h : (fw.relay crates d reply metrics charge counts).1 = some response) :
    response = getErrorResponse "Error forwarding request." ∨
      ∃ answer bytes, reply = some answer ∧ answer.body = some bytes ∧
        response = ⟨answer.status, relayHeaders crates d.chosen d.received.info.uri.path
          answer.url answer.headers, bytes⟩ := by
  unfold relay at h
  -- By what came back: nothing, a body that cannot be read, no JSON, or JSON.
  cases reply with
  | none => exact .inl (Option.some_inj.mp h).symm
  | some answer =>
    dsimp only at h
    split at h
    · cases hbody : answer.body with
      | none =>
        rw [hbody] at h
        cases h
      | some bytes =>
        rw [hbody] at h
        dsimp only at h
        split at h
        · exact .inl (Option.some_inj.mp h).symm
        · exact .inr ⟨answer, bytes, rfl, hbody, (Option.some_inj.mp h).symm⟩
    · -- the counters of the answer took the request with them
      cases h

end AntelopeFirewall.Firewall
