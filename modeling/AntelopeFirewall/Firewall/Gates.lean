import AntelopeFirewall.PinLimiter.Unbounded

/-!
# The Gates of a Request

A request passes the filters, then the rate limiters, then the matching rules, and each gate
touches the shared state only when those before it let the request through.

- `checkRatelimiters_ok_iff` and `checkRatelimiters_stopped` are the law of the limiters, by
  induction on their list,
- `route_pins` says what routing does to the pin counters,
- `GatesHold` collects what the gates promise of one request, `gates_hold` says that they keep
  it, whatever the filters, the limiters, the rules and the state are.
-/

namespace AntelopeFirewall.Firewall

open Library

/-! ## The filters -/

theorem passesFilters_iff {fw : Firewall} {info : RequestInfo} {body : Json}
    {filterNow : Nat → Nat} :
    fw.passesFilters info body filterNow = true ↔
      ∀ (i : Nat) (filter : Filter), fw.filters[i]? = some filter →
        filter.shouldRequestPass info body (filterNow i) = true := by
  unfold passesFilters
  rw [List.all_eq_true]
  constructor
  · intro h i filter hget
    exact h (filter, i) (List.mem_zipIdx_iff_getElem?.mpr hget)
  · intro h entry hmem
    exact h entry.2 entry.1 (List.mem_zipIdx_iff_getElem?.mp hmem)

/-! ## The limiters -/

section Limiters

variable {F : Type} [F32 F] {received : Received} {check : Nat → CheckReadings}

/-- The call that the check of a limiter gets. -/
def attemptAt (received : Received) (readings : CheckReadings) : Attempt :=
  ⟨received.info, received.body, readings.order, readings.now, readings.tick⟩

/-- Limiter number `i` lets a received request through, with the counts that its check
finds. -/
def LetsThrough (F : Type) [F32 F] (received : Received) (check : Nat → CheckReadings)
    (found : Nat → WindowState) (i : Nat) (limiter : RateLimiter) : Prop :=
  (limiter.shouldRequestPass F (found i) (attemptAt received (check i))).1.verdict = some true

/-- A limiter finds its own counts, whatever an earlier one did to those of its own. -/
theorem letsThrough_update {found : Nat → WindowState} {first i : Nat} (h : i ≠ first)
    (state : WindowState) (limiter : RateLimiter) :
    LetsThrough F received check (Function.update found first state) i limiter ↔
      LetsThrough F received check found i limiter := by
  unfold LetsThrough
  rw [Function.update_of_ne h]

/-- The limiters let a request through when each of them does. -/
theorem checkRatelimiters_ok_iff {limiters : List RateLimiter} {first : Nat}
    {found : Nat → WindowState} :
    (checkRatelimiters F received check first limiters found).1 = .ok () ↔
      ∀ i limiter, limiters[i]? = some limiter →
        LetsThrough F received check found (first + i) limiter := by
  induction limiters generalizing first found with
  | nil => simp [checkRatelimiters]
  | cons limiter rest ih =>
    constructor
    · intro h i other hget
      simp only [checkRatelimiters] at h
      split at h
      · next hpassed =>
        cases i with
        | zero =>
          cases hget
          exact hpassed
        | succ i =>
          -- the first limiter has its own counters
          have hlater : first + (i + 1) ≠ first := by omega
          have hindex : first + (i + 1) = first + 1 + i := by omega
          have hrest := ih.mp h i other hget
          rwa [← hindex, letsThrough_update hlater] at hrest
      · cases h
      · cases h
    · intro h
      have hpassed : LetsThrough F received check found first limiter := h 0 limiter rfl
      rw [checkRatelimiters_cons rest hpassed, ih]
      intro i other hget
      have hlater : first + (i + 1) ≠ first := by omega
      have hindex : first + (i + 1) = first + 1 + i := by omega
      rw [← hindex, letsThrough_update hlater]
      exact h (i + 1) other hget

/-- A limiter that stops a request keeps it from all later ones. -/
theorem checkRatelimiters_stopped {limiters : List RateLimiter} {first i : Nat}
    {found : Nat → WindowState} {limiter : RateLimiter} (hget : limiters[i]? = some limiter)
    (hstopped : ¬ LetsThrough F received check found (first + i) limiter) {j : Nat}
    (hlater : first + i < j) :
    (checkRatelimiters F received check first limiters found).2 j = found j := by
  induction limiters generalizing first found i with
  | nil => simp at hget
  | cons head rest ih =>
    have hne : j ≠ first := by omega
    have hother : ∀ state, Function.update found first state j = found j :=
      fun state => Function.update_of_ne hne state found
    simp only [checkRatelimiters]
    split
    · next hpassed =>
      cases i with
      | zero =>
        -- it is the one that stops the request
        cases hget
        exact absurd hpassed hstopped
      | succ i =>
        have hne : first + (i + 1) ≠ first := by omega
        have hindex : first + (i + 1) = first + 1 + i := by omega
        rw [← letsThrough_update hne, hindex] at hstopped
        rw [ih hget hstopped (by omega), hother]
    · exact hother _
    · exact hother _

end Limiters

/-! ## The pins -/

section Pins

variable {F : Type} [F32 F] {fw : Firewall} {crates : Crates} {env : Env} {found : Guarded}

/-- A node that is found by name is one the request asks for, which only a read request can. -/
theorem findPinned_some {info : RequestInfo} {nodes : List NodeEntry} {node : NodeEntry}
    (h : findPinned info nodes = some node) :
    node ∈ nodes ∧ node.pinnable = true ∧ requestedUpstream info = some node.name ∧
      info.uri.path ∈ getEndpoints := by
  obtain ⟨name, hname, hfind⟩ := Option.bind_eq_some_iff.mp h
  have hmatches := List.find?_some hfind
  simp only [Bool.and_eq_true, decide_eq_true_eq] at hmatches
  obtain ⟨hpinnable, rfl⟩ := hmatches
  refine ⟨List.mem_of_find?_eq_some hfind, hpinnable, hname, ?_⟩
  by_contra hpath
  unfold requestedUpstream at hname
  rw [if_pos hpath] at hname
  cases hname

/-- The pin counters change by a call of the limiter for the node that was found. -/
theorem limitPin_pins (ip : IpAddr) (now : Nat) (pinned : Option NodeEntry) (pins : PinState) :
    (fw.limitPin crates ip now pinned pins).2 = pins ∨
      ∃ node limiter, pinned = some node ∧ fw.pinLimiter = some limiter ∧
        (fw.limitPin crates ip now pinned pins).2 =
          (limiter.admits pins (pinKey crates ip node.name) now).2 := by
  unfold limitPin
  split
  · next node limiter hlimiter => exact .inr ⟨node, limiter, rfl, hlimiter, rfl⟩
  · exact .inl rfl

/-- Routing changes the pin counters of a matched request only, and only by the limiting of
its pin. -/
theorem route_pins (received : Received) :
    let urls := fw.matchingEngine.findMatchingUrls env.health received.info received.body
    (fw.route F crates received env found).2.pins =
      if urls.card = 0 then found.pins
      else (fw.limitPin crates received.info.ip env.pinNow
        (findPinned received.info (env.order.list urls)) found.pins).2 := by
  unfold route
  dsimp only
  split
  · rfl
  · split
    · rfl
    · split
      · rfl
      · rfl

end Pins

/-! ## The phases that stop a request -/

section Stops

variable {F : Type} [F32 F] {fw : Firewall} {crates : Crates} {request : Request}
  {peer : IpAddr} {env : Env} {found : Guarded}

/-- A request that is stopped on the way leaves the state as it was when it stopped. -/
theorem handleRequest_stopped {stop : Stop}
    (h : (fw.dispatch F crates request peer env found).1 = .error stop) :
    (fw.handleRequest F crates request peer env found).1.dispatched = none ∧
      (fw.handleRequest F crates request peer env found).2 =
        (fw.dispatch F crates request peer env found).2 := by
  unfold handleRequest
  dsimp only
  rw [h]
  cases stop with
  | answer response => exact ⟨rfl, rfl⟩
  | panic => exact ⟨rfl, rfl⟩

/-- The answer of the node does not touch the pin counters. -/
theorem handleRequest_pins :
    (fw.handleRequest F crates request peer env found).2.pins =
      (fw.dispatch F crates request peer env found).2.pins := by
  cases hdispatch : (fw.dispatch F crates request peer env found).1 with
  | error stop => rw [(handleRequest_stopped hdispatch).2]
  | ok d => rw [handleRequest_of_dispatch hdispatch]

theorem dispatch_unreceived {stop : Stop}
    (h : fw.receive crates request peer env.filterNow = .error stop) :
    fw.dispatch F crates request peer env found = (.error stop, found) := by
  unfold dispatch
  rw [h]

theorem dispatch_limited {received : Received} {stop : Stop}
    (hreceived : fw.receive crates request peer env.filterNow = .ok received)
    (h : (checkRatelimiters F received env.check 0 fw.ratelimiters found.checked).1 =
      .error stop) :
    fw.dispatch F crates request peer env found =
      (.error stop, { found with
        checked := (checkRatelimiters F received env.check 0 fw.ratelimiters
          found.checked).2 }) := by
  unfold dispatch
  rw [hreceived]
  dsimp only
  rw [h]

/-- Past the limiters the pin counters are left as routing leaves them. -/
theorem dispatch_pins {received : Received}
    (hreceived : fw.receive crates request peer env.filterNow = .ok received)
    (h : (checkRatelimiters F received env.check 0 fw.ratelimiters found.checked).1 = .ok ()) :
    (fw.dispatch F crates request peer env found).2.pins =
      (fw.route F crates received env { found with
        checked := (checkRatelimiters F received env.check 0 fw.ratelimiters
          found.checked).2 }).2.pins := by
  rw [dispatch_routed hreceived h]

end Stops

/-! ## What the gates promise -/

/-- What the gates promise of one request. -/
structure GatesHold (F : Type) [F32 F] (fw : Firewall) (crates : Crates) (request : Request)
    (peer : IpAddr) (env : Env) (found : Guarded) : Prop where
  /-- A request reaches a node only through all the gates. -/
  reached : ∀ d, (fw.handleRequest F crates request peer env found).1.dispatched = some d →
    fw.receive crates request peer env.filterNow = .ok d.received ∧
    (∀ (i : Nat) (filter : Filter), fw.filters[i]? = some filter →
      filter.shouldRequestPass d.received.info d.received.body (env.filterNow i) = true) ∧
    (∀ i limiter, fw.ratelimiters[i]? = some limiter →
      LetsThrough F d.received env.check found.checked i limiter) ∧
    (fw.matchingEngine.findMatchingUrls env.health d.received.info d.received.body).Nonempty
  /-- A request that a filter stops changes nothing. -/
  filtered : ∀ bytes body (i : Nat) (filter : Filter), bodyBytes request = some bytes →
    readBody crates request.method bytes = some body → fw.filters[i]? = some filter →
    filter.shouldRequestPass
      ⟨request.headers, request.uri, fw.resolveClientIp crates request.headers peer⟩ body
      (env.filterNow i) = false →
    (fw.handleRequest F crates request peer env found).1.dispatched = none ∧
      (fw.handleRequest F crates request peer env found).2 = found
  /-- Neither does a preflight request. -/
  preflight : request.method = .options →
    (fw.handleRequest F crates request peer env found).1.dispatched = none ∧
      (fw.handleRequest F crates request peer env found).2 = found
  /-- A request that a limiter stops changes no counts of a later one and no pin counter. -/
  limited : ∀ received i limiter,
    fw.receive crates request peer env.filterNow = .ok received →
    fw.ratelimiters[i]? = some limiter →
    ¬ LetsThrough F received env.check found.checked i limiter →
    (fw.handleRequest F crates request peer env found).1.dispatched = none ∧
      (∀ j, i < j → (fw.handleRequest F crates request peer env found).2.checked j =
        found.checked j) ∧
      (fw.handleRequest F crates request peer env found).2.charged = found.charged ∧
      (fw.handleRequest F crates request peer env found).2.pins = found.pins
  /-- A pin counter changes only for a read request that passed the limiters and names a
  pinnable matched node: the one of its address and that name, or one that a full map drops
  after its window ended. -/
  pinned : ∀ key, (fw.handleRequest F crates request peer env found).2.pins.lookup key ≠
      found.pins.lookup key →
    ∃ received, fw.receive crates request peer env.filterNow = .ok received ∧
      (∀ i limiter, fw.ratelimiters[i]? = some limiter →
        LetsThrough F received env.check found.checked i limiter) ∧
      received.info.uri.path ∈ getEndpoints ∧
      ∃ node ∈ fw.matchingEngine.findMatchingUrls env.health received.info received.body,
        node.pinnable = true ∧ requestedUpstream received.info = some node.name ∧
        (key = pinKey crates received.info.ip node.name ∨
          maxPinKeys ≤ found.pins.len ∧
          (fw.handleRequest F crates request peer env found).2.pins.lookup key = none ∧
          ∃ limiter started counted, fw.pinLimiter = some limiter ∧
            found.pins.lookup key = some (started, counted) ∧
            limiter.window ≤ env.pinNow - started)

section Gates

variable {F : Type} [F32 F] {fw : Firewall} {crates : Crates} {request : Request}
  {peer : IpAddr} {env : Env} {found : Guarded}

/-- A request that is not received changes nothing. -/
theorem handleRequest_unreceived
    (h : ∀ received, fw.receive crates request peer env.filterNow ≠ .ok received) :
    (fw.handleRequest F crates request peer env found).1.dispatched = none ∧
      (fw.handleRequest F crates request peer env found).2 = found := by
  cases hreceive : fw.receive crates request peer env.filterNow with
  | ok received => exact absurd hreceive (h received)
  | error stop =>
    have hdispatch : fw.dispatch F crates request peer env found = (.error stop, found) :=
      dispatch_unreceived hreceive
    have hstopped := handleRequest_stopped (congrArg Prod.fst hdispatch)
    rwa [hdispatch] at hstopped

/-- A limiter that does not let a received request through stops it. -/
theorem handleRequest_limited {received : Received} {i : Nat} {limiter : RateLimiter}
    (hreceived : fw.receive crates request peer env.filterNow = .ok received)
    (hget : fw.ratelimiters[i]? = some limiter)
    (hstopped : ¬ LetsThrough F received env.check found.checked i limiter) :
    (fw.handleRequest F crates request peer env found).1.dispatched = none ∧
      (fw.handleRequest F crates request peer env found).2 = { found with
        checked := (checkRatelimiters F received env.check 0 fw.ratelimiters
          found.checked).2 } := by
  cases hlimited : (checkRatelimiters F received env.check 0 fw.ratelimiters
      found.checked).1 with
  | ok _ =>
    -- a limiter that does not let the request through is no member of a loop that passes
    have hall := checkRatelimiters_ok_iff.mp hlimited i limiter hget
    rw [Nat.zero_add] at hall
    exact absurd hall hstopped
  | error stop =>
    have hdispatch := dispatch_limited hreceived hlimited
    have hthen := handleRequest_stopped (congrArg Prod.fst hdispatch)
    rwa [hdispatch] at hthen

/-- The pin counters of a request that is not stopped before them. -/
theorem handleRequest_pinned {key : String}
    (hchanged : (fw.handleRequest F crates request peer env found).2.pins.lookup key ≠
      found.pins.lookup key) :
    ∃ received node limiter, fw.receive crates request peer env.filterNow = .ok received ∧
      (checkRatelimiters F received env.check 0 fw.ratelimiters found.checked).1 = .ok () ∧
      findPinned received.info (env.order.list (fw.matchingEngine.findMatchingUrls env.health
        received.info received.body)) = some node ∧
      fw.pinLimiter = some limiter ∧
      (fw.handleRequest F crates request peer env found).2.pins =
        (limiter.admits found.pins (pinKey crates received.info.ip node.name) env.pinNow).2 := by
  have hsame : (fw.handleRequest F crates request peer env found).2.pins ≠ found.pins := by
    intro hsame
    rw [hsame] at hchanged
    exact hchanged rfl
  cases hreceive : fw.receive crates request peer env.filterNow with
  | error stop =>
    -- before the pin limiter a request leaves the counters as they were
    have hnever : ∀ received, fw.receive crates request peer env.filterNow ≠ .ok received := by
      intro received hreceived
      rw [hreceive] at hreceived
      cases hreceived
    rw [(handleRequest_unreceived hnever).2] at hsame
    exact absurd rfl hsame
  | ok received =>
    cases hlimited : (checkRatelimiters F received env.check 0 fw.ratelimiters
        found.checked).1 with
    | error stop =>
      have hdispatch := dispatch_limited hreceive hlimited
      rw [handleRequest_pins, hdispatch] at hsame
      exact absurd rfl hsame
    | ok _ =>
      rw [handleRequest_pins, dispatch_pins hreceive hlimited] at hsame ⊢
      rw [route_pins] at hsame ⊢
      dsimp only at hsame ⊢
      split at hsame
      · exact absurd rfl hsame
      · next hsome =>
        rw [if_neg hsome]
        -- the only place that asks the pin limiter
        rcases limitPin_pins received.info.ip env.pinNow
          (findPinned received.info (env.order.list (fw.matchingEngine.findMatchingUrls
            env.health received.info received.body))) found.pins with
          hleft | ⟨node, limiter, hfound, hlimiter, hpins⟩
        · exact absurd hleft hsame
        · exact ⟨received, node, limiter, rfl, hlimited, hfound, hlimiter, hpins⟩

/-- **Gates in order**: the gates keep what they promise, for every firewall, every state and
every request. -/
theorem gates_hold (F : Type) [F32 F] (fw : Firewall) (crates : Crates) (request : Request)
    (peer : IpAddr) (env : Env) (found : Guarded) :
    GatesHold F fw crates request peer env found where
  reached := by
    -- What was sent has been received, has passed every limiter, and was routed.
    intro d hdispatched
    obtain ⟨hreceived, hlimited, hrouted, -⟩ :=
      dispatch_ok_iff.mp (handleRequest_dispatched.mp hdispatched)
    obtain ⟨-, -, -, -, -, hpasses⟩ := receive_ok_iff.mp hreceived
    refine ⟨hreceived, passesFilters_iff.mp hpasses, ?_, route_matched hrouted⟩
    intro i limiter hget
    have hall := checkRatelimiters_ok_iff.mp hlimited i limiter hget
    rwa [Nat.zero_add] at hall
  filtered := by
    intro bytes body i filter hbytes hbody hget hfails
    apply handleRequest_unreceived
    intro received hreceived
    -- the reader of the body is a function, so these are the bytes and the body above
    obtain ⟨-, -, hinfo, hbytes', hbody', hpasses⟩ := receive_ok_iff.mp hreceived
    rw [hbytes] at hbytes'
    cases hbytes'
    rw [hbody] at hbody'
    cases hbody'
    have hpassed := passesFilters_iff.mp hpasses i filter hget
    rw [hinfo, hfails] at hpassed
    cases hpassed
  preflight := by
    intro hoptions
    apply handleRequest_unreceived
    intro received hreceived
    exact (receive_ok_iff.mp hreceived).2.1 hoptions
  limited := by
    -- The loop ends at this limiter, and those after it keep their counts.
    intro received i limiter hreceived hget hstopped
    obtain ⟨hnone, hleft⟩ := handleRequest_limited hreceived hget hstopped
    rw [hleft]
    refine ⟨hnone, ?_, rfl, rfl⟩
    intro j hlater
    exact checkRatelimiters_stopped hget (by rwa [Nat.zero_add]) (by rwa [Nat.zero_add])
  pinned := by
    -- A pin that changed is the one asked for, or one that a full map dropped.
    intro key hchanged
    obtain ⟨received, node, limiter, hreceived, hlimited, hfound, hlimiter, hpins⟩ :=
      handleRequest_pinned hchanged
    obtain ⟨hmem, hpinnable, hnamed, hread⟩ := findPinned_some hfound
    refine ⟨received, hreceived, ?_, hread, node, (env.order.mem_list _ _).mp hmem, hpinnable,
      hnamed, ?_⟩
    -- the pins are asked only after all limiters
    · intro i limiter hget
      have hall := checkRatelimiters_ok_iff.mp hlimited i limiter hget
      rwa [Nat.zero_add] at hall
    · by_cases hkey : key = pinKey crates received.info.ip node.name
      · exact .inl hkey
      · right
        rw [hpins] at hchanged ⊢
        rcases limiter.admits_lookup_ne found.pins hkey env.pinNow with hsame | hdropped
        · exact absurd hsame hchanged
        · obtain ⟨hfull, hgone, started, counted, hlookup, hended⟩ := hdropped
          exact ⟨hfull, hgone, limiter, started, counted, hlimiter, hlookup, hended⟩

end Gates

/-! ## A full map -/

/-- The claim that is too strong: a pin counter changes only under the key of the address of
the request and the name it asks for. -/
def ChangesOwnPinOnly (F : Type) [F32 F] (fw : Firewall) (crates : Crates) (request : Request)
    (peer : IpAddr) (env : Env) (found : Guarded) : Prop :=
  ∀ key, (fw.handleRequest F crates request peer env found).2.pins.lookup key ≠
      found.pins.lookup key →
    ∃ name, upstreamParam request.uri.query = some name ∧
      key = pinKey crates (fw.resolveClientIp crates request.headers peer) name

/-- The key of a client of the only read node. -/
def clientKey (i : Nat) : String := pinKey (.spelled []) (.v4 (BitVec.ofNat 32 i)) "get_one"

theorem clientKey_inj {i j : Nat} (hi : i ≤ maxPinKeys) (hj : j ≤ maxPinKeys)
    (h : clientKey i = clientKey j) : i = j := by
  have hips := (PinLimiter.pinKey_inj (Crates.spelled_tellsApart []) getOne_valid getOne_valid h).1
  simp only [IpAddr.v4.injEq] at hips
  have hnumbers := congrArg BitVec.toNat hips
  simp only [BitVec.toNat_ofNat] at hnumbers
  unfold maxPinKeys at hi hj
  omega

/-- Some clients have pinned one request each, all at time zero. -/
def clientPins (n : Nat) (hn : n ≤ maxPinKeys) : PinState where
  entries := (List.range n).map fun i => ⟨clientKey i, (0, 1)⟩
  nodupKeys := by
    unfold List.NodupKeys List.keys
    rw [List.map_map]
    refine List.Nodup.map_on ?_ List.nodup_range
    intro i hi j hj hsame
    exact clientKey_inj ((List.mem_range.mp hi).le.trans hn) ((List.mem_range.mp hj).le.trans hn)
      hsame

section ClientPins

variable {n : Nat} (hn : n ≤ maxPinKeys)

theorem clientPins_len : (clientPins n hn).len = n := by
  simp [Table.len, clientPins]

theorem clientPins_lookup {i : Nat} (h : i < n) :
    (clientPins n hn).lookup (clientKey i) = some (0, 1) :=
  AList.mem_lookup_iff.mpr (List.mem_map.mpr ⟨i, List.mem_range.mpr h, rfl⟩)

/-- The next client has no entry yet. -/
theorem clientPins_fresh : clientKey n ∉ clientPins n hn := by
  intro hmem
  obtain ⟨i, hi, hsame⟩ : ∃ i, i < n ∧ clientKey i = clientKey n := by
    simpa [AList.mem_keys, AList.keys, List.keys, clientPins] using hmem
  have := clientKey_inj (hi.le.trans hn) hn hsame
  omega

/-- A window later all of them have ended. -/
theorem clientPins_retain {now window : Nat} (hended : window ≤ now) :
    ((clientPins n hn).retain fun _ entry => now - entry.1 < window).len = 0 := by
  unfold Table.len Table.retain clientPins
  rw [List.length_eq_zero_iff, List.filter_eq_nil_iff]
  intro entry hentry
  obtain ⟨i, -, rfl⟩ := List.mem_map.mp hentry
  simpa using hended

/-- In a full map the next client's call drops the others then. -/
theorem clientPins_admits {limiter : PinLimiter} (hlimit : limiter.limit ≠ 0) {now : Nat}
    (hended : limiter.window ≤ now) (hfull : n = maxPinKeys) {i : Nat} (h : i < n) :
    (limiter.admits (clientPins n hn) (clientKey n) now).2.lookup (clientKey i) = none := by
  have hexpired : limiter.expired (clientPins n hn) (clientKey n) now = true := by
    unfold PinLimiter.expired
    rw [AList.lookup_eq_none.mpr (clientPins_fresh hn)]
  -- the map is full and all of its windows have ended
  have hroom : PinLimiter.makeRoom (clientPins n hn) now limiter.window =
      (true, (clientPins n hn).retain fun _ entry => now - entry.1 < limiter.window) := by
    unfold PinLimiter.makeRoom
    rw [clientPins_len, if_neg (by omega)]
    dsimp only
    rw [clientPins_retain hn hended]
    rfl
  have hne : clientKey i ≠ clientKey n := by
    intro hsame
    have := clientKey_inj (h.le.trans hn) hn hsame
    omega
  unfold PinLimiter.admits
  rw [if_neg hlimit, if_pos hexpired, if_neg (clientPins_fresh hn), hroom]
  dsimp only
  rw [AList.lookup_insert_ne hne, Table.lookup_retain, clientPins_lookup hn h]
  simpa using hended

end ClientPins

/-- A minute has passed. -/
noncomputable def lateEnv : Env := { quietEnv with pinNow := 60 * 10 ^ 9 }

/-- A request for the only read node, by its name. -/
def namingRequest : Request := infoRequest (some "upstream=get_one")

def namingReceived (bits : BitVec 32) : Received :=
  ⟨⟨.empty, ⟨"/v1/chain/get_info", some "upstream=get_one"⟩, .v4 bits⟩, [], .null⟩

/-- The request asks the pin limiter once, under the key of its client. -/
theorem naming_pins {checked : CheckedConfig (.spelled []) (oneGetNode [])}
    (hfw : checked.firewall = assemble (.spelled []) (oneGetNode []) [] ∅ {getOne})
    (bits : BitVec 32) (pins : PinState) :
    (checked.firewall.handleRequest ℚ (.spelled []) namingRequest (.v4 bits) lateEnv
      { quietState with pins := pins }).2.pins =
      ((PinLimiter.new 30 60).admits pins (pinKey (.spelled []) (.v4 bits) "get_one")
        (60 * 10 ^ 9)).2 := by
  have hreceived : checked.firewall.receive (.spelled []) namingRequest (.v4 bits)
      lateEnv.filterNow = .ok (namingReceived bits) :=
    checked.receive_infoRequest rfl rfl _ _ _
  have hlimited : (checkRatelimiters ℚ (namingReceived bits) lateEnv.check 0
      checked.firewall.ratelimiters quietState.checked).1 = .ok () := by
    rw [hfw]
    rfl
  have hurls : checked.firewall.matchingEngine.findMatchingUrls lateEnv.health
      (namingReceived bits).info (namingReceived bits).body = {getOne} := by
    rw [hfw]
    rfl
  -- the address has no part in the name that is asked for
  have hasked : requestedUpstream (namingReceived bits).info = some "get_one" := by
    have hasked' : requestedUpstream (namingReceived 0).info = some "get_one" := by
      decide
    exact hasked'
  have hfound : findPinned (namingReceived bits).info [getOne] = some getOne := by
    unfold findPinned
    rw [hasked]
    rfl
  have hdispatched : (checked.firewall.dispatch ℚ (.spelled []) namingRequest (.v4 bits) lateEnv
      { quietState with pins := pins }).2.pins = _ := dispatch_pins hreceived hlimited
  rw [handleRequest_pins, hdispatched, route_pins]
  dsimp only
  rw [hurls, Finset.card_singleton, if_neg Nat.one_ne_zero, IterOrder.list_singleton, hfound, hfw]
  rfl

/-- All the clients that the map holds have pinned a request; the next one names the node a
minute later, and the pins of the others are dropped. -/
theorem full_map_drops_others :
    ∃ fw, fromConfig (.spelled []) (oneGetNode []) = .ok fw ∧
      ¬ ChangesOwnPinOnly ℚ fw (.spelled []) namingRequest (.v4 (BitVec.ofNat 32 maxPinKeys))
        lateEnv { quietState with pins := clientPins maxPinKeys (Nat.le_refl _) } := by
  have hlimiters : addRatelimiters (.spelled []) (selectAccounts []) [] [] = .ok [] := rfl
  obtain ⟨checked, hbuild, hfw⟩ := oneGetNode_built rfl hlimiters
  refine ⟨checked.firewall, hbuild, ?_⟩
  have hpins := naming_pins hfw (BitVec.ofNat 32 maxPinKeys)
    (clientPins maxPinKeys (Nat.le_refl _))
  have hfirst : 0 < maxPinKeys := by simp [maxPinKeys]
  have hwindow : (PinLimiter.new 30 60).window ≤ 60 * 10 ^ 9 := by simp [PinLimiter.new]
  have hlimit : (PinLimiter.new 30 60).limit ≠ 0 := by simp [PinLimiter.new]
  have hdropped := clientPins_admits (Nat.le_refl maxPinKeys) hlimit hwindow rfl hfirst
  have hheld := clientPins_lookup (Nat.le_refl maxPinKeys) hfirst
  intro hclaim
  have hchanged := hclaim (clientKey 0)
  rw [hpins] at hchanged
  -- the pin of the first client is dropped, and its key is not the next client's
  obtain ⟨name, hname, hkey⟩ := hchanged fun hsame => by
    have hnone : none = some (0, 1) := hdropped.symm.trans (hsame.trans hheld)
    cases hnone
  have hasked : upstreamParam namingRequest.uri.query = some "get_one" := by decide
  rw [hasked] at hname
  cases hname
  have hpeer : checked.firewall.resolveClientIp (.spelled []) namingRequest.headers
      (.v4 (BitVec.ofNat 32 maxPinKeys)) = .v4 (BitVec.ofNat 32 maxPinKeys) := by
    rw [hfw]
    rfl
  rw [hpeer] at hkey
  have hsame := clientKey_inj hfirst.le (Nat.le_refl _) hkey
  exact hfirst.ne hsame

end AntelopeFirewall.Firewall
