import AntelopeFirewall.Config.Basic

/-!
# Upstream Affinity

A read response names the node that answered it, and a client that asks for the name gets
the node again: `affinity`. The name comes from the response header, goes back as a query
pair and is looked up among the matched nodes, so the argument joins three facts:

- `named_by_response`: a relayed name is that of a pinnable get node that was chosen,
- `upstreamParam_eq`: the query gives the name back,
- `findPinned_eq`: no other pinnable get node has the name.
-/

namespace AntelopeFirewall.Firewall

open Library

section Affinity

variable {F : Type} [F32 F] {crates : Crates} {config : Config}

/-! ## The name in a response -/

/-- Only a relayed answer of a node can carry the upstream header. -/
theorem mem_getAll_relay {fw : Firewall} {d : Dispatch} {reply : Option NodeReply}
    {metrics : Metrics.State} {charge : Nat → ChargeReadings} {found : Nat → WindowState}
    {response : Response}
    (hresponse : (fw.relay crates d reply metrics charge found).1 = some response)
    {value : HeaderValue} (hvalue : value ∈ response.headers.getAll upstreamHeaderKey) :
    ∃ answer, reply = some answer ∧
      value ∈ (relayHeaders crates d.chosen d.received.info.uri.path answer.url
        answer.headers).getAll upstreamHeaderKey := by
  have hplain : (getErrorResponse "Error forwarding request.").headers.getAll
    upstreamHeaderKey = [] := rfl
  rcases relay_cases hresponse with rfl | ⟨answer, bytes, hanswer, -, rfl⟩
  · -- the error of the firewall names no node
    rw [hplain] at hvalue
    cases hvalue
  · exact ⟨answer, hanswer, hvalue⟩

/-- The name that a relayed response carries is the name of the node it was forwarded to, a
pinnable node of the get list whose origin the answer came from. -/
theorem named_by_response (hheader : crates.KeepsTexts) (checked : CheckedConfig crates config)
    {request : Request} {peer : IpAddr} {env : Env} {found : Guarded} {d : Dispatch}
    {response : Response}
    (hhandled : (checked.firewall.handleRequest F crates request peer env found).1 =
      ⟨some d, some response⟩)
    {name : String} (hname : Text.utf8 name ∈ response.headers.getAll upstreamHeaderKey) :
    ∃ node answer, d.chosen = some node ∧ env.reply = some answer ∧
      sameOrigin node.url answer.url = true ∧ node ∈ checked.getNodes.entries ∧
      node.pinnable = true ∧ node.name = name := by
  have hok : (checked.firewall.dispatch F crates request peer env found).1 = .ok d := by
    apply handleRequest_dispatched.mp
    rw [hhandled]
  have hrelayed : (checked.firewall.relay crates d env.reply env.metrics env.charge
      (checked.firewall.dispatch F crates request peer env found).2.charged).1 =
      some response := by
    rw [handleRequest_of_dispatch hok] at hhandled
    exact congrArg Handled.response hhandled
  obtain ⟨answer, hreply, hvalue⟩ := mem_getAll_relay hrelayed hname
  obtain ⟨node, hchosen, hpinnable, hread, horigin, hwritten⟩ := mem_getAll_relayHeaders hvalue
  -- the chosen node was matched, and a read request matches get nodes only
  obtain ⟨-, -, hrouted, -⟩ := dispatch_ok_iff.mp hok
  rw [hchosen] at hrouted
  obtain ⟨hlisted, -⟩ := checked.mem_findMatchingUrls.mp (route_mem hrouted)
  unfold CheckedConfig.nodesFor at hlisted
  rw [if_pos hread] at hlisted
  have hsame : name = node.name := Text.utf8_inj.mp (hheader node.name _ hwritten)
  exact ⟨node, answer, hchosen, hreply, horigin, hlisted, hpinnable, hsame.symm⟩

/-! ## The name in a request -/

/-- A pinnable get node is found by its name among any of the get nodes. -/
theorem findPinned_eq {set : NodeSet} {info : RequestInfo} {nodes : List NodeEntry}
    (hnodes : ∀ other ∈ nodes, other ∈ set.entries) {node : NodeEntry} (hmem : node ∈ nodes)
    (hpinnable : node.pinnable = true) (hrequested : requestedUpstream info = some node.name) :
    findPinned info nodes = some node := by
  unfold findPinned
  rw [hrequested, Option.bind_some]
  have hwanted : (node.pinnable && decide (node.name = node.name)) = true := by
    rw [hpinnable, decide_eq_true rfl]
    rfl
  have hsome : (nodes.find? fun other => other.pinnable && other.name = node.name).isSome = true :=
    List.find?_isSome.mpr ⟨node, hmem, hwanted⟩
  obtain ⟨other, hother⟩ := Option.isSome_iff_exists.mp hsome
  -- whatever the order, what is found has the name, and the name has one bearer
  have hmatches := List.find?_some hother
  rw [Bool.and_eq_true, decide_eq_true_eq] at hmatches
  rw [hother, set.name_inj other (hnodes other (List.mem_of_find?_eq_some hother)) node
    (hnodes node hmem) hmatches.1 hpinnable hmatches.2]

/-- A request gets as far as the pin limiter, and the limiter admits a pin to the name. -/
def AdmitsPin (F : Type) [F32 F] (fw : Firewall) (crates : Crates) (request : Request)
    (peer : IpAddr) (env : Env) (found : Guarded) (name : String) : Prop :=
  ∃ received limiter, fw.receive crates request peer env.filterNow = .ok received ∧
    (checkRatelimiters F received env.check 0 fw.ratelimiters found.checked).1 = .ok () ∧
    fw.pinLimiter = some limiter ∧
    (limiter.admits found.pins (pinKey crates received.info.ip name) env.pinNow).1 = true

/-- A request that asks for a healthy pinnable get node, and whose pin is admitted, is
forwarded to it. -/
theorem dispatch_pinned (hcrates : crates.KeepsHosts) (checked : CheckedConfig crates config)
    {request : Request} {peer : IpAddr} {env : Env} {found : Guarded} {node : NodeEntry}
    (hmem : node ∈ checked.getNodes.entries) (hpinnable : node.pinnable = true)
    (hread : request.uri.path ∈ getEndpoints)
    (hparam : upstreamParam request.uri.query = some node.name)
    (hhealthy : config.healthcheck.isSome = true → env.health.lookup node.url = some true)
    (hadmits : AdmitsPin F checked.firewall crates request peer env found node.name) :
    ∃ d, (checked.firewall.dispatch F crates request peer env found).1 = .ok d ∧
      d.chosen = some node ∧
      d.sent.url = (crates.setPath node.url request.uri.path).setQuery none := by
  obtain ⟨received, limiter, hreceived, hlimited, hlimiter, hadmitted⟩ := hadmits
  obtain ⟨-, -, hinfo, -, -, -⟩ := receive_ok_iff.mp hreceived
  have huri : received.info.uri = request.uri := by rw [hinfo]
  have hrequested : requestedUpstream received.info = some node.name := by
    unfold requestedUpstream
    rw [huri, if_neg (not_not.mpr hread), hparam]
  have hmatched : ∀ other, other ∈ checked.firewall.matchingEngine.findMatchingUrls env.health
      received.info received.body ↔ other ∈ checked.getNodes.entries ∧
        (config.healthcheck.isSome = true → env.health.lookup other.url = some true) := by
    intro other
    rw [checked.mem_findMatchingUrls, CheckedConfig.nodesFor, huri, if_pos hread]
  have hnode := (hmatched node).mpr ⟨hmem, hhealthy⟩
  have hnodes : ∀ other ∈ env.order.list (checked.firewall.matchingEngine.findMatchingUrls
      env.health received.info received.body), other ∈ checked.getNodes.entries := by
    intro other hother
    exact ((hmatched other).mp ((env.order.mem_list _ _).mp hother)).1
  -- the names of the get nodes are distinct, so the search ends at this one
  have hfound := findPinned_eq hnodes ((env.order.mem_list _ _).mpr hnode) hpinnable hrequested
  have hrouted : ∀ checkedState, (checked.firewall.route F crates received env
      { found with checked := checkedState }).1 = .ok (some node) := by
    intro checkedState
    apply route_pinned rfl ⟨node, hnode⟩
    rw [hfound]
    unfold limitPin
    rw [hlimiter]
    dsimp only
    rw [hadmitted]
    rfl
  obtain ⟨text, hparsed⟩ := parsed_of_buildNodeSet checked.getNodes_eq node hmem
  obtain ⟨sent, hsent, hurl⟩ := forward_ok hcrates hparsed received
  rw [huri] at hurl
  exact ⟨⟨received, some node, sent⟩,
    dispatch_ok_iff.mpr ⟨hreceived, hlimited, hrouted _, hsent⟩, rfl, hurl⟩

/-! ## The round trip -/

/-- **Upstream affinity**: a client that asks for the name it was given gets the node that
answered it, if that is still marked healthy and the pin limiter admits the request. -/
theorem affinity (hcrates : crates.KeepsHosts) (hheader : crates.KeepsTexts) {fw : Firewall}
    (hbuild : fromConfig crates config = .ok fw)
    -- a response that was relayed carries the name
    {request : Request} {peer : IpAddr} {env : Env} {found : Guarded} {d : Dispatch}
    {response : Response}
    (hhandled : (fw.handleRequest F crates request peer env found).1 = ⟨some d, some response⟩)
    {name : String} (hname : Text.utf8 name ∈ response.headers.getAll upstreamHeaderKey)
    -- a later read request asks for it
    {later : Request} {laterPeer : IpAddr} {laterEnv : Env} {laterFound : Guarded}
    (hread : later.uri.path ∈ getEndpoints) {query : String}
    (hquery : later.uri.query = some query) {before after : List String}
    (hpairs : Text.split '&' query = before ++ ("upstream=" ++ name) :: after)
    (hbefore : ∀ pair ∈ before, ¬ "upstream=".toList <+: pair.toList)
    (hhealthy : ∀ node, d.chosen = some node → config.healthcheck.isSome = true →
      laterEnv.health.lookup node.url = some true)
    (hadmits : AdmitsPin F fw crates later laterPeer laterEnv laterFound name) :
    ∃ node answer laterDispatch,
      d.chosen = some node ∧ env.reply = some answer ∧ sameOrigin node.url answer.url = true ∧
      (fw.handleRequest F crates later laterPeer laterEnv laterFound).1.dispatched =
        some laterDispatch ∧
      laterDispatch.chosen = some node ∧
      laterDispatch.sent.url = (crates.setPath node.url later.uri.path).setQuery none := by
  obtain ⟨checked, rfl⟩ := fromConfig_ok hbuild
  obtain ⟨node, answer, hchosen, hreply, horigin, hmem, hpinnable, rfl⟩ :=
    named_by_response hheader checked hhandled hname
  have hvalid := checked.getNodes.valid_name _ (checked.getNodes.name_mem node hmem hpinnable)
  have hnonempty : node.name ≠ "" := by
    intro hempty
    rw [hempty] at hvalid
    cases hvalid
  have hparam : upstreamParam later.uri.query = some node.name := by
    rw [hquery]
    exact upstreamParam_eq hpairs hbefore hnonempty
  obtain ⟨laterDispatch, hok, hlaterChosen, hurl⟩ := dispatch_pinned hcrates checked hmem
    hpinnable hread hparam (hhealthy node hchosen) hadmits
  exact ⟨node, answer, laterDispatch, hchosen, hreply, horigin,
    handleRequest_dispatched.mpr hok, hlaterChosen, hurl⟩

end Affinity

/-- The text `{}` as the parser reads it. -/
def emptyObject : List (String × Json) := [("\x7b\x7d", .object [])]

/-- The node answers a read request. -/
noncomputable def answeredEnv : Env :=
  { quietEnv with
    reply := some ⟨200, Crates.loopback 5001, .empty, some (Text.utf8 "\x7b\x7d")⟩ }

/-- The round trip with one node: it names itself, and the next request asks for it between
two other pairs. -/
theorem affinity_getOne :
    ∃ fw d response, fromConfig (.small emptyObject) (oneGetNode []) = .ok fw ∧
      (fw.handleRequest ℚ (.small emptyObject) (infoRequest none) (.v4 0) answeredEnv
        quietState).1 = ⟨some d, some response⟩ ∧
      Text.utf8 "get_one" ∈ response.headers.getAll upstreamHeaderKey ∧
      ∃ node answer laterDispatch,
        d.chosen = some node ∧ answeredEnv.reply = some answer ∧
        sameOrigin node.url answer.url = true ∧
        (fw.handleRequest ℚ (.small emptyObject) (infoRequest (some "a=b&upstream=get_one&c"))
          (.v4 0) quietEnv quietState).1.dispatched = some laterDispatch ∧
        laterDispatch.chosen = some node ∧
        laterDispatch.sent.url =
          ((Crates.small emptyObject).setPath node.url "/v1/chain/get_info").setQuery none := by
  have hlimiters : addRatelimiters (.small emptyObject) (selectAccounts []) [] [] = .ok [] := rfl
  obtain ⟨checked, hbuild, hfw⟩ := oneGetNode_built rfl hlimiters
  obtain ⟨sent, hok⟩ := oneGetNode_dispatch hfw ℚ answeredEnv rfl
  have hhandled : (checked.firewall.handleRequest ℚ (.small emptyObject) (infoRequest none)
      (.v4 0) answeredEnv quietState).1 = ⟨some ⟨infoReceived none, some getOne, sent⟩,
        some ⟨200, relayHeaders (.small emptyObject) (some getOne) "/v1/chain/get_info"
          (Crates.loopback 5001) .empty, Text.utf8 "\x7b\x7d"⟩⟩ := by
    rw [handleRequest_of_dispatch hok]
    rfl
  have hname : Text.utf8 "get_one" ∈ (relayHeaders (.small emptyObject) (some getOne)
      "/v1/chain/get_info" (Crates.loopback 5001) .empty).getAll upstreamHeaderKey := by
    decide
  have hpairs : Text.split '&' "a=b&upstream=get_one&c" =
      ["a=b"] ++ ("upstream=" ++ "get_one") :: ["c"] := by decide
  have hbefore : ∀ pair ∈ ["a=b"], ¬ "upstream=".toList <+: pair.toList := by decide
  -- the later request comes to the pin limiter, which has never seen its key
  have hadmits : AdmitsPin ℚ checked.firewall (.small emptyObject)
      (infoRequest (some "a=b&upstream=get_one&c")) (.v4 0) quietEnv quietState "get_one" := by
    refine ⟨infoReceived (some "a=b&upstream=get_one&c"), .new 30 60,
      checked.receive_infoRequest rfl rfl _ _ _, ?_, ?_, ?_⟩
    · rw [hfw]
      rfl
    · rw [hfw]
      rfl
    · show (PinLimiter.admits (.new 30 60) ∅ _ 0).1 = true
      decide
  have hread : (infoRequest (some "a=b&upstream=get_one&c")).uri.path ∈ getEndpoints := by
    simp [infoRequest, getEndpoints]
  refine ⟨checked.firewall, _, _, hbuild, hhandled, hname, ?_⟩
  refine affinity (Crates.small_keepsHosts _) (Crates.small_keepsTexts _) hbuild hhandled hname
    hread rfl hpairs hbefore ?_ hadmits
  intro node _ hchecked
  cases hchecked

end AntelopeFirewall.Firewall
