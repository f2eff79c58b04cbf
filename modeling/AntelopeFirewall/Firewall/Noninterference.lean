import AntelopeFirewall.Firewall.Ceilings
import AntelopeFirewall.Library.Lockstep

/-!
# What the Firewall Looks At

Of a request a firewall that was built from a configuration looks at the method, the path, the
body, the address of the client and the node that a read request asks for. The other headers and
the rest of the query go along, and make no difference to any request.

- `ReadsBare` says so of the functions of a firewall, and `readsBare` that a built one has no
  others,
- `alike` says that requests that look alike take alike steps,
- `seen_alike` compares two interleavings of such requests.
-/

namespace AntelopeFirewall

open Library Library.Machine Library.Concurrent

/-- The path and the client of a request. -/
def RequestInfo.bare (info : RequestInfo) : RequestInfo := ⟨.empty, ⟨info.uri.path, none⟩, info.ip⟩

namespace Firewall

/-! ## The functions of a built firewall -/

/-- No function of a firewall looks at more of a request than its path, its client and its body. -/
structure ReadsBare (F : Type) [F32 F] (fw : Firewall) : Prop where
  filters : ∀ filter ∈ fw.filters, ∀ info body now,
    filter.shouldRequestPass info body now = filter.shouldRequestPass info.bare body now
  checks : ∀ limiter ∈ fw.ratelimiters, ∀ state info body order now tick,
    limiter.shouldRequestPass F state ⟨info, body, order, now, tick⟩ =
      limiter.shouldRequestPass F state ⟨info.bare, body, order, now, tick⟩
  charges : ∀ limiter ∈ fw.ratelimiters, ∀ info body response order now,
    limiter.postCharges ⟨info, body, response, order, now⟩ =
      limiter.postCharges ⟨info.bare, body, response, order, now⟩
  rules : ∀ health info body,
    fw.matchingEngine.findMatchingUrls health info body =
      fw.matchingEngine.findMatchingUrls health info.bare body

theorem getBuckets_bare (crates : Crates) (select : Table String (Finset String))
    (bucket : RatelimitBucket) (name : String) (info : RequestInfo) (body cached : Json) :
    bucket.getBuckets crates select name info body cached =
      bucket.getBuckets crates select name info.bare body cached := by
  cases bucket with
  | contract => rfl
  | ip => rfl
  | sender => rfl
  | table => rfl

theorem readsBare {F : Type} [F32 F] {crates : Crates} {config : Config} {fw : Firewall}
    (hbuild : fromConfig crates config = .ok fw) : fw.ReadsBare F := by
  obtain ⟨checked, rfl⟩ := fromConfig_ok hbuild
  -- Every limiter of a built firewall has the buckets of its configuration.
  have hlimiters : ∀ limiter ∈ checked.firewall.ratelimiters, ∃ ratelimit : RatelimitConfig,
      newRatelimiter crates (selectAccounts config.ratelimit) ratelimit = .ok limiter := by
    intro limiter hmem
    obtain ⟨ratelimit, -, hnew⟩ := mem_addRatelimiters checked.ratelimiters_eq hmem
    exact ⟨ratelimit, hnew⟩
  -- The four parts that could look at a header or a query, one after the other.
  constructor
  · intro filter hmem info body now
    obtain rfl := List.mem_singleton.mp hmem
    rfl
  · intro limiter hmem state info body order now tick
    obtain ⟨ratelimit, hnew⟩ := hlimiters limiter hmem
    unfold newRatelimiter at hnew
    split at hnew
    · cases hnew
      unfold RateLimiter.shouldRequestPass RateLimiter.rateUsed
      simp only [getBuckets_bare crates _ _ _ info]
      -- attempts and failures are charged at one of the two places only
      cases ratelimit.limitOn with
      | attempt => rfl
      | failure => rfl
    · cases hnew
  · intro limiter hmem info body response order now
    obtain ⟨ratelimit, hnew⟩ := hlimiters limiter hmem
    unfold newRatelimiter at hnew
    split at hnew
    · cases hnew
      unfold RateLimiter.postCharges
      simp only [getBuckets_bare crates _ _ _ info]
      cases ratelimit.limitOn with
      | attempt => rfl
      | failure => rfl
    · cases hnew
  · intro health info body
    unfold CheckedConfig.firewall assemble MatchingEngine.findMatchingUrls
    cases config.healthcheck with
    | none => rfl
    | some _ => rfl

/-! ## Requests that look alike -/

/-- The path, the client and the node that is asked for are the same. -/
structure InfoAlike (info info' : RequestInfo) : Prop where
  bare : info.bare = info'.bare
  upstream : requestedUpstream info = requestedUpstream info'

structure ReceivedAlike (received received' : Received) : Prop where
  info : InfoAlike received.info received'.info
  bytes : received.bytes = received'.bytes
  body : received.body = received'.body

/-- The same bytes go to the same URL of the same node. -/
structure DispatchAlike (d d' : Dispatch) : Prop where
  received : ReceivedAlike d.received d'.received
  chosen : d.chosen = d'.chosen
  url : d.sent.url = d'.sent.url
  body : d.sent.body = d'.sent.body

/-- The same answer to the client. -/
structure HandledAlike (handled handled' : Handled) : Prop where
  response : handled.response = handled'.response
  dispatched : Option.Rel DispatchAlike handled.dispatched handled'.dispatched

/-- The handling is as far in both. -/
inductive ProgressAlike : Progress → Progress → Prop where
  | arrived : ProgressAlike .arrived .arrived
  | limiting {received received' : Received} (h : ReceivedAlike received received') (i : Nat) :
      ProgressAlike (.limiting received i) (.limiting received' i)
  | matching {received received' : Received} (h : ReceivedAlike received received') :
      ProgressAlike (.matching received) (.matching received')
  | pinning {received received' : Received} (h : ReceivedAlike received received')
      (nodes : List NodeEntry) (node : NodeEntry) :
      ProgressAlike (.pinning received nodes node) (.pinning received' nodes node)
  | choosing {received received' : Received} (h : ReceivedAlike received received')
      (nodes : List NodeEntry) :
      ProgressAlike (.choosing received nodes) (.choosing received' nodes)
  | forwarding {received received' : Received} (h : ReceivedAlike received received')
      (chosen : Option NodeEntry) :
      ProgressAlike (.forwarding received chosen) (.forwarding received' chosen)
  | waiting {d d' : Dispatch} (h : DispatchAlike d d') : ProgressAlike (.waiting d) (.waiting d')
  | charging {d d' : Dispatch} (h : DispatchAlike d d') (outcome : Json × StatusCode)
      (response : Response) (i : Nat) :
      ProgressAlike (.charging d outcome response i) (.charging d' outcome response i)
  | ended {handled handled' : Handled} (h : HandledAlike handled handled') :
      ProgressAlike (.ended handled) (.ended handled')

/-- Two requests look alike to a firewall: they have the same method, path and body, the same
client, a read request asks for the same node, and everything the code does not decide goes the
same way. -/
structure IncomingAlike (fw : Firewall) (crates : Crates) (incoming incoming' : Incoming) :
    Prop where
  method : incoming.request.method = incoming'.request.method
  path : incoming.request.uri.path = incoming'.request.uri.path
  size : incoming.request.sizeHintUpper = incoming'.request.sizeHintUpper
  body : incoming.request.body = incoming'.request.body
  client : fw.resolveClientIp crates incoming.request.headers incoming.peer =
    fw.resolveClientIp crates incoming'.request.headers incoming'.peer
  upstream : incoming.request.uri.path ∈ getEndpoints →
    upstreamParam incoming.request.uri.query = upstreamParam incoming'.request.uri.query
  env : incoming.env = incoming'.env

structure TaskAlike (fw : Firewall) (crates : Crates) (task task' : Task) : Prop where
  incoming : IncomingAlike fw crates ⟨task.request, task.peer, task.env⟩
    ⟨task'.request, task'.peer, task'.env⟩
  progress : ProgressAlike task.progress task'.progress

/-- A part does the same with both. -/
def AsksAlike (F : Type) [F32 F] (fw : Firewall) (crates : Crates) (part : Part fw)
    (input input' : part.Input) : Prop :=
  ∀ state, part.serve F crates state input = part.serve F crates state input'

/-! ## One phase at a time -/

section Phases

variable {F : Type} [F32 F] {fw : Firewall} {crates : Crates}

theorem InfoAlike.ip {info info' : RequestInfo} (h : InfoAlike info info') :
    info.ip = info'.ip := by
  have hip : info.bare.ip = info'.bare.ip := congrArg RequestInfo.ip h.bare
  exact hip

theorem InfoAlike.path {info info' : RequestInfo} (h : InfoAlike info info') :
    info.uri.path = info'.uri.path := by
  have hpath : info.bare.uri.path = info'.bare.uri.path :=
    congrArg (fun bare => bare.uri.path) h.bare
  exact hpath

theorem passesFilters_alike (hreads : fw.ReadsBare F) {info info' : RequestInfo}
    (h : InfoAlike info info') (body : Json) (filterNow : Nat → Nat) :
    fw.passesFilters info body filterNow = fw.passesFilters info' body filterNow := by
  rw [Bool.eq_iff_iff, passesFilters_iff, passesFilters_iff]
  refine forall_congr' fun i => forall_congr' fun filter => forall_congr' fun hget => ?_
  have hmem := List.mem_of_getElem? hget
  rw [hreads.filters filter hmem info, hreads.filters filter hmem info', h.bare]

/-- Both are received, alike, or stopped with the same answer. -/
theorem receive_alike (hreads : fw.ReadsBare F) {incoming incoming' : Incoming}
    (h : IncomingAlike fw crates incoming incoming') :
    (∃ received received',
      fw.receive crates incoming.request incoming.peer incoming.env.filterNow = .ok received ∧
      fw.receive crates incoming'.request incoming'.peer incoming'.env.filterNow =
        .ok received' ∧ ReceivedAlike received received') ∨
    ∃ stop,
      fw.receive crates incoming.request incoming.peer incoming.env.filterNow = .error stop ∧
      fw.receive crates incoming'.request incoming'.peer incoming'.env.filterNow =
        .error stop := by
  obtain ⟨⟨method, uri, headers, size, body⟩, peer, env⟩ := incoming
  obtain ⟨⟨method', uri', headers', size', body'⟩, peer', env'⟩ := incoming'
  obtain ⟨hmethod, hpath, hsize, hbody, hclient, hupstream, henv⟩ := h
  dsimp only at hmethod hpath hsize hbody hclient hupstream henv
  subst hmethod hsize hbody henv
  have hinfo : InfoAlike ⟨headers, uri, fw.resolveClientIp crates headers peer⟩
      ⟨headers', uri', fw.resolveClientIp crates headers' peer'⟩ := by
    constructor
    · unfold RequestInfo.bare
      rw [hpath, hclient]
    · unfold requestedUpstream
      dsimp only
      rw [← hpath]
      split
      · rfl
      · next hread => exact hupstream (not_not.mp hread)
  have hbytes : bodyBytes ⟨method, uri, headers, size, body⟩ =
      bodyBytes ⟨method, uri', headers', size, body⟩ := rfl
  unfold receive
  rw [hbytes]
  dsimp only
  by_cases hlarge : size.getD (2 ^ 64 - 1) > fw.maxRequestBodySize
  · rw [if_pos hlarge, if_pos hlarge]
    exact .inr ⟨_, rfl, rfl⟩
  · rw [if_neg hlarge, if_neg hlarge]
    cases bodyBytes ⟨method, uri', headers', size, body⟩ with
    | none => exact .inr ⟨_, rfl, rfl⟩
    | some bytes =>
      dsimp only
      cases readBody crates method bytes with
      | none => exact .inr ⟨_, rfl, rfl⟩
      | some value =>
        -- the filters give one answer to both
        dsimp only
        rw [passesFilters_alike hreads hinfo]
        split
        · split
          · exact .inr ⟨_, rfl, rfl⟩
          · exact .inl ⟨_, _, rfl, rfl, hinfo, rfl, rfl⟩
        · exact .inr ⟨_, rfl, rfl⟩

theorem findPinned_alike {info info' : RequestInfo} (h : InfoAlike info info')
    (nodes : List NodeEntry) : findPinned info nodes = findPinned info' nodes := by
  unfold findPinned
  rw [h.upstream]

theorem forward_alike {received received' : Received} (h : ReceivedAlike received received')
    (chosen : Option NodeEntry) :
    (∃ sent sent', forward crates chosen received = .ok sent ∧
      forward crates chosen received' = .ok sent' ∧
      DispatchAlike ⟨received, chosen, sent⟩ ⟨received', chosen, sent'⟩) ∨
    ∃ stop, forward crates chosen received = .error stop ∧
      forward crates chosen received' = .error stop := by
  -- The URL comes from the path and the node, and the bytes are the same.
  unfold forward
  rw [h.info.path, h.bytes]
  dsimp only
  split
  · exact .inr ⟨_, rfl, rfl⟩
  · next url hurl =>
    split
    · exact .inl ⟨_, _, rfl, rfl, h, rfl, rfl, rfl⟩
    · next host hhost =>
      split
      · exact .inl ⟨_, _, rfl, rfl, h, rfl, rfl, rfl⟩
      · exact .inr ⟨_, rfl, rfl⟩

theorem check_alike (hreads : fw.ReadsBare F) {received received' : Received}
    (h : ReceivedAlike received received') (env : Env) (i : Fin fw.ratelimiters.length) :
    AsksAlike F fw crates (.limiter i) (checkCall received env i) (checkCall received' env i) := by
  intro state
  have hmem : fw.limiterAt i ∈ fw.ratelimiters := List.get_mem ..
  show RateLimiter.respond F (fw.limiterAt i) state (.check _) =
    RateLimiter.respond F (fw.limiterAt i) state (.check _)
  unfold RateLimiter.respond attemptAt
  dsimp only
  rw [hreads.checks _ hmem state received.info, hreads.checks _ hmem state received'.info,
    h.info.bare, h.body]

theorem charge_alike (hreads : fw.ReadsBare F) {d d' : Dispatch} (h : DispatchAlike d d')
    (outcome : Json × StatusCode) (env : Env) (i : Fin fw.ratelimiters.length) :
    AsksAlike F fw crates (.limiter i) (chargeCall d outcome env i)
      (chargeCall d' outcome env i) := by
  intro state
  have hmem : fw.limiterAt i ∈ fw.ratelimiters := List.get_mem ..
  show RateLimiter.respond F (fw.limiterAt i) state (.charge _) =
    RateLimiter.respond F (fw.limiterAt i) state (.charge _)
  unfold RateLimiter.respond RateLimiter.postIncrement
  dsimp only
  rw [hreads.charges _ hmem d.received.info, hreads.charges _ hmem d'.received.info,
    h.received.info.bare, h.received.body]

theorem answered_alike {d d' : Dispatch} (h : DispatchAlike d d') (reply : Option NodeReply)
    (metrics : Metrics.State) :
    ProgressAlike (answered crates d reply metrics) (answered crates d' reply metrics) := by
  unfold answered
  cases reply with
  | none => exact .ended ⟨rfl, .some h⟩
  | some answer =>
    dsimp only
    -- the counters are those of the same host
    rw [h.chosen, h.received.info.path]
    split
    · cases answer.body with
      | none => exact .ended ⟨rfl, .some h⟩
      | some bytes =>
        dsimp only
        cases crates.fromSlice bytes with
        | none => exact .ended ⟨rfl, .some h⟩
        | some value => exact .charging h _ _ 0
    · exact .ended ⟨rfl, .some h⟩

/-! ## Whole requests -/

theorem stopped_alike (stop : Stop) : HandledAlike (stopped stop) (stopped stop) := by
  cases stop with
  | answer response => exact ⟨rfl, .none⟩
  | panic => exact ⟨rfl, .none⟩

/-- **Step**: requests that look alike and are as far take alike steps. -/
theorem next_alike (hreads : fw.ReadsBare F) {task task' : Task}
    (h : TaskAlike fw crates task task') :
    System.MovesAlike (S := fw.system F crates) (TaskAlike fw crates) (AsksAlike F fw crates)
      (task.next fw crates) (task'.next fw crates) := by
  obtain ⟨request, peer, env, progress⟩ := task
  obtain ⟨request', peer', env', progress'⟩ := task'
  obtain ⟨hincoming, hprogress⟩ := h
  obtain rfl : env = env' := hincoming.env
  dsimp only at hincoming hprogress
  -- the next step changes how far the requests are, and nothing else
  have hthen : ∀ {later later' : Progress}, ProgressAlike later later' →
      TaskAlike fw crates ⟨request, peer, env, later⟩ ⟨request', peer', env, later'⟩ :=
    fun hlater => ⟨hincoming, hlater⟩
  unfold Task.next
  cases hprogress with
  | arrived =>
    dsimp only
    rcases receive_alike hreads hincoming with
      ⟨received, received', hreceived, hreceived', halike⟩ | ⟨stop, hstop, hstop'⟩
    · dsimp only at hreceived hreceived'
      rw [hreceived, hreceived']
      exact .own (hthen (.limiting halike 0))
    · dsimp only at hstop hstop'
      rw [hstop, hstop']
      exact .own (hthen (.ended (stopped_alike stop)))
  | limiting halike i =>
    dsimp only
    split
    · next hi =>
      refine .ask (check_alike hreads halike env ⟨i, hi⟩) fun reply => ?_
      split
      · exact hthen (.limiting halike (i + 1))
      · exact hthen (.ended (stopped_alike _))
      · exact hthen (.ended (stopped_alike _))
    · exact .own (hthen (.matching halike))
  | matching halike =>
    dsimp only
    rw [hreads.rules env.health _ _, halike.info.bare, halike.body, ← hreads.rules env.health _ _]
    split
    · exact .own (hthen (.ended (stopped_alike _)))
    · rw [findPinned_alike halike.info]
      split
      · exact .own (hthen (.pinning halike _ _))
      · exact .own (hthen (.forwarding halike _))
      · exact .own (hthen (.choosing halike _))
  | @pinning received received' halike nodes node =>
    have hasks : AsksAlike F fw crates .pins (pinCall crates received env node)
        (pinCall crates received' env node) := by
      intro state
      unfold pinCall
      rw [halike.info.ip]
    refine .ask hasks fun admitted => ?_
    dsimp only
    split
    · exact hthen (.forwarding halike _)
    · exact hthen (.choosing halike _)
  | @choosing received received' halike nodes =>
    have hasks : AsksAlike F fw crates .routing (selectionFrom received env nodes)
        (selectionFrom received' env nodes) := by
      intro state
      unfold selectionFrom
      rw [halike.info.path]
    refine .ask hasks fun chosen => ?_
    dsimp only
    split
    · exact hthen (.forwarding halike _)
    · exact hthen (.ended (stopped_alike _))
  | forwarding halike chosen =>
    dsimp only
    rcases forward_alike halike chosen with
      ⟨sent, sent', hsent, hsent', hdispatch⟩ | ⟨stop, hstop, hstop'⟩
    · rw [hsent, hsent']
      exact .own (hthen (.waiting hdispatch))
    · rw [hstop, hstop']
      exact .own (hthen (.ended (stopped_alike stop)))
  | waiting halike => exact .own (hthen (answered_alike halike env.reply env.metrics))
  | charging halike outcome response i =>
    dsimp only
    split
    · next hi =>
      split
      · exact .own (hthen (.charging halike outcome response (i + 1)))
      · exact .ask (charge_alike hreads halike outcome env ⟨i, hi⟩) fun _ =>
          hthen (.charging halike outcome response (i + 1))
    · exact .own (hthen (.ended ⟨rfl, .some halike⟩))
  | ended halike => exact .rest

theorem alike (hreads : fw.ReadsBare F) :
    System.Alike (S := fw.system F crates) (TaskAlike fw crates) (AsksAlike F fw crates)
      (IncomingAlike fw crates) where
  start := fun harrive => ⟨harrive, .arrived⟩
  next := fun h => next_alike hreads h
  serve := fun h => h

end Phases

/-- What is seen of a request that was sent: the node, the URL and the bytes. -/
def Handled.seen (handled : Handled) : Option (Option NodeEntry × Url × List UInt8) :=
  handled.dispatched.map fun d => (d.chosen, d.sent.url, d.sent.body)

theorem HandledAlike.seen {handled handled' : Handled} (h : HandledAlike handled handled') :
    handled'.seen = handled.seen := by
  obtain ⟨dispatched, response⟩ := handled
  obtain ⟨dispatched', response'⟩ := handled'
  obtain ⟨-, hdispatched⟩ := h
  cases hdispatched with
  | none => rfl
  | some halike =>
    unfold Handled.seen
    rw [Option.map_some, Option.map_some, halike.chosen, halike.url, halike.body]

/-- **Noninterference**: in two interleavings of requests that look alike to a built firewall, the
parts are left in the same states, and each request that is through in the one is through in the
other, with the same answer, sent to the same URL of the same node with the same bytes or not at
all. Alike are requests with equal bodies and size hints whose handling also reads the same clocks,
draws, health and metrics and gets the same reply of the node. -/
theorem seen_alike (F : Type) [F32 F] (crates : Crates) (config : Config) (fw : Firewall)
    (hbuild : fromConfig crates config = .ok fw) (shared : ∀ part : Part fw, part.State)
    (events events' : List (System.Event (fw.system F crates)))
    (halike : List.Forall₂ (System.EventsAlike (IncomingAlike fw crates)) events events') :
    (after F fw crates shared events).shared = (after F fw crates shared events').shared ∧
    ∀ (j : Nat) (task : Task) (handled : Handled),
      (after F fw crates shared events).parties[j]? = some task →
      task.progress = .ended handled →
      ∃ (task' : Task) (handled' : Handled),
        (after F fw crates shared events').parties[j]? = some task' ∧
        task'.progress = .ended handled' ∧ handled'.response = handled.response ∧
        handled'.seen = handled.seen := by
  have hfirst : System.WorldsAlike (S := fw.system F crates) (TaskAlike fw crates)
      ⟨shared, []⟩ ⟨shared, []⟩ := ⟨rfl, .nil⟩
  -- The two interleavings stay alike step by step; an ended request is then ended in both.
  have hworlds := (alike (readsBare hbuild)).run hfirst halike
  refine ⟨hworlds.shared, fun j task handled htask hended => ?_⟩
  have hparties : List.Forall₂ (TaskAlike fw crates) (after F fw crates shared events).parties
      (after F fw crates shared events').parties := hworlds.parties
  rcases System.forall₂_getElem? hparties j with
    ⟨hnone, -⟩ | ⟨party, task', hparty, htask', hsame⟩
  · exact absurd (htask.symm.trans hnone) (Option.some_ne_none _)
  · obtain rfl : task = party := Option.some_inj.mp (htask.symm.trans hparty)
    have hprogress := hsame.progress
    rw [hended] at hprogress
    cases hlater : task'.progress with
    | ended handled' =>
      rw [hlater] at hprogress
      cases hprogress with
      | ended hhandled =>
        exact ⟨task', handled', htask', hlater, hhandled.response.symm, hhandled.seen⟩
    | _ =>
      rw [hlater] at hprogress
      cases hprogress

/-! ## A request with a cookie -/

/-- The request has a header more, and asks for the node between two other pairs. -/
noncomputable def withCookie (incoming : Incoming) : Incoming :=
  { incoming with request := { infoRequest (some "a=b&upstream=get_one&c") with
      headers := HeaderMap.empty.insert "cookie" (Text.utf8 "session") } }

noncomputable def asking : Incoming :=
  { answeredWith 200 with request := infoRequest (some "upstream=get_one") }

theorem incomingAlike_withCookie {fw : Firewall} {crates : Crates} (h : fw.clientIpHeader = none) :
    IncomingAlike fw crates asking (withCookie asking) where
  method := rfl
  path := rfl
  size := rfl
  body := rfl
  client := by
    unfold resolveClientIp clientIpFromHeaders
    rw [h]
    rfl
  upstream := fun _ => by decide
  env := rfl

/-- It is answered as it is without the cookie. -/
theorem seen_alike_withCookie :
    ∃ fw, fromConfig (.small []) (oneGetNode []) = .ok fw ∧
      ∃ task task' : Task, ∃ handled handled' : Handled,
        (after ℚ fw (.small []) (fresh fw 0)
          (.join asking :: List.replicate 8 (.turn 0))).parties[0]? = some task ∧
        task.progress = .ended handled ∧
        (after ℚ fw (.small []) (fresh fw 0)
          (.join (withCookie asking) :: List.replicate 8 (.turn 0))).parties[0]? = some task' ∧
        task'.progress = .ended handled' ∧ handled'.response = handled.response ∧
        handled'.seen = handled.seen := by
  -- There is no limiter and no header to read the client from.
  have hlimiters : addRatelimiters (.small []) (selectAccounts []) [] [] = .ok [] := rfl
  obtain ⟨checked, hbuild, hfw⟩ := oneGetNode_built rfl hlimiters
  have hnone : checked.firewall.ratelimiters.length = 0 := by
    rw [hfw]
    rfl
  have hheader : checked.firewall.clientIpHeader = none := by
    rw [hfw]
    rfl
  obtain ⟨task, htask, hzero⟩ := ended_alone ℚ checked.firewall (.small [])
    (fresh checked.firewall 0) asking 8 (by rw [hnone])
  obtain ⟨handled, hended⟩ := ended_of_remaining_zero hzero
  have halike : List.Forall₂
      (System.EventsAlike (S := checked.firewall.system ℚ (.small []))
        (IncomingAlike checked.firewall (.small [])))
      (.join asking :: List.replicate 8 (.turn 0))
      (.join (withCookie asking) :: List.replicate 8 (.turn 0)) :=
    .cons (.join (incomingAlike_withCookie hheader)) (List.forall₂_same.mpr fun event hevent => by
      rw [List.eq_of_mem_replicate hevent]
      exact .turn 0)
  obtain ⟨-, hseen⟩ := seen_alike ℚ (.small []) (oneGetNode []) checked.firewall hbuild
    (fresh checked.firewall 0) _ _ halike
  obtain ⟨task', handled', htask', hended', hresponse, hsent⟩ := hseen 0 task handled htask hended
  exact ⟨checked.firewall, hbuild, task, task', handled, handled', htask, hended, htask', hended',
    hresponse, hsent⟩

end Firewall

end AntelopeFirewall
