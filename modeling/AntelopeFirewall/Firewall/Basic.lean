import AntelopeFirewall.Firewall.Body
import AntelopeFirewall.Firewall.Upstream
import AntelopeFirewall.Metrics.Counters
import AntelopeFirewall.PinLimiter.Basic
import AntelopeFirewall.RateLimiter.Basic
import AntelopeFirewall.Routing

/-!
# Handling a Request

`handleRequest` takes a request through the firewall: read the body, apply the filters and
the rate limiters, match and choose a node, forward, and relay the answer.

- `receive` ends before the first shared counter is touched,
- `dispatch` ends when the request is sent to a node,
- `relay` is everything after the answer of the node.

Requests are served concurrently, and between two critical sections of one request those of
others run. `Guarded` therefore holds, for every critical section of one request, the state
that the section finds, and `handleRequest` returns what each of them leaves. Everything
else the code does not decide (clock readings, iteration orders, the health map, the random
draw, the answer of the node) is in `Env`.

The metrics are shared, too, and have a model of their own, in which the counters of a node are
registered before it is sent a request. Here a request only meets them after the answer, where
they can keep it from its end: `Env` has them as they are at that moment.
-/

namespace AntelopeFirewall

open Library

/-! ## Messages -/

/-- A request as the server hands it over. The body is none when collecting it fails. -/
structure Request where
  method : Method
  uri : Uri
  headers : HeaderMap
  sizeHintUpper : Option Nat
  body : Option (List UInt8)
  deriving DecidableEq, Repr

structure Response where
  status : StatusCode
  headers : HeaderMap
  body : List UInt8
  deriving DecidableEq, Repr

/-- The answer of a node: its status, the URL it came from after redirects, its headers, and
its body, none when reading that fails. -/
structure NodeReply where
  status : StatusCode
  url : Url
  headers : HeaderMap
  body : Option (List UInt8)
  deriving DecidableEq, Repr

def textPlain (headers : HeaderMap) : HeaderMap :=
  headers.append "content-type" (Text.utf8 "text/plain")

def getRatelimitResponse (retryAfter : Nat) : Response :=
  ⟨429, textPlain (HeaderMap.empty.append "retry-after" (Text.utf8 (toString retryAfter))), []⟩

def getBlockedResponse : Response := ⟨403, textPlain .empty, []⟩

def getOptionsResponse : Response :=
  ⟨200, HeaderMap.empty.append "allow" (Text.utf8 "OPTIONS, GET, POST"), []⟩

def getErrorResponse (text : String) : Response := ⟨500, textPlain .empty, Text.utf8 text⟩

def bodyTooBig : Response := ⟨413, .empty, Text.utf8 "Body too big"⟩

/-- How a request ends before it is sent to a node: with an answer, or with a panic that
drops the connection. -/
inductive Stop where
  | answer (response : Response)
  | panic
  deriving DecidableEq, Repr

/-! ## The firewall -/

/-- A filter decides whether or not a request should carry through. -/
structure Filter where
  name : String
  pass : FilterFn
  cache : Option JsonDataCache

def Filter.shouldRequestPass (filter : Filter) (info : RequestInfo) (value : Json)
    (now : Nat) : Bool :=
  match JsonDataCache.handleCacheOption filter.cache now with
  | some json => filter.pass info value json
  | none => false

/-- The rules that map a request to its possible nodes, in order. -/
structure MatchingEngine where
  rules : List MatchingFn

def MatchingEngine.findMatchingUrls (engine : MatchingEngine) (health : HealthMap)
    (info : RequestInfo) (body : Json) : Finset NodeEntry :=
  engine.rules.foldl (fun urls rule => rule health info body .null urls) ∅

/-- A firewall (`AntelopeFirewall`) as it was built. `routingMode` is the routing state it
starts with. -/
structure Firewall where
  filters : List Filter
  ratelimiters : List RateLimiter
  matchingEngine : MatchingEngine
  routingMode : RoutingModeState
  maxRequestBodySize : Nat
  clientIpHeader : Option String
  pinLimiter : Option PinLimiter

/-- What the check of one limiter reads: the order of its bucket set and its clock. -/
structure CheckReadings where
  order : IterOrder String
  now : Nat
  tick : String → Nat

/-- What the charge of one limiter reads. -/
structure ChargeReadings where
  order : IterOrder String
  now : Nat

/-- Everything the code does not decide while it handles one request. The metrics are those that
the answer of the node comes to. -/
structure Env where
  filterNow : Nat → Nat
  check : Nat → CheckReadings
  health : HealthMap
  order : IterOrder NodeEntry
  pinNow : Nat
  draw : Nat
  reply : Option NodeReply
  metrics : Metrics.State
  charge : Nat → ChargeReadings

/-- The shared state at the critical sections of one request: the counts that the check of
each limiter locks, the pin counters, the routing state, and the counts that the charge of
each limiter locks. -/
structure Guarded where
  checked : Nat → WindowState
  pins : PinState
  routing : RoutingModeState
  charged : Nat → WindowState

/-- A request that comes in, with everything that its handling reads. -/
structure Arrival where
  request : Request
  peer : IpAddr
  env : Env
  found : Guarded

namespace Firewall

/-! ## Receiving -/

/-- Pick the client address from a configured header: the first entry of its list, or the
socket peer when there is none that can be parsed. -/
def clientIpFromHeaders (crates : Crates) (headerName : Option String) (headers : HeaderMap)
    (peer : IpAddr) : IpAddr :=
  ((headerName.bind fun name => headers.get (Text.toAsciiLowercase name)).bind fun value =>
    (crates.headerToStr value).bind fun value =>
      (Text.split ',' value).head?.bind fun first => crates.parseIp (Text.trim first)).getD peer

def resolveClientIp (fw : Firewall) (crates : Crates) (headers : HeaderMap)
    (peer : IpAddr) : IpAddr := clientIpFromHeaders crates fw.clientIpHeader headers peer

/-- A request with its body read. -/
structure Received where
  info : RequestInfo
  bytes : List UInt8
  body : Json

/-- The bytes of the body. Only those of a POST request are read. -/
def bodyBytes (request : Request) : Option (List UInt8) :=
  match request.method with
  | .post => request.body
  | _ => some []

/-- Whether every filter lets the request through. -/
def passesFilters (fw : Firewall) (info : RequestInfo) (body : Json)
    (filterNow : Nat → Nat) : Bool :=
  fw.filters.zipIdx.all fun (filter, i) => filter.shouldRequestPass info body (filterNow i)

/-- Everything before the rate limiters. -/
def receive (fw : Firewall) (crates : Crates) (request : Request) (peer : IpAddr)
    (filterNow : Nat → Nat) : Except Stop Received :=
  -- a body of unknown size counts as the largest one
  if request.sizeHintUpper.getD (2 ^ 64 - 1) > fw.maxRequestBodySize then
    .error (.answer bodyTooBig)
  else
    let info : RequestInfo :=
      ⟨request.headers, request.uri, fw.resolveClientIp crates request.headers peer⟩
    match bodyBytes request with
    | none => .error (.answer (getErrorResponse "Error occurred while parsing request body."))
    | some bytes =>
      match readBody crates request.method bytes with
      | none => .error (.answer (getErrorResponse "Unable to parse body as JSON."))
      | some body =>
        if fw.passesFilters info body filterNow then
          -- the filters come first, for a preflight request, too
          if request.method = .options then .error (.answer getOptionsResponse)
          else .ok ⟨info, bytes, body⟩
        else .error (.answer getBlockedResponse)

/-! ## The rate limiters -/

/-- Check the limiters in order, the first of them being number `i`, until one does not let
the request through. -/
def checkRatelimiters (F : Type) [F32 F] (received : Received) (check : Nat → CheckReadings) :
    Nat → List RateLimiter → (Nat → WindowState) → Except Stop Unit × (Nat → WindowState)
  | _, [], found => (.ok (), found)
  | i, limiter :: rest, found =>
    let attempt : Attempt :=
      ⟨received.info, received.body, (check i).order, (check i).now, (check i).tick⟩
    let checked := limiter.shouldRequestPass F (found i) attempt
    let left := Function.update found i checked.2
    match checked.1.verdict with
    | some true => checkRatelimiters F received check (i + 1) rest left
    -- the limiters after it are not asked
    | some false => (.error (.answer (getRatelimitResponse limiter.windowDuration)), left)
    | none => (.error .panic, left)

/-- Charge the limiters that run after the request, in order. -/
def postIncrements (received : Received) (response : Json × StatusCode)
    (charge : Nat → ChargeReadings) :
    Nat → List RateLimiter → (Nat → WindowState) → (Nat → WindowState)
  | _, [], found => found
  | i, limiter :: rest, found =>
    let left :=
      if limiter.incrementMode.shouldRunBeforeRequest then found
      else
        Function.update found i (limiter.postIncrement (found i)
          ⟨received.info, received.body, response, (charge i).order, (charge i).now⟩)
    postIncrements received response charge (i + 1) rest left

/-! ## Routing -/

/-- The key of a client address and a node name in the pin limiter. -/
def pinKey (crates : Crates) (ip : IpAddr) (name : String) : String :=
  crates.ipToString ip ++ "::" ++ name

/-- The node that the request asks for by name, if it is among the matched ones. -/
def findPinned (info : RequestInfo) (nodes : List NodeEntry) : Option NodeEntry :=
  (requestedUpstream info).bind fun name =>
    nodes.find? fun node => node.pinnable && node.name = name

/-- Drop the pin of a client that is over its ceiling. -/
def limitPin (fw : Firewall) (crates : Crates) (ip : IpAddr) (now : Nat)
    (pinned : Option NodeEntry) (pins : PinState) : Option NodeEntry × PinState :=
  match pinned, fw.pinLimiter with
  | some node, some limiter =>
    let asked := limiter.admits pins (pinKey crates ip node.name) now
    -- over the ceiling the pin drops and the routing mode picks
    (if asked.1 then some node else none, asked.2)
  | pinned, _ => (pinned, pins)

/-- Match the request and choose its node. -/
def route (F : Type) [F32 F] (fw : Firewall) (crates : Crates) (received : Received)
    (env : Env) (found : Guarded) : Except Stop (Option NodeEntry) × Guarded :=
  let urls := fw.matchingEngine.findMatchingUrls env.health received.info received.body
  if urls.card = 0 then
    (.error (.answer (getErrorResponse "Failed to find a route for your request.")), found)
  else
    let nodes := env.order.list urls
    let limited :=
      fw.limitPin crates received.info.ip env.pinNow (findPinned received.info nodes) found.pins
    let found := { found with pins := limited.2 }
    match limited.1 with
    -- a pin leaves the routing state alone
    | some node => (.ok (some node), found)
    | none =>
      let chosen :=
        RoutingModeState.choose F crates found.routing received.info.uri.path nodes env.draw
      let found := { found with routing := chosen.2 }
      match chosen.1 with
      | some node => (.ok node, found)
      | none => (.error .panic, found)

/-! ## Forwarding -/

/-- What is sent to a node, by POST. -/
structure Sent where
  url : Url
  headers : HeaderMap
  body : List UInt8
  deriving DecidableEq, Repr

/-- The URL of the chosen node, or of the local host when there is none. -/
def baseUrl (crates : Crates) (chosen : Option NodeEntry) : Option Url :=
  match chosen with
  | some node => some node.url
  | none => crates.parseUrl "https://127.0.0.1/"

/-- The name of its host in the metrics (`prometheus_url_name`). -/
def urlName (crates : Crates) (chosen : Option NodeEntry) : String :=
  match baseUrl crates chosen with
  | some url => Metrics.prometheusUrlName crates.isAlphanumeric url
  -- nothing is forwarded without a URL
  | none => "unknown"

/-- Address the request to the chosen node, or to the local host when there is none. No
query is forwarded. -/
def forward (crates : Crates) (chosen : Option NodeEntry) (received : Received) :
    Except Stop Sent :=
  match baseUrl crates chosen with
  | none => .error .panic
  | some url =>
    let url := (crates.setPath url received.info.uri.path).setQuery none
    match url.hostStr with
    -- without a host the client's own header goes along
    | none => .ok ⟨url, received.info.headers, received.bytes⟩
    | some host =>
      match crates.headerFromStr host with
      | some value => .ok ⟨url, received.info.headers.insert "host" value, received.bytes⟩
      | none => .error .panic

/-- A request on its way to a node. -/
structure Dispatch where
  received : Received
  chosen : Option NodeEntry
  sent : Sent

/-- Everything up to the sending of the request. -/
def dispatch (F : Type) [F32 F] (fw : Firewall) (crates : Crates) (request : Request)
    (peer : IpAddr) (env : Env) (found : Guarded) : Except Stop Dispatch × Guarded :=
  match fw.receive crates request peer env.filterNow with
  | .error stop => (.error stop, found)
  | .ok received =>
    let limited := checkRatelimiters F received env.check 0 fw.ratelimiters found.checked
    let found := { found with checked := limited.2 }
    match limited.1 with
    | .error stop => (.error stop, found)
    | .ok _ =>
      let routed := fw.route F crates received env found
      match routed.1 with
      | .error stop => (.error stop, routed.2)
      | .ok chosen =>
        match forward crates chosen received with
        | .error stop => (.error stop, routed.2)
        | .ok sent => (.ok ⟨received, chosen, sent⟩, routed.2)

/-! ## Relaying -/

/-- Everything after the answer of the node: the response, none for a panic, and the counts
that the charges leave. -/
def relay (fw : Firewall) (crates : Crates) (dispatch : Dispatch)
    (reply : Option NodeReply) (metrics : Metrics.State) (charge : Nat → ChargeReadings)
    (found : Nat → WindowState) : Option Response × (Nat → WindowState) :=
  match reply with
  | none => (some (getErrorResponse "Error forwarding request."), found)
  | some reply =>
    -- the counter of the answer, which its first use registers: `unwrap` on a name that is taken
    if Metrics.countsAnswer metrics (urlName crates dispatch.chosen) reply.status then
      let headers := relayHeaders crates dispatch.chosen dispatch.received.info.uri.path reply.url
        reply.headers
      match reply.body with
      -- `unwrap` on a body that cannot be read
      | none => (none, found)
      | some bytes =>
        match crates.fromSlice bytes with
        -- the path ends before the limiters hear of the answer
        | none => (some (getErrorResponse "Error forwarding request."), found)
        | some value =>
          (some ⟨reply.status, headers, bytes⟩,
            postIncrements dispatch.received (value, reply.status) charge 0 fw.ratelimiters found)
    else (none, found)

/-- What became of a request: how it was dispatched, if it was, and its response, none when
the handler panicked. -/
structure Handled where
  dispatched : Option Dispatch
  response : Option Response

/-- Take a request through the firewall. -/
def handleRequest (F : Type) [F32 F] (fw : Firewall) (crates : Crates)
    (request : Request) (peer : IpAddr) (env : Env) (found : Guarded) : Handled × Guarded :=
  let dispatched := fw.dispatch F crates request peer env found
  match dispatched.1 with
  | .error (.answer response) => (⟨none, some response⟩, dispatched.2)
  | .error .panic => (⟨none, none⟩, dispatched.2)
  -- the charges find the counts that other requests have left in the meantime
  | .ok dispatch =>
    let relayed := fw.relay crates dispatch env.reply env.metrics env.charge dispatched.2.charged
    (⟨some dispatch, relayed.1⟩, { dispatched.2 with charged := relayed.2 })

end Firewall

end AntelopeFirewall
