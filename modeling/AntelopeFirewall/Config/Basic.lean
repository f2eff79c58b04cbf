import AntelopeFirewall.Config.NodeSet
import AntelopeFirewall.Firewall.Phases

/-!
# Building a Firewall from a Configuration

- `contractFilter`, `getBuckets`, `nodeRule` and `healthRule` are the functions that a built
  firewall is made of,
- `fromConfig` checks a configuration in the order of the source and assembles the firewall,
- `CheckedConfig` holds what the checks establish, and `fromConfig_ok` says that a firewall
  is built from such parts only.

The source keeps the lists of the configuration in process-wide statics that only
`from_config` writes. The functions below are given their contents. The health map is the
exception: the health checker writes it while requests are served.
-/

namespace AntelopeFirewall

open Library

/-! ## The configuration -/

structure HealthcheckConfig where
  interval : Nat
  gracePeriod : Nat
  deriving DecidableEq, Repr

/-- `as i64` -/
def asI64 (n : Nat) : Int := (BitVec.ofNat 64 n).toInt

/-- The seconds that `chrono::Duration::seconds` takes without a panic: it holds up to `i64::MAX`
milliseconds either way. -/
def isDuration (seconds : Int) : Bool :=
  -9223372036854775 ≤ seconds ∧ seconds ≤ 9223372036854775

/-- The interval and the grace period make durations. -/
def HealthcheckConfig.fits (healthcheck : HealthcheckConfig) : Bool :=
  isDuration (asI64 healthcheck.interval) && isDuration (asI64 healthcheck.gracePeriod)

structure FilterConfig where
  blockContracts : Option (List String) := none
  blockIps : Option (List String) := none
  allowOnlyContracts : Option (List String) := none
  deriving DecidableEq, Repr

inductive RatelimitType where
  | attempt
  | failure
  deriving DecidableEq, Repr

inductive RatelimitBucket where
  | contract
  | ip
  | sender
  | table
  deriving DecidableEq, Repr

structure RatelimitConfig where
  name : String
  limitOn : RatelimitType
  bucketType : RatelimitBucket
  limit : Nat
  windowDuration : Nat
  selectAccounts : Option (List String) := none
  deriving DecidableEq, Repr

inductive RoutingMode where
  | roundRobin
  | leastConnections
  | random
  deriving DecidableEq, Repr

def RoutingMode.toState : RoutingMode → RoutingModeState
  | .roundRobin => .baseRoundRobin
  | .leastConnections => .baseLeastConnected
  | .random => .baseRandom

structure Config where
  routingMode : RoutingMode
  maxRequestBodySize : Nat := 1024 * 64
  clientIpHeader : Option String := none
  pinnedRequestsPerWindow : Nat := 30
  pinnedWindowSeconds : Nat := 60
  healthcheck : Option HealthcheckConfig := none
  filter : Option FilterConfig := none
  ratelimit : List RatelimitConfig
  pushNodes : List Node
  getNodes : List Node
  deriving DecidableEq, Repr

/-- How building a firewall fails: with an error text, or with a panic. -/
inductive BuildError where
  | message (text : String)
  | panic
  deriving DecidableEq, Repr

/-! ## The filter -/

/-- The contracts of the block list. -/
def Config.blockedContracts (config : Config) : List String :=
  (config.filter.bind FilterConfig.blockContracts).getD []

/-- The contracts of the allow list. -/
def Config.allowedContracts (config : Config) : List String :=
  (config.filter.bind FilterConfig.allowOnlyContracts).getD []

/-- The addresses of the block list, as they are written in the configuration. -/
def Config.blockedIps (config : Config) : List String :=
  (config.filter.bind FilterConfig.blockIps).getD []

/-- The filter of every built firewall: a known path, an address that is not blocked, and
accounts that the contract lists let through. -/
def contractFilter (crates : Crates) (blockedIps blockedContracts allowOnlyContracts :
    List String) : FilterFn := fun req body _ =>
  if req.uri.path ∉ pushEndpoints ∧ req.uri.path ∉ getEndpoints then false
  -- an address is compared as text
  else if crates.ipToString req.ip ∈ blockedIps then false
  else if blockedContracts = [] ∧ allowOnlyContracts = [] then true
  else if blockedContracts = [] then
    -- true of a body in which no account is found
    (foundTexts crates accountsSelector body).all fun account => account ∈ allowOnlyContracts
  else
    !(foundTexts crates accountsSelector body).any fun account => account ∈ blockedContracts

/-! ## The rate limiters -/

/-- Reserved so a configured ratelimiter cannot collide with the pin limiter. -/
def pinLimiterName : String := "pinned"

/-- The accounts each limiter is restricted to (`SELECT_ACCOUNTS`). -/
def selectAccounts (ratelimits : List RatelimitConfig) : Table String (Finset String) :=
  ratelimits.foldl
    (fun table ratelimit =>
      match ratelimit.selectAccounts with
      | some accounts => table.insert ratelimit.name accounts.toFinset
      | none => table)
    ∅

/-- Keep the texts that a limiter is restricted to; all of them if it is not restricted. -/
def restrictTo (select : Table String (Finset String)) (name : String)
    (unfiltered : Finset String) : Finset String :=
  match select.lookup name with
  | some accounts => unfiltered.filter (· ∈ accounts)
  | none => unfiltered

/-- The table that a read request names, as contract and table. -/
def requestedTable (req : RequestInfo) (body : Json) : Finset String :=
  if req.uri.path = "/v1/chain/get_table_rows" ∨ req.uri.path = "/v1/chain/get_table_by_scope" then
    match (body.get "code").bind Json.asStr, (body.get "table").bind Json.asStr with
    | some contract, some table => {contract ++ "::" ++ table}
    | _, _ => ∅
  else ∅

/-- The buckets of a request. -/
def RatelimitBucket.getBuckets (crates : Crates) (select : Table String (Finset String)) :
    RatelimitBucket → RatelimiterMapFn (Finset String)
  | .contract => fun name _ body _ =>
    restrictTo select name (foundTexts crates accountsSelector body).toFinset
  | .ip => fun _ req _ _ => {crates.ipToString req.ip}
  | .sender => fun name _ body _ =>
    restrictTo select name (foundTexts crates actorsSelector body).toFinset
  | .table => fun name req body _ =>
    (restrictTo select name (requestedTable req body)).image fun table =>
      crates.ipToString req.ip ++ "::" ++ table

def RatelimitType.incrementMode : RatelimitType → IncrementMode
  | .attempt => .attempt
  | .failure => .failure

/-- One limiter. Its construction divides by the window duration. -/
def newRatelimiter (crates : Crates) (select : Table String (Finset String))
    (ratelimit : RatelimitConfig) : Except BuildError RateLimiter :=
  if hpos : 0 < ratelimit.windowDuration then
    .ok
      { name := ratelimit.name
        shouldBeLimited := fun _ _ _ => true
        getBuckets := ratelimit.bucketType.getBuckets crates select
        getRatelimit := fun _ _ _ => ratelimit.limit
        incrementMode := ratelimit.limitOn.incrementMode
        cache := none
        windowDuration := ratelimit.windowDuration
        windowDuration_pos := hpos }
  else .error .panic

/-- The limiters of a list, after those whose names are taken. -/
def addRatelimiters (crates : Crates) (select : Table String (Finset String)) :
    List String → List RatelimitConfig → Except BuildError (List RateLimiter)
  | _, [] => .ok []
  | names, ratelimit :: rest =>
    if ratelimit.name = pinLimiterName then
      .error (.message ("Name '" ++ pinLimiterName ++
        "' is reserved for the pin limiter and cannot name a ratelimiter."))
    else if ratelimit.name ∈ names then
      .error (.message ("Duplicate name for ratelimiter '" ++ ratelimit.name ++
        "'. Names must be unique."))
    else
      (newRatelimiter crates select ratelimit).bind fun limiter =>
        (addRatelimiters crates select (ratelimit.name :: names) rest).map (limiter :: ·)

/-- Every limiter of an accepted list comes from one of its entries. -/
theorem mem_addRatelimiters {crates : Crates} {select : Table String (Finset String)}
    {names : List String} {ratelimits : List RatelimitConfig} {limiters : List RateLimiter}
    (h : addRatelimiters crates select names ratelimits = .ok limiters) {limiter : RateLimiter}
    (hmem : limiter ∈ limiters) :
    ∃ ratelimit ∈ ratelimits, newRatelimiter crates select ratelimit = .ok limiter := by
  induction ratelimits generalizing names limiters with
  | nil =>
    cases h
    simp at hmem
  | cons ratelimit rest ih =>
    unfold addRatelimiters at h
    split at h
    · -- the reserved name
      cases h
    · split at h
      · -- a name that is taken
        cases h
      · cases hnew : newRatelimiter crates select ratelimit with
        | error error =>
          rw [hnew] at h
          cases h
        | ok first =>
          rw [hnew] at h
          cases hothers : addRatelimiters crates select (ratelimit.name :: names) rest with
          | error error =>
            simp [hothers, Except.bind, Except.map] at h
          | ok others =>
            simp only [hothers, Except.bind, Except.map, Except.ok.injEq] at h
            rw [← h] at hmem
            -- the limiter of this entry, or of a later one
            rcases List.mem_cons.mp hmem with rfl | hmem
            · exact ⟨ratelimit, List.mem_cons_self .., hnew⟩
            · obtain ⟨source, hsource, hsourced⟩ := ih hothers hmem
              exact ⟨source, List.mem_cons_of_mem _ hsource, hsourced⟩

/-! ## The matching rules -/

/-- Read requests go to the get nodes, the others to the push nodes. -/
def nodeRule (pushNodes getNodes : Finset NodeEntry) : MatchingFn := fun _ req _ _ _ =>
  if req.uri.path ∈ getEndpoints then getNodes
  else if req.uri.path ∈ pushEndpoints then pushNodes
  else ∅

/-- Keep the nodes that are marked healthy. -/
def healthRule : MatchingFn := fun health _ _ _ nodes =>
  -- a node that was not probed yet is not healthy
  nodes.filter fun node => (health.lookup node.url).getD false = true

/-! ## Assembling -/

/-- The firewall of a configuration, its limiters and its nodes. -/
def assemble (crates : Crates) (config : Config) (ratelimiters : List RateLimiter)
    (pushNodes getNodes : Finset NodeEntry) : Firewall where
  filters :=
    [⟨"Filter", contractFilter crates config.blockedIps config.blockedContracts
      config.allowedContracts, none⟩]
  ratelimiters := ratelimiters
  matchingEngine :=
    ⟨nodeRule pushNodes getNodes :: match config.healthcheck with
      | some _ => [healthRule]
      | none => []⟩
  routingMode := config.routingMode.toState
  maxRequestBodySize := config.maxRequestBodySize
  clientIpHeader := config.clientIpHeader
  -- a built firewall always has one
  pinLimiter := some (.new config.pinnedRequestsPerWindow config.pinnedWindowSeconds)

/-- Build the firewall of a configuration. -/
def fromConfig (crates : Crates) (config : Config) : Except BuildError Firewall :=
  if config.blockedContracts ≠ [] ∧ config.allowedContracts ≠ [] then
    .error (.message "Cannot block and allow contracts at the same time.")
  else
    match addRatelimiters crates (selectAccounts config.ratelimit) [] config.ratelimit with
    | .error error => .error error
    | .ok ratelimiters =>
      if config.pinnedWindowSeconds = 0 then
        .error (.message "pinned_window_seconds must be greater than 0.")
      else
        match buildNodeSet crates config.pushNodes with
        | .error text => .error (.message text)
        | .ok pushNodes =>
          match buildNodeSet crates config.getNodes with
          | .error text => .error (.message text)
          | .ok getNodes =>
            -- the durations that the health checker is started with
            if config.healthcheck.all HealthcheckConfig.fits then
              .ok (assemble crates config ratelimiters pushNodes.entries getNodes.entries)
            else .error .panic

/-- The parts of a configuration that passed every check. -/
structure CheckedConfig (crates : Crates) (config : Config) where
  ratelimiters : List RateLimiter
  pushNodes : NodeSet
  getNodes : NodeSet
  one_list : config.blockedContracts = [] ∨ config.allowedContracts = []
  ratelimiters_eq :
    addRatelimiters crates (selectAccounts config.ratelimit) [] config.ratelimit = .ok ratelimiters
  window_pos : 0 < config.pinnedWindowSeconds
  pushNodes_eq : buildNodeSet crates config.pushNodes = .ok pushNodes
  getNodes_eq : buildNodeSet crates config.getNodes = .ok getNodes
  durations : config.healthcheck.all HealthcheckConfig.fits = true

namespace CheckedConfig

variable {crates : Crates} {config : Config} (checked : CheckedConfig crates config)

/-- The firewall built from the parts. -/
def firewall : Firewall :=
  assemble crates config checked.ratelimiters checked.pushNodes.entries checked.getNodes.entries

/-- Checked parts are what a firewall is built from. -/
theorem fromConfig_eq : fromConfig crates config = .ok checked.firewall := by
  have hlists : ¬ (config.blockedContracts ≠ [] ∧ config.allowedContracts ≠ []) := by
    intro hboth
    exact checked.one_list.elim hboth.1 hboth.2
  have hwindow : config.pinnedWindowSeconds ≠ 0 := checked.window_pos.ne'
  unfold fromConfig
  rw [if_neg hlists, checked.ratelimiters_eq]
  dsimp only
  rw [if_neg hwindow, checked.pushNodes_eq, checked.getNodes_eq]
  exact if_pos checked.durations

/-- Parts with given limiters and node entries. -/
theorem exists_of_parts {ratelimiters : List RateLimiter} {pushEntries getEntries :
    Finset NodeEntry} (hlists : config.blockedContracts = [] ∨ config.allowedContracts = [])
    (hwindow : 0 < config.pinnedWindowSeconds)
    (hratelimiters : addRatelimiters crates (selectAccounts config.ratelimit) []
      config.ratelimit = .ok ratelimiters)
    (hpush : (buildNodeSet crates config.pushNodes).toOption.map NodeSet.entries =
      some pushEntries)
    (hget : (buildNodeSet crates config.getNodes).toOption.map NodeSet.entries =
      some getEntries)
    (hdurations : config.healthcheck.all HealthcheckConfig.fits = true) :
    ∃ checked : CheckedConfig crates config,
      fromConfig crates config = .ok checked.firewall ∧
      checked.firewall = assemble crates config ratelimiters pushEntries getEntries := by
  obtain ⟨pushNodes, hpushNodes, rfl⟩ := buildNodeSet_entries hpush
  obtain ⟨getNodes, hgetNodes, rfl⟩ := buildNodeSet_entries hget
  let checked : CheckedConfig crates config :=
    ⟨ratelimiters, pushNodes, getNodes, hlists, hratelimiters, hwindow, hpushNodes, hgetNodes,
      hdurations⟩
  exact ⟨checked, checked.fromConfig_eq, rfl⟩

/-- The one filter decides. -/
theorem passesFilters (info : RequestInfo) (body : Json) (filterNow : Nat → Nat) :
    checked.firewall.passesFilters info body filterNow =
      contractFilter crates config.blockedIps config.blockedContracts config.allowedContracts
        info body .null := by
  -- the conjunction over a list of one
  show (_ && true) = _
  rw [Bool.and_true]
  rfl

/-- The nodes of a path. -/
def nodesFor (path : String) : Finset NodeEntry :=
  if path ∈ getEndpoints then checked.getNodes.entries
  else if path ∈ pushEndpoints then checked.pushNodes.entries
  else ∅

/-- The nodes of a path are in one of the two lists. -/
theorem listed_of_nodesFor {path : String} {node : NodeEntry} (h : node ∈ checked.nodesFor path) :
    node ∈ checked.getNodes.entries ∨ node ∈ checked.pushNodes.entries := by
  unfold nodesFor at h
  split at h
  · exact .inl h
  · split at h
    · exact .inr h
    · simp at h

/-- The URL of a node was parsed. -/
theorem parsed_of_nodesFor {path : String} {node : NodeEntry} (h : node ∈ checked.nodesFor path) :
    ∃ text, crates.parseUrl text = some node.url := by
  rcases checked.listed_of_nodesFor h with hget | hpush
  · exact parsed_of_buildNodeSet checked.getNodes_eq node hget
  · exact parsed_of_buildNodeSet checked.pushNodes_eq node hpush

theorem weight_pos_of_nodesFor {path : String} {node : NodeEntry}
    (h : node ∈ checked.nodesFor path) : 0 < node.weight := by
  rcases checked.listed_of_nodesFor h with hget | hpush
  · exact checked.getNodes.weight_pos node hget
  · exact checked.pushNodes.weight_pos node hpush

/-- The matched nodes are those of the path, and healthy if health is checked. -/
theorem mem_findMatchingUrls {health : HealthMap} {info : RequestInfo} {body : Json}
    {node : NodeEntry} :
    node ∈ checked.firewall.matchingEngine.findMatchingUrls health info body ↔
      node ∈ checked.nodesFor info.uri.path ∧
        (config.healthcheck.isSome = true → health.lookup node.url = some true) := by
  unfold firewall assemble MatchingEngine.findMatchingUrls
  cases config.healthcheck with
  | none =>
    show node ∈ checked.nodesFor info.uri.path ↔ _
    simp
  | some _ =>
    show node ∈ (checked.nodesFor info.uri.path).filter _ ↔ _
    rw [Finset.mem_filter]
    simp [Option.getD_eq_iff]

end CheckedConfig

/-- A firewall is built from checked parts only. -/
theorem fromConfig_ok {crates : Crates} {config : Config} {fw : Firewall}
    (h : fromConfig crates config = .ok fw) :
    ∃ checked : CheckedConfig crates config, fw = checked.firewall := by
  -- each of the six checks returns early with its error
  unfold fromConfig at h
  split at h
  · cases h
  · next hlists =>
    split at h
    · cases h
    · next ratelimiters hratelimiters =>
      split at h
      · cases h
      · next hwindow =>
        split at h
        · cases h
        · next pushNodes hpush =>
          split at h
          · cases h
          · next getNodes hget =>
            split at h
            · next hdurations =>
              cases h
              have hone : config.blockedContracts = [] ∨ config.allowedContracts = [] := by
                rw [not_and_or, not_not, not_not] at hlists
                exact hlists
              exact ⟨⟨ratelimiters, pushNodes, getNodes, hone, hratelimiters,
                Nat.pos_of_ne_zero hwindow, hpush, hget, hdurations⟩, rfl⟩
            · cases h

/-! ## A small instance

Library functions that do what the real ones do on the texts of the examples: a fixed set of
JSON documents and the URLs of three nodes on the local host. -/

namespace Crates

def hexDigit (c : Char) : Option Nat :=
  if '0' ≤ c ∧ c ≤ '9' then some (c.toNat - '0'.toNat)
  else if 'a' ≤ c ∧ c ≤ 'f' then some (c.toNat - 'a'.toNat + 10)
  else none

def hexBytes : List Char → Option (List UInt8)
  | [] => some []
  | [_] => none
  | high :: low :: rest =>
    (hexDigit high).bind fun high => (hexDigit low).bind fun low =>
      (hexBytes rest).map (UInt8.ofNat (16 * high + low) :: ·)

/-- `http://127.0.0.1:port/` -/
def loopback (port : Nat) : Url :=
  ⟨"http", true, "", some "127.0.0.1", some port, "/", none, none⟩

/-- A header value is visible ASCII, tabs and bytes above ASCII. -/
def isHeaderByte (b : UInt8) : Bool := (32 ≤ b ∧ b ≠ 127) ∨ b = 9

def small (documents : List (String × Json)) : Crates where
  fromSlice bytes := (documents.find? fun document => Text.utf8 document.1 = bytes).map Prod.snd
  hexDecode text := hexBytes text.toList
  find selector body := if selector = accountsSelector then Json.select accountsPath body else []
  parseUrl text :=
    if text = "http://127.0.0.1:5000" then some (loopback 5000)
    else if text = "http://127.0.0.1:5001" then some (loopback 5001)
    else if text = "http://127.0.0.1:5002" then some (loopback 5002)
    else none
  setPath url path := { url with path := path }
  cannotBeABase url := !url.hasAuthority && url.path.toList.head? ≠ some '/'
  parseIp _ := none
  ipToString ip :=
    match ip with
    | .v4 bits => ".".intercalate
      [toString (bits.toNat / 2 ^ 24), toString (bits.toNat / 2 ^ 16 % 256),
        toString (bits.toNat / 2 ^ 8 % 256), toString (bits.toNat % 256)]
    | .v6 _ => "::"
  headerToStr value :=
    if value.all fun b => b < 127 ∧ isHeaderByte b then
      some (String.ofList (value.map fun b => Char.ofNat b.toNat))
    else none
  headerFromStr text :=
    if (Text.utf8 text).all isHeaderByte then some (Text.utf8 text) else none
  isAlphanumeric := Char.isAlphanum
  weightedIndex weights := 0 < weights.sum

theorem small_follows (documents : List (String × Json)) :
    (small documents).Follows accountsSelector accountsPath := by
  intro body found
  have hfind : (small documents).find accountsSelector body = Json.select accountsPath body := by
    unfold small
    dsimp only
    rw [if_pos rfl]
  rw [hfind]

theorem small_keepsTexts (documents : List (String × Json)) : (small documents).KeepsTexts := by
  intro text value h
  unfold small at h
  dsimp only at h
  split at h
  · cases h
    rfl
  · cases h

theorem small_keepsHosts (documents : List (String × Json)) : (small documents).KeepsHosts where
  hostStr_setPath _ _ := rfl
  host_isHeader := by
    intro text url host hurl hhost
    -- all three nodes are on the local host
    have hlocal : url.hostStr = some "127.0.0.1" := by
      unfold small at hurl
      dsimp only at hurl
      split_ifs at hurl <;> cases hurl <;> rfl
    have hheader : ((small []).headerFromStr "127.0.0.1").isSome = true := by decide
    rw [hlocal] at hhost
    cases hhost
    exact hheader

/-- The one document that `small` knows is read from its own text. -/
theorem postedJson_small {text : String} {value : Json}
    (hne : (Text.utf8 text).length ≠ 0) :
    postedJson (small [(text, value)]) (Text.utf8 text) = some value := by
  unfold postedJson
  rw [if_neg hne]
  simp [small]

end Crates

/-- The counters of the local host are stored, and no answer has come yet. -/
def quietMetrics : Metrics.State := ⟨∅, {"127_0_0_1"}, ∅, ∅, []⟩

theorem quietMetrics_canCount (status : StatusCode) :
    Metrics.CanCount quietMetrics "127_0_0_1" status where
  stored := Finset.mem_singleton_self _
  usable := fun _ _ _ => ⟨Finset.notMem_empty _, .inr (Finset.notMem_empty _)⟩

/-- All clocks stand at zero, and no answer comes. -/
noncomputable def quietEnv : Env where
  filterNow := fun _ => 0
  check := fun _ => ⟨.sorted, 0, fun _ => 0⟩
  health := ∅
  order := .arbitrary NodeEntry
  pinNow := 0
  draw := 0
  reply := none
  metrics := quietMetrics
  charge := fun _ => ⟨.sorted, 0⟩

/-- Nothing was counted so far. -/
def quietState : Guarded where
  checked := fun _ => ⟨0, ∅, ∅⟩
  pins := ∅
  routing := .baseRoundRobin
  charged := fun _ => ⟨0, ∅, ∅⟩

/-- The node that the examples read from. -/
def getOne : NodeEntry := ⟨Crates.loopback 5001, 1, "get_one", true⟩

/-- A configuration with one read node and some limiters. -/
def oneGetNode (ratelimit : List RatelimitConfig) : Config where
  routingMode := .roundRobin
  ratelimit := ratelimit
  pushNodes := []
  getNodes := [{ name := "get_one", url := "http://127.0.0.1:5001" }]

/-- A request to one of the read endpoints. -/
def infoRequest (query : Option String) : Request :=
  ⟨.get, ⟨"/v1/chain/get_info", query⟩, .empty, some 0, some []⟩

def infoReceived (query : Option String) : Firewall.Received :=
  ⟨⟨.empty, ⟨"/v1/chain/get_info", query⟩, .v4 0⟩, [], .null⟩

/-- Without a filter reading is open to everyone. -/
theorem CheckedConfig.receive_infoRequest {crates : Crates} {config : Config}
    (checked : CheckedConfig crates config) (hfilter : config.filter = none)
    (hheader : config.clientIpHeader = none) (query : Option String) (peer : IpAddr)
    (filterNow : Nat → Nat) :
    checked.firewall.receive crates (infoRequest query) peer filterNow =
      .ok ⟨⟨.empty, ⟨"/v1/chain/get_info", query⟩, peer⟩, [], .null⟩ := by
  have hpeer : checked.firewall.resolveClientIp crates .empty peer = peer := by
    show Firewall.clientIpFromHeaders crates config.clientIpHeader .empty peer = peer
    rw [hheader]
    rfl
  have hread : "/v1/chain/get_info" ∈ getEndpoints := by simp [getEndpoints]
  refine Firewall.receive_ok_iff.mpr ⟨Nat.zero_le _, ?_, ?_, rfl, rfl, ?_⟩
  · intro h
    cases h
  · show _ = (⟨.empty, _, checked.firewall.resolveClientIp crates .empty peer⟩ : RequestInfo)
    rw [hpeer]
    rfl
  · rw [checked.passesFilters]
    unfold contractFilter
    simp [hread, hfilter, Config.blockedIps, Config.blockedContracts, Config.allowedContracts]

section OneGetNode

variable {ratelimit : List RatelimitConfig} {limiters : List RateLimiter}

theorem getOne_valid : isValidPinnableName "get_one" = true := by decide

/-- The read list is accepted where its URL can be parsed. -/
theorem oneGetNode_entries {crates : Crates}
    (hurl : crates.parseUrl "http://127.0.0.1:5001" = some getOne.url) :
    (buildNodeSet crates (oneGetNode ratelimit).getNodes).toOption.map NodeSet.entries =
      some {getOne} :=
  buildNodeSet_singleton Nat.one_pos (fun _ => getOne_valid) hurl

theorem oneGetNode_built {crates : Crates}
    (hurl : crates.parseUrl "http://127.0.0.1:5001" = some getOne.url)
    (hlimiters : addRatelimiters crates (selectAccounts ratelimit) [] ratelimit = .ok limiters) :
    ∃ checked : CheckedConfig crates (oneGetNode ratelimit),
      fromConfig crates (oneGetNode ratelimit) = .ok checked.firewall ∧
      checked.firewall = assemble crates (oneGetNode ratelimit) limiters ∅ {getOne} := by
  have hwindow : 0 < 60 := by simp
  exact CheckedConfig.exists_of_parts (.inl rfl) hwindow hlimiters rfl (oneGetNode_entries hurl) rfl

variable {documents : List (String × Json)}
  {checked : CheckedConfig (.small documents) (oneGetNode ratelimit)}
  (hfw : checked.firewall =
    assemble (.small documents) (oneGetNode ratelimit) limiters ∅ {getOne})
include hfw

/-- A request that asks for no node goes to the only one. -/
theorem oneGetNode_dispatch (F : Type) [F32 F] (env : Env)
    (hlimited : (Firewall.checkRatelimiters F (infoReceived none) env.check 0 limiters
      quietState.checked).1 = .ok ()) :
    ∃ sent, (checked.firewall.dispatch F (.small documents) (infoRequest none) (.v4 0) env
      quietState).1 = .ok ⟨infoReceived none, some getOne, sent⟩ := by
  have hurls : checked.firewall.matchingEngine.findMatchingUrls env.health
      (infoReceived none).info (infoReceived none).body = {getOne} := by
    rw [hfw]
    rfl
  have hparsed : (Crates.small documents).parseUrl "http://127.0.0.1:5001" = some getOne.url := rfl
  have hweight : 1 < 2 ^ 64 := by simp
  refine Firewall.dispatch_single (Crates.small_keepsHosts documents)
    (checked.receive_infoRequest rfl rfl none _ env.filterNow) ?_ hparsed hurls rfl rfl
    Nat.one_pos hweight
  rw [hfw]
  exact hlimited

end OneGetNode

end AntelopeFirewall
