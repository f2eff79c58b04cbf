import AntelopeFirewall.Config.Basic

/-!
# Screening Contracts

What the contract lists of a configuration keep away from the nodes.

- `allow_list_iff` says for which bodies the allow list fails closed,
- `block_list_iff` says for which bodies the block list holds.

Both lists are applied to the accounts that the selector finds in the body. The firewall
puts the accounts of the one transaction it decodes there, and leaves what the client sent
when it decodes none.
-/

namespace AntelopeFirewall.Firewall

open Library De

/-! ## One push node

A firewall without limiters, health checks or read nodes: nothing but its filter stands
between a push request and its only node. -/

section OnePushNode

def pushOne (url : Url) : NodeEntry := ⟨url, 1, "push_one", true⟩

/-- A configuration with one push node. -/
def onePushNode (url : String) (filter : FilterConfig) (maxRequestBodySize : Nat) : Config where
  routingMode := .roundRobin
  maxRequestBodySize := maxRequestBodySize
  filter := some filter
  ratelimit := []
  pushNodes := [{ name := "push_one", url := url }]
  getNodes := []

/-- A push request with some bytes, without headers. -/
def pushRequest (path : String) (bytes : List UInt8) : Request :=
  ⟨.post, ⟨path, none⟩, .empty, some bytes.length, some bytes⟩

variable {crates : Crates} {text : String} {url : Url}

theorem onePushNode_built (hurl : crates.parseUrl text = some url) (filter : FilterConfig)
    (size : Nat)
    (hlists : filter.blockContracts.getD [] = [] ∨ filter.allowOnlyContracts.getD [] = []) :
    ∃ checked : CheckedConfig crates (onePushNode text filter size),
      fromConfig crates (onePushNode text filter size) = .ok checked.firewall ∧
      checked.firewall = assemble crates (onePushNode text filter size) [] {pushOne url} ∅ := by
  have hname : isValidPinnableName "push_one" = true := by decide +kernel
  have hwindow : 0 < 60 := by simp
  refine CheckedConfig.exists_of_parts hlists hwindow rfl ?_ rfl rfl
  exact buildNodeSet_singleton Nat.one_pos (fun _ => hname) hurl

/-- A push request that passes the filter reaches the node. -/
theorem onePushNode_dispatched (F : Type) [F32 F] (hcrates : crates.KeepsHosts)
    (hurl : crates.parseUrl text = some url) {path : String} (hpath : path ∈ pushEndpoints)
    {bytes : List UInt8} {posted : Json} (hposted : postedJson crates bytes = some posted)
    {filter : FilterConfig} {checked : CheckedConfig crates (onePushNode text filter bytes.length)}
    (hfw : checked.firewall =
      assemble crates (onePushNode text filter bytes.length) [] {pushOne url} ∅)
    (hpasses : checked.firewall.passesFilters ⟨.empty, ⟨path, none⟩, .v4 0⟩
      (unpackTransaction crates posted) quietEnv.filterNow = true) :
    ∃ d, (checked.firewall.handleRequest F crates (pushRequest path bytes) (.v4 0) quietEnv
      quietState).1.dispatched = some d := by
  let received : Received := ⟨⟨.empty, ⟨path, none⟩, .v4 0⟩, bytes, unpackTransaction crates posted⟩
  have hparsed : crates.parseUrl text = some (pushOne url).url := hurl
  have hreceived : checked.firewall.receive crates (pushRequest path bytes) (.v4 0)
      quietEnv.filterNow = .ok received := by
    refine receive_ok_iff.mpr ⟨le_rfl, by simp [pushRequest], rfl, rfl, ?_, hpasses⟩
    show readBody crates .post bytes = _
    rw [readBody_post, hposted, Option.map_some]
  -- a push request cannot ask for a node
  have hunpinned : requestedUpstream received.info = none :=
    if_pos (not_mem_getEndpoints hpath)
  have hurls : checked.firewall.matchingEngine.findMatchingUrls quietEnv.health received.info
      received.body = {pushOne url} := by
    rw [hfw]
    show (if path ∈ getEndpoints then _ else if path ∈ pushEndpoints then _ else _) = _
    rw [if_neg (not_mem_getEndpoints hpath), if_pos hpath]
  have hlimited : (checkRatelimiters F received quietEnv.check 0 checked.firewall.ratelimiters
      quietState.checked).1 = .ok () := by
    rw [hfw]
    rfl
  have hweight : 1 < 2 ^ 64 := by simp
  obtain ⟨sent, hdispatched⟩ := dispatch_single hcrates hreceived hlimited hparsed hurls
    hunpinned rfl Nat.one_pos hweight
  exact ⟨_, handleRequest_dispatched.mpr hdispatched⟩

end OnePushNode

/-! ## The filter by its lists -/

section Filter

variable {crates : Crates} {config : Config} (checked : CheckedConfig crates config)
  {info : RequestInfo} {body : Json} {filterNow : Nat → Nat}

/-- With a block list, a push request passes when its address and its accounts are not
blocked. -/
theorem passesFilters_blocked_iff (hblocked : config.blockedContracts ≠ [])
    (hpath : info.uri.path ∈ pushEndpoints) :
    checked.firewall.passesFilters info body filterNow = true ↔
      crates.ipToString info.ip ∉ config.blockedIps ∧
        ∀ account ∈ foundTexts crates accountsSelector body,
          account ∉ config.blockedContracts := by
  rw [checked.passesFilters]
  unfold contractFilter
  simp [hblocked, hpath]

/-- With an allow list, a push request passes when its address is not blocked and all its
accounts are allowed. -/
theorem passesFilters_allowed_iff (hblocked : config.blockedContracts = [])
    (hallowed : config.allowedContracts ≠ []) (hpath : info.uri.path ∈ pushEndpoints) :
    checked.firewall.passesFilters info body filterNow = true ↔
      crates.ipToString info.ip ∉ config.blockedIps ∧
        ∀ account ∈ foundTexts crates accountsSelector body,
          account ∈ config.allowedContracts := by
  rw [checked.passesFilters]
  unfold contractFilter
  simp [hblocked, hallowed, hpath]

end Filter

/-! ## The allow list -/

/-- The firewall decoded a transaction from a body, and every action of it goes to one of
the allowed accounts. -/
def DecodedAllowed (crates : Crates) (allowed : List String) (body : Json) : Prop :=
  ∃ trx, decodeTransaction crates body = some trx ∧
    ∀ action ∈ trx.ctxFreeActions ++ trx.actions, action.account.value ∈ allowed

/-- The bodies that the allow list keeps away as it should: either the address is blocked
anyway, or the actions that are not looked at are allowed if the others are, or nothing was
decoded and the client itself lists an account that is not allowed. -/
def FailsClosed (crates : Crates) (config : Config) (ip : IpAddr) (body : Json) : Prop :=
  crates.ipToString ip ∈ config.blockedIps ∨
    match decodeTransaction crates body with
    | some trx =>
      (∀ action ∈ trx.actions, action.account.value ∈ config.allowedContracts) →
        ∀ action ∈ trx.ctxFreeActions, action.account.value ∈ config.allowedContracts
    | none => ∃ account ∈ claimedAccounts body, account ∉ config.allowedContracts

/-- With an allow list, a posted body passes when its address is not blocked and all accounts
of the actions that were decoded are allowed; without a decoded transaction, all those that the
client itself lists. -/
theorem passesFilters_posted_iff {crates : Crates}
    (hfind : crates.Follows accountsSelector accountsPath) {config : Config}
    (checked : CheckedConfig crates config) (hblocked : config.blockedContracts = [])
    (hallowed : config.allowedContracts ≠ []) {info : RequestInfo}
    (hpath : info.uri.path ∈ pushEndpoints) (posted : Json) (filterNow : Nat → Nat) :
    checked.firewall.passesFilters info (unpackTransaction crates posted) filterNow = true ↔
      crates.ipToString info.ip ∉ config.blockedIps ∧
        match decodeTransaction crates posted with
        | some trx => ∀ action ∈ trx.actions, action.account.value ∈ config.allowedContracts
        | none => ∀ account ∈ claimedAccounts posted, account ∈ config.allowedContracts := by
  rw [passesFilters_allowed_iff checked hblocked hallowed hpath]
  apply and_congr_right
  intro _
  -- The accounts are those of the decoded transaction, or of the claimed one if there is none.
  simp only [mem_accounts_unpackTransaction hfind]
  cases decodeTransaction crates posted with
  | none => rfl
  | some trx =>
    constructor
    · intro h action haction
      exact h _ ⟨action, haction, rfl⟩
    · intro h account hlisted
      obtain ⟨action, haction, rfl⟩ := hlisted
      exact h action haction

/-- **Allow list**: a push request passes the filter only with a decoded transaction whose
actions are all allowed, exactly for the bodies of `FailsClosed`. -/
theorem allow_list_iff {crates : Crates} (hfind : crates.Follows accountsSelector accountsPath)
    {config : Config} {fw : Firewall} (hbuild : fromConfig crates config = .ok fw)
    (hblocked : config.blockedContracts = []) (hallowed : config.allowedContracts ≠ [])
    {info : RequestInfo} (hpath : info.uri.path ∈ pushEndpoints) {bytes : List UInt8}
    {posted : Json} (hposted : postedJson crates bytes = some posted) (filterNow : Nat → Nat) :
    (∀ body, readBody crates .post bytes = some body →
        fw.passesFilters info body filterNow = true →
        DecodedAllowed crates config.allowedContracts posted) ↔
      FailsClosed crates config info.ip posted := by
  obtain ⟨checked, rfl⟩ := fromConfig_ok hbuild
  have hread : readBody crates .post bytes = some (unpackTransaction crates posted) := by
    rw [readBody_post, hposted, Option.map_some]
  have hpasses := passesFilters_posted_iff hfind checked hblocked hallowed hpath posted filterNow
  rw [hread]
  simp only [Option.some.injEq, forall_eq', hpasses]
  unfold FailsClosed DecodedAllowed
  by_cases hip : crates.ipToString info.ip ∈ config.blockedIps
  · -- the address alone keeps the request away
    simp [hip]
  · cases decodeTransaction crates posted with
    | none =>
      -- nothing was decoded, so the request must not pass
      simp [hip]
    | some trx =>
      simp only [hip, not_false_eq_true, true_and, false_or, Option.some.injEq, exists_eq_left',
        List.forall_mem_append]
      -- the filter has looked at the actions, so the context-free ones are what is left
      constructor
      · intro h hactions
        exact (h hactions).1
      · intro hfree hactions
        exact ⟨hfree hactions, hactions⟩

/-- The texts `{}` and `[]` as the parser reads them. -/
def emptyDocuments : List (String × Json) := [("\x7b\x7d", .object []), ("[]", .array [])]

/-- Only `eosio` is allowed, and a body without a transaction passes. -/
theorem empty_body_passes :
    ∃ fw, fromConfig (.small emptyDocuments) (onePushNode "http://127.0.0.1:5000"
        { allowOnlyContracts := some ["eosio"] } 65536) = .ok fw ∧
      readBody (.small emptyDocuments) .post (Text.utf8 "\x7b\x7d") = some (.object []) ∧
      fw.passesFilters ⟨.empty, ⟨"/v1/chain/push_transaction", none⟩, .v4 0⟩ (.object [])
        (fun _ => 0) = true ∧
      ¬ DecodedAllowed (.small emptyDocuments) ["eosio"] (.object []) := by
  have hurl : (Crates.small emptyDocuments).parseUrl "http://127.0.0.1:5000" =
    some (Crates.loopback 5000) := rfl
  obtain ⟨checked, hbuild, hfw⟩ :=
    onePushNode_built hurl { allowOnlyContracts := some ["eosio"] } 65536 (.inl rfl)
  refine ⟨checked.firewall, hbuild, rfl, ?_, ?_⟩
  · rw [hfw]
    decide +kernel
  · -- nothing is decoded from an object without members
    intro hdecoded
    obtain ⟨trx, htrx, -⟩ := hdecoded
    cases htrx

/-- The law at the same list, for an array without elements: the filter lets it through, and no
transaction was decoded. -/
theorem allow_list_iff_empty_array :
    ∃ fw, fromConfig (.small emptyDocuments) (onePushNode "http://127.0.0.1:5000"
        { allowOnlyContracts := some ["eosio"] } 65536) = .ok fw ∧
      ((∀ body, readBody (.small emptyDocuments) .post (Text.utf8 "[]") = some body →
          fw.passesFilters ⟨.empty, ⟨"/v1/chain/push_transaction", none⟩, .v4 0⟩ body
            (fun _ => 0) = true →
          DecodedAllowed (.small emptyDocuments) ["eosio"] (.array [])) ↔
        FailsClosed (.small emptyDocuments) (onePushNode "http://127.0.0.1:5000"
          { allowOnlyContracts := some ["eosio"] } 65536) (.v4 0) (.array [])) := by
  have hurl : (Crates.small emptyDocuments).parseUrl "http://127.0.0.1:5000" =
    some (Crates.loopback 5000) := rfl
  obtain ⟨checked, hbuild, -⟩ :=
    onePushNode_built hurl { allowOnlyContracts := some ["eosio"] } 65536 (.inl rfl)
  have hallowed : (onePushNode "http://127.0.0.1:5000"
    { allowOnlyContracts := some ["eosio"] } 65536).allowedContracts ≠ [] := List.cons_ne_nil _ _
  have hpath : "/v1/chain/push_transaction" ∈ pushEndpoints := by simp [pushEndpoints]
  refine ⟨checked.firewall, hbuild, ?_⟩
  exact allow_list_iff (Crates.small_follows _) hbuild rfl hallowed hpath rfl (fun _ => 0)

/-! ## The block list -/

/-- The packed transactions of one value: its own and the one of its `transaction`. -/
def packedIn (value : Json) : List Json :=
  (value.get "packed_trx").toList ++
    ((value.get "transaction").bind (Json.get "packed_trx")).toList

/-- Every text that a body carries as a packed transaction; an array carries those of its
elements. -/
def carriedTexts (body : Json) : List String :=
  match body with
  | .array elements => Json.strings (elements.flatMap packedIn)
  | body => Json.strings (packedIn body)

/-- A body carries a transaction with an action that goes to a blocked account. -/
def CarriesBlocked (crates : Crates) (blocked : List String) (body : Json) : Prop :=
  ∃ text ∈ carriedTexts body, ∃ trx, decodeHex crates text = some trx ∧
    ∃ action ∈ trx.actions, action.account.value ∈ blocked

/-- The firewall gets to see a blocked account: in the one transaction it decodes, or, when
it decodes none, in what the client itself lists. -/
def SeesBlocked (crates : Crates) (blocked : List String) (body : Json) : Prop :=
  match decodeTransaction crates body with
  | some trx => ∃ action ∈ trx.actions, action.account.value ∈ blocked
  | none => ∃ account ∈ claimedAccounts body, account ∈ blocked

theorem seesBlocked_iff {crates : Crates} (hfind : crates.Follows accountsSelector accountsPath)
    {blocked : List String} {body : Json} :
    SeesBlocked crates blocked body ↔
      ∃ account ∈ foundTexts crates accountsSelector (unpackTransaction crates body),
        account ∈ blocked := by
  simp only [mem_accounts_unpackTransaction hfind]
  unfold SeesBlocked
  cases decodeTransaction crates body with
  | none => rfl
  | some trx =>
    constructor
    · intro hsees
      obtain ⟨action, haction, hblocked⟩ := hsees
      exact ⟨_, ⟨action, haction, rfl⟩, hblocked⟩
    · intro hlisted
      obtain ⟨_, ⟨action, haction, rfl⟩, hblocked⟩ := hlisted
      exact ⟨action, haction, hblocked⟩

/-- No firewall with the block list forwards a push request with the bytes. -/
def NeverForwarded (F : Type) [F32 F] (crates : Crates) (blocked : List String) (path : String)
    (bytes : List UInt8) : Prop :=
  ∀ config fw, fromConfig crates config = .ok fw → config.blockedContracts = blocked →
    ∀ request peer env found, request.method = .post → request.uri.path = path →
      request.body = some bytes →
        (fw.handleRequest F crates request peer env found).1.dispatched = none

/-- A request that is forwarded showed no blocked account to the filter. -/
theorem not_seesBlocked_of_dispatched {F : Type} [F32 F] {crates : Crates}
    (hfind : crates.Follows accountsSelector accountsPath) {config : Config} {fw : Firewall}
    (hbuild : fromConfig crates config = .ok fw) (hblocked : config.blockedContracts ≠ [])
    {request : Request} {peer : IpAddr} {env : Env} {found : Guarded}
    (hmethod : request.method = .post) (hpath : request.uri.path ∈ pushEndpoints)
    {bytes : List UInt8} (hbody : request.body = some bytes) {posted : Json}
    (hposted : postedJson crates bytes = some posted) {d : Dispatch}
    (hdispatched : (fw.handleRequest F crates request peer env found).1.dispatched = some d) :
    ¬ SeesBlocked crates config.blockedContracts posted := by
  obtain ⟨checked, rfl⟩ := fromConfig_ok hbuild
  have hok := handleRequest_dispatched.mp hdispatched
  obtain ⟨-, -, hinfo, hbytes, hread, hpasses⟩ := receive_ok_iff.mp (dispatch_ok_iff.mp hok).1
  -- the body that the filter saw is the posted one with its transaction unpacked
  unfold bodyBytes at hbytes
  rw [hmethod] at hbytes hread
  dsimp only at hbytes
  rw [hbody] at hbytes
  cases hbytes
  rw [readBody_post, hposted, Option.map_some] at hread
  rw [← Option.some.inj hread] at hpasses
  have hpath' : d.received.info.uri.path ∈ pushEndpoints := by
    rw [hinfo]
    exact hpath
  rw [passesFilters_blocked_iff checked hblocked hpath'] at hpasses
  rw [seesBlocked_iff hfind]
  intro hsees
  obtain ⟨account, hfound, hlisted⟩ := hsees
  exact hpasses.2 account hfound hlisted

/-- **Block list**: a push request that carries a blocked action is never forwarded, exactly
when the firewall gets to see a blocked account in it. -/
theorem block_list_iff {F : Type} [F32 F] {crates : Crates}
    (hfind : crates.Follows accountsSelector accountsPath) (hcrates : crates.KeepsHosts)
    {text : String} {url : Url} (hurl : crates.parseUrl text = some url)
    {blocked : List String} (hne : blocked ≠ []) {path : String} (hpath : path ∈ pushEndpoints)
    {bytes : List UInt8} {posted : Json} (hposted : postedJson crates bytes = some posted) :
    (CarriesBlocked crates blocked posted → NeverForwarded F crates blocked path bytes) ↔
      (CarriesBlocked crates blocked posted → SeesBlocked crates blocked posted) := by
  refine imp_congr_right fun _ => ⟨fun hnever => ?_, fun hsees => ?_⟩
  · -- were it not seen, the firewall with one push node would forward it
    by_contra hunseen
    let filter : FilterConfig := { blockContracts := some blocked }
    obtain ⟨checked, hbuild, hfw⟩ := onePushNode_built hurl filter bytes.length (.inr rfl)
    have hpasses : checked.firewall.passesFilters ⟨.empty, ⟨path, none⟩, .v4 0⟩
        (unpackTransaction crates posted) quietEnv.filterNow = true := by
      refine (passesFilters_blocked_iff checked hne hpath).mpr ⟨List.not_mem_nil, ?_⟩
      rw [seesBlocked_iff hfind] at hunseen
      intro account hfound hlisted
      exact hunseen ⟨account, hfound, hlisted⟩
    obtain ⟨d, hd⟩ := onePushNode_dispatched F hcrates hurl hpath hposted hfw hpasses
    rw [hnever _ _ hbuild rfl _ _ _ _ rfl rfl rfl] at hd
    cases hd
  · -- were it forwarded, the filter would have seen nothing blocked
    rintro config fw hbuild rfl request peer env found hmethod rfl hbody
    by_contra hforwarded
    obtain ⟨d, hd⟩ := Option.ne_none_iff_exists'.mp hforwarded
    exact not_seesBlocked_of_dispatched hfind hbuild hne hmethod hpath hbody hposted hd hsees

/-- The hex text of a transaction with one action, sent to `eosio`. -/
def packedHex : String := "0000000000000000000000000000010000000000ea305500000000000000000000"

/-- An array of one such transaction, the shape that `push_transactions` takes. -/
def packedArray : Json := .array [.object [("packed_trx", .string packedHex)]]

def packedArrayText : String := "[\x7b\"packed_trx\":\"" ++ packedHex ++ "\"\x7d]"

def packedDocuments : List (String × Json) := [(packedArrayText, packedArray)]

theorem carriesBlocked_packedArray :
    CarriesBlocked (.small packedDocuments) ["eosio"] packedArray := by
  have hdecoded : decodeHex (.small packedDocuments) packedHex =
      some ⟨0, 0, 0, 0, 0, 0, [], [⟨⟨"eosio"⟩, ⟨""⟩, [], []⟩]⟩ := by decide +kernel
  refine ⟨packedHex, ?_, _, hdecoded, ?_⟩
  · exact List.mem_cons_self ..
  · simp

theorem postedJson_packedArrayText : postedJson (.small packedDocuments)
    (Text.utf8 packedArrayText) = some packedArray := by
  have hne : (Text.utf8 packedArrayText).length ≠ 0 := by decide +kernel
  exact Crates.postedJson_small hne

/-- `eosio` is blocked, and a transaction sent to it is forwarded when it is posted in an
array. -/
theorem array_is_forwarded :
    ∃ fw, fromConfig (.small packedDocuments) (onePushNode "http://127.0.0.1:5000"
        { blockContracts := some ["eosio"] } (Text.utf8 packedArrayText).length) = .ok fw ∧
      postedJson (.small packedDocuments) (Text.utf8 packedArrayText) = some packedArray ∧
      CarriesBlocked (.small packedDocuments) ["eosio"] packedArray ∧
      ∃ d, (fw.handleRequest ℚ (.small packedDocuments)
        (pushRequest "/v1/chain/push_transactions" (Text.utf8 packedArrayText)) (.v4 0) quietEnv
        quietState).1.dispatched = some d := by
  have hurl : (Crates.small packedDocuments).parseUrl "http://127.0.0.1:5000" =
    some (Crates.loopback 5000) := rfl
  obtain ⟨checked, hbuild, hfw⟩ := onePushNode_built hurl { blockContracts := some ["eosio"] }
    (Text.utf8 packedArrayText).length (.inr rfl)
  have hpath : "/v1/chain/push_transactions" ∈ pushEndpoints := by simp [pushEndpoints]
  refine ⟨checked.firewall, hbuild, postedJson_packedArrayText, carriesBlocked_packedArray, ?_⟩
  refine onePushNode_dispatched ℚ (Crates.small_keepsHosts _) hurl hpath
    postedJson_packedArrayText hfw ?_
  rw [hfw]
  decide +kernel

/-- The law at the same body. -/
theorem block_list_iff_array :
    (CarriesBlocked (.small packedDocuments) ["eosio"] packedArray →
        NeverForwarded ℚ (.small packedDocuments) ["eosio"] "/v1/chain/push_transactions"
          (Text.utf8 packedArrayText)) ↔
      (CarriesBlocked (.small packedDocuments) ["eosio"] packedArray →
        SeesBlocked (.small packedDocuments) ["eosio"] packedArray) := by
  have hurl : (Crates.small packedDocuments).parseUrl "http://127.0.0.1:5000" =
    some (Crates.loopback 5000) := rfl
  have hne : ["eosio"] ≠ [] := List.cons_ne_nil _ _
  have hpath : "/v1/chain/push_transactions" ∈ pushEndpoints := by simp [pushEndpoints]
  exact block_list_iff (Crates.small_follows _) (Crates.small_keepsHosts _) hurl hne hpath
    postedJson_packedArrayText

end AntelopeFirewall.Firewall
