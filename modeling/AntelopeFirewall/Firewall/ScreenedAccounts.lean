import AntelopeFirewall.De.Encoding
import AntelopeFirewall.Firewall.Screening
import AntelopeFirewall.Firewall.TransactionView

/-!
# The Accounts That Are Screened

Which accounts of a decoded transaction the filter and the limiters get to see, and what the
filter makes of them.

- `accountsOf` are the accounts of some actions, `testedAccounts` those that the filter tests,
- `screens_iff` says for which transactions all actions are screened: the selector leaves out
  the actions that are free of context,
- `contract_filter_decides` is the decision on a body with one encoded transaction.
-/

namespace AntelopeFirewall.Firewall

open Library De

/-- The accounts that some actions are sent to. -/
def accountsOf (actions : List Action) : Finset String :=
  (actions.map fun action => action.account.value).toFinset

@[simp] theorem mem_accountsOf {actions : List Action} {account : String} :
    account ∈ accountsOf actions ↔ ∃ action ∈ actions, action.account.value = account := by
  simp [accountsOf]

/-- The accounts that the filter compares with its lists. -/
def testedAccounts (crates : Crates) (body : Json) : Finset String :=
  (foundTexts crates accountsSelector body).toFinset

section Tested

variable {crates : Crates} {info : RequestInfo} {body document : Json}
  {blockedIps blocked allowed : List String}

/-- On a known path and from an address that is not blocked, the filter compares the accounts
it tests with the list that is not empty. -/
theorem contractFilter_iff (hpath : info.uri.path ∈ pushEndpoints ∨ info.uri.path ∈ getEndpoints)
    (hip : crates.ipToString info.ip ∉ blockedIps) :
    contractFilter crates blockedIps blocked allowed info body document = true ↔
      if blocked = [] then
        allowed = [] ∨ ∀ account ∈ testedAccounts crates body, account ∈ allowed
      else ∀ account ∈ testedAccounts crates body, account ∉ blocked := by
  have hknown : ¬ (info.uri.path ∉ pushEndpoints ∧ info.uri.path ∉ getEndpoints) := by
    rw [not_and_or, not_not, not_not]
    exact hpath
  unfold contractFilter testedAccounts
  rw [if_neg hknown, if_neg hip]
  by_cases hblocked : blocked = []
  · by_cases hallowed : allowed = []
    · simp [hblocked, hallowed]
    · simp [hblocked, hallowed]
  · simp [hblocked]

/-- The accounts that are tested are those that a block list can refuse a request for. -/
theorem mem_testedAccounts_iff
    (hpath : info.uri.path ∈ pushEndpoints ∨ info.uri.path ∈ getEndpoints) {account : String} :
    account ∈ testedAccounts crates body ↔
      contractFilter crates [] [account] [] info body document = false := by
  rw [← Bool.not_eq_true, contractFilter_iff hpath List.not_mem_nil]
  simp

end Tested

/-- The accounts of a decoded body that are tested. -/
theorem testedAccounts_unpackTransaction {crates : Crates}
    (hfind : crates.Follows accountsSelector accountsPath) {posted : Json} {trx : Transaction}
    (hdecoded : decodeTransaction crates posted = some trx) :
    testedAccounts crates (unpackTransaction crates posted) = accountsOf trx.actions := by
  ext account
  unfold testedAccounts
  rw [List.mem_toFinset, mem_accounts_unpackTransaction hfind, hdecoded, mem_accountsOf]

/-! ## Actions that are free of context -/

/-- All actions of a transaction are screened: the accounts that the filter tests and the
buckets of the limiter are those of the actions, with and without context. The buckets are what
`get_buckets` returns; which of them a check charges before it stops is another matter. -/
structure ScreensAll (crates : Crates) (limiter : RateLimiter) (info : RequestInfo)
    (body document : Json) (trx : Transaction) : Prop where
  tested : testedAccounts crates body = accountsOf (trx.ctxFreeActions ++ trx.actions)
  charged : limiter.getBuckets limiter.name info body document =
    accountsOf (trx.ctxFreeActions ++ trx.actions)

/-- The buckets of a contract limiter that is not restricted are the accounts that the filter
tests. -/
theorem getBuckets_contract {crates : Crates} {select : Table String (Finset String)}
    {ratelimit : RatelimitConfig} {limiter : RateLimiter}
    (hnew : newRatelimiter crates select ratelimit = .ok limiter)
    (hbucket : ratelimit.bucketType = .contract) (info : RequestInfo) (body document : Json) :
    limiter.getBuckets limiter.name info body document =
      restrictTo select ratelimit.name (testedAccounts crates body) := by
  unfold newRatelimiter at hnew
  split at hnew
  · cases hnew
    rw [hbucket]
    rfl
  · cases hnew

/-- **Screening**: all actions of a decoded transaction are screened, by the filter and by a
contract limiter without a selection of accounts, exactly when every account of an action free
of context is an account of another action, too. -/
theorem screens_iff {crates : Crates} (hfind : crates.Follows accountsSelector accountsPath)
    {select : Table String (Finset String)} {ratelimit : RatelimitConfig} {limiter : RateLimiter}
    (hnew : newRatelimiter crates select ratelimit = .ok limiter)
    (hbucket : ratelimit.bucketType = .contract) (hselect : select.lookup ratelimit.name = none)
    {posted : Json} {trx : Transaction} (hdecoded : decodeTransaction crates posted = some trx)
    (info : RequestInfo) (document : Json) :
    ScreensAll crates limiter info (unpackTransaction crates posted) document trx ↔
      ∀ action ∈ trx.ctxFreeActions, ∃ other ∈ trx.actions, other.account = action.account := by
  have htested := testedAccounts_unpackTransaction hfind hdecoded
  have hbuckets : limiter.getBuckets limiter.name info (unpackTransaction crates posted) document =
      accountsOf trx.actions := by
    rw [getBuckets_contract hnew hbucket, htested]
    unfold restrictTo
    rw [hselect]
  constructor
  · intro h action haction
    have hmem : action.account.value ∈ accountsOf trx.actions := by
      rw [← htested, h.tested, mem_accountsOf]
      exact ⟨action, List.mem_append_left _ haction, rfl⟩
    obtain ⟨other, hother, hsame⟩ := mem_accountsOf.mp hmem
    exact ⟨other, hother, congrArg Name.mk hsame⟩
  · intro h
    -- the context-free actions add no account
    have hall : accountsOf (trx.ctxFreeActions ++ trx.actions) = accountsOf trx.actions := by
      ext account
      simp only [mem_accountsOf, List.mem_append]
      constructor
      · rintro ⟨action, hfree | haction, rfl⟩
        · obtain ⟨other, hother, hsame⟩ := h action hfree
          exact ⟨other, hother, congrArg Name.value hsame⟩
        · exact ⟨action, haction, rfl⟩
      · rintro ⟨action, haction, rfl⟩
        exact ⟨action, .inr haction, rfl⟩
    exact ⟨htested.trans hall.symm, hbuckets.trans hall.symm⟩

/-- The hex text of a transaction whose only action is free of context and goes to `eosio`. -/
def freeHex : String := "000000000000000000000000000100000000" ++ "00ea30550000000000000000000000"

def freeBody : Json := .object [("packed_trx", .string freeHex)]

/-- A limit for each contract. -/
def contractLimit : RatelimitConfig := ⟨"contracts", .attempt, .contract, 5, 60, none⟩

def freeTransaction : Transaction := ⟨0, 0, 0, 0, 0, 0, [⟨⟨"eosio"⟩, ⟨""⟩, [], []⟩], []⟩

theorem decodeTransaction_freeBody :
    decodeTransaction (.small []) freeBody = some freeTransaction := by decide +kernel

/-- A push request without a query. -/
def pushInfo : RequestInfo := ⟨.empty, ⟨"/v1/chain/push_transaction", none⟩, .v4 0⟩

/-- `eosio` is blocked, and the transaction that is sent to it passes the filter. -/
theorem context_free_unscreened :
    ∃ limiter, newRatelimiter (.small []) ∅ contractLimit = .ok limiter ∧
      decodeTransaction (.small []) freeBody = some freeTransaction ∧
      contractFilter (.small []) [] ["eosio"] [] pushInfo
        (unpackTransaction (.small []) freeBody) .null = true ∧
      ¬ ScreensAll (.small []) limiter pushInfo (unpackTransaction (.small []) freeBody) .null
        freeTransaction := by
  refine ⟨_, rfl, decodeTransaction_freeBody, by decide +kernel, ?_⟩
  intro h
  have htested := h.tested
  rw [testedAccounts_unpackTransaction (Crates.small_follows []) decodeTransaction_freeBody]
    at htested
  revert htested
  decide +kernel

/-- The law at the same transaction. -/
theorem screens_iff_freeBody :
    ∃ limiter, newRatelimiter (.small []) ∅ contractLimit = .ok limiter ∧
      (ScreensAll (.small []) limiter pushInfo (unpackTransaction (.small []) freeBody) .null
          freeTransaction ↔
        ∀ action ∈ freeTransaction.ctxFreeActions, ∃ other ∈ freeTransaction.actions,
          other.account = action.account) := by
  obtain ⟨limiter, hnew⟩ : ∃ limiter, newRatelimiter (.small []) ∅ contractLimit = .ok limiter :=
    ⟨_, rfl⟩
  exact ⟨limiter, hnew, screens_iff (Crates.small_follows []) hnew rfl rfl
    decodeTransaction_freeBody pushInfo .null⟩

/-! ## One encoded transaction -/

/-- The firewall takes its transaction from a hex text: the body has no member `transaction`
and the text is its `packed_trx`, or that member is an object and the text is `packed_trx` in
it. Any other member may be there, too. -/
def PacksText (root : Json.Members) (text : String) : Prop :=
  (root.get "transaction" = none ∧ root.get "packed_trx" = some (.string text)) ∨
    ∃ inner : Json.Members, root.get "transaction" = some (.object inner) ∧
      inner.get "packed_trx" = some (.string text)

/-- The packed transaction is found in both places. -/
theorem packedTrx_of_packsText {root : Json.Members} {text : String} (h : PacksText root text) :
    packedTrx root = some (.string text) := by
  unfold packedTrx
  rcases h with ⟨hnone, hpacked⟩ | ⟨inner, hinner, hpacked⟩
  · rw [hnone]
    exact hpacked
  · rw [hinner]
    exact hpacked

/-- The transaction that is decoded is the one that was encoded, whatever follows it. -/
theorem decodeTransaction_encode {crates : Crates} (raw : RawTransaction) {rest : List UInt8}
    {text : String} (hhex : crates.hexDecode text = some (raw.encode ++ rest))
    {root : Json.Members} (hpacks : PacksText root text) :
    decodeTransaction crates (.object root) = some raw.decoded := by
  have hdecoded : Decoded crates (.object root) raw.decoded :=
    ⟨root, text, _, rfl, packedTrx_of_packsText hpacks, hhex, ((fromBytes_encode raw).1 rest).2⟩
  exact decoded_iff.mp hdecoded

/-- **Contract filter**: for a posted object with one encoded transaction, whatever follows the
encoding and whatever else the client sent, the filter passes without lists; with a block list
it passes when no account of the actions is in it, and with an allow list when all are. -/
theorem contract_filter_decides {crates : Crates}
    (hfind : crates.Follows accountsSelector accountsPath) {config : Config} {fw : Firewall}
    (hbuild : fromConfig crates config = .ok fw) (raw : RawTransaction) (rest : List UInt8)
    {text : String} (hhex : crates.hexDecode text = some (raw.encode ++ rest))
    {root : Json.Members} (hpacks : PacksText root text) {bytes : List UInt8}
    (hposted : postedJson crates bytes = some (.object root)) {info : RequestInfo}
    (hpath : info.uri.path ∈ pushEndpoints ∨ info.uri.path ∈ getEndpoints)
    (hip : crates.ipToString info.ip ∉ config.blockedIps) (filterNow : Nat → Nat) :
    ∃ body, readBody crates .post bytes = some body ∧
      (config.blockedContracts = [] → config.allowedContracts = [] →
        fw.passesFilters info body filterNow = true) ∧
      (config.blockedContracts ≠ [] →
        (fw.passesFilters info body filterNow = true ↔
          ∀ action ∈ raw.decoded.actions, action.account.value ∉ config.blockedContracts)) ∧
      (config.blockedContracts = [] → config.allowedContracts ≠ [] →
        (fw.passesFilters info body filterNow = true ↔
          ∀ action ∈ raw.decoded.actions, action.account.value ∈ config.allowedContracts)) := by
  obtain ⟨checked, rfl⟩ := fromConfig_ok hbuild
  have hread : readBody crates .post bytes = some (unpackTransaction crates (.object root)) := by
    rw [readBody_post, hposted, Option.map_some]
  -- the decoded actions replace the client's own, so the filter tests their accounts only
  have htested := testedAccounts_unpackTransaction hfind (decodeTransaction_encode raw hhex hpacks)
  refine ⟨_, hread, ?_⟩
  rw [checked.passesFilters, contractFilter_iff hpath hip, htested]
  refine ⟨?_, ?_, ?_⟩
  · intro hblocked hallowed
    rw [if_pos hblocked]
    exact .inl hallowed
  · intro hblocked
    rw [if_neg hblocked]
    simp
  · intro hblocked hallowed
    rw [if_pos hblocked]
    simp [hallowed]

/-- A transaction with one action, sent to `eosio`, as it travels. -/
def eosioRaw : RawTransaction :=
  ⟨0, 0, 0, 0, 0, 0, ⟨[], by decide⟩,
    ⟨[⟨0x5530ea0000000000, 0, ⟨[], by decide⟩, ⟨[], by decide⟩⟩], by decide⟩⟩

theorem encode_eosioRaw : eosioRaw.encode =
    List.replicate 14 0 ++ [1, 0, 0, 0, 0, 0, 0xea, 0x30, 0x55] ++ List.replicate 10 0 := by
  simp [eosioRaw, RawTransaction.encode, RawAction.encode, encodeVec, encodeName, Wire.leBytes,
    Wire.varuint_small]

/-- The transaction with one more byte, next to a view of the client's own. -/
def forgedMembers : Json.Members :=
  [("packed_trx", .string (packedHex ++ "ff")), ("unpacked_trx", claimedView)]

def forgedText : String :=
  "\x7b\"packed_trx\":\"" ++ packedHex ++ "ff\",\"unpacked_trx\":" ++
    "\x7b\"actions\":[\x7b\"account\":\"victim\"\x7d]\x7d\x7d"

/-- With `eosio` on the block list, the filter looks at the action and not at the forged view. -/
theorem contract_filter_decides_forged :
    let crates := Crates.small [(forgedText, .object forgedMembers)]
    let config := onePushNode "http://127.0.0.1:5000" { blockContracts := some ["eosio"] } 65536
    ∃ fw, fromConfig crates config = .ok fw ∧
      ∃ body, readBody crates .post (Text.utf8 forgedText) = some body ∧
        (config.blockedContracts = [] → config.allowedContracts = [] →
          fw.passesFilters pushInfo body (fun _ => 0) = true) ∧
        (config.blockedContracts ≠ [] → (fw.passesFilters pushInfo body (fun _ => 0) = true ↔
          ∀ action ∈ eosioRaw.decoded.actions,
            action.account.value ∉ config.blockedContracts)) ∧
        (config.blockedContracts = [] → config.allowedContracts ≠ [] →
          (fw.passesFilters pushInfo body (fun _ => 0) = true ↔
            ∀ action ∈ eosioRaw.decoded.actions,
              action.account.value ∈ config.allowedContracts)) := by
  intro crates config
  have hurl : crates.parseUrl "http://127.0.0.1:5000" = some (Crates.loopback 5000) := rfl
  obtain ⟨checked, hbuild, -⟩ :=
    onePushNode_built hurl { blockContracts := some ["eosio"] } 65536 (.inr rfl)
  -- the packed transaction has a byte behind it
  have hhex : crates.hexDecode (packedHex ++ "ff") = some (eosioRaw.encode ++ [0xff]) := by
    rw [encode_eosioRaw]
    decide +kernel
  have hposted : postedJson crates (Text.utf8 forgedText) = some (.object forgedMembers) := by
    have hne : (Text.utf8 forgedText).length ≠ 0 := by decide +kernel
    exact Crates.postedJson_small hne
  -- The posted members claim other actions beside it, and the filter does not read them.
  refine ⟨checked.firewall, hbuild, ?_⟩
  exact contract_filter_decides (Crates.small_follows _) hbuild eosioRaw [0xff] hhex
    (.inl ⟨rfl, rfl⟩) hposted (.inl (by simp [pushInfo, pushEndpoints])) List.not_mem_nil _

end AntelopeFirewall.Firewall
