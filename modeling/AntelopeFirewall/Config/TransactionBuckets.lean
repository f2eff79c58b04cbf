import AntelopeFirewall.Firewall.ScreenedAccounts
import AntelopeFirewall.RateLimiter.MultiBucket

/-!
# Limits by Contract and by Authorizer

A transaction has one bucket for each account that its actions are sent to, or for each actor
that authorizes them, and a limiter may be restricted to some of them.

- `namedBuckets` and `limitedBuckets` are these sets, read off the transaction,
- `bucketsOf_transaction` says that a configured limiter finds them in the body,
- `multi_bucket_check` is the decision of a limiter on attempts, and what it charges.
-/

namespace AntelopeFirewall

open Library De Firewall

/-! ## The accounts a limiter is restricted to -/

/-- An accepted list of limiters names each of them once. -/
theorem names_nodup_of_addRatelimiters {crates : Crates} {select : Table String (Finset String)}
    {names : List String} {ratelimits : List RatelimitConfig} {limiters : List RateLimiter}
    (h : addRatelimiters crates select names ratelimits = .ok limiters) :
    (ratelimits.map RatelimitConfig.name).Nodup ∧
      ∀ ratelimit ∈ ratelimits, ratelimit.name ∉ names := by
  -- Induction on the limiters, over the names that are taken when each of them is added.
  induction ratelimits generalizing names limiters with
  | nil => simp
  | cons ratelimit rest ih =>
    unfold addRatelimiters at h
    split at h
    · cases h
    · split at h
      · -- a name that is taken
        cases h
      · next hfresh =>
        -- the limiters after it find its name taken, too
        cases hothers : addRatelimiters crates select (ratelimit.name :: names) rest with
        | error error =>
          rw [hothers] at h
          cases hnew : newRatelimiter crates select ratelimit with
          | error _ => simp [hnew, Except.bind] at h
          | ok _ => simp [hnew, Except.bind, Except.map] at h
        | ok others =>
          obtain ⟨hnodup, hlater⟩ := ih hothers
          refine ⟨?_, ?_⟩
          · rw [List.map_cons, List.nodup_cons]
            refine ⟨?_, hnodup⟩
            intro hmem
            obtain ⟨other, hother, hsame⟩ := List.mem_map.mp hmem
            exact hlater other hother (by simp [hsame])
          · intro other hother
            rcases List.mem_cons.mp hother with rfl | hother
            · exact hfresh
            · exact fun hmem => hlater other hother (List.mem_cons_of_mem _ hmem)

/-- The step of the fold of `selectAccounts`. -/
def selectStep (table : Table String (Finset String)) (ratelimit : RatelimitConfig) :
    Table String (Finset String) :=
  match ratelimit.selectAccounts with
  | some accounts => table.insert ratelimit.name accounts.toFinset
  | none => table

theorem lookup_selectStep_ne {table : Table String (Finset String)} {ratelimit : RatelimitConfig}
    {name : String} (hne : name ≠ ratelimit.name) :
    (selectStep table ratelimit).lookup name = table.lookup name := by
  unfold selectStep
  split
  · exact AList.lookup_insert_ne hne
  · rfl

theorem lookup_foldl_selectStep {ratelimits : List RatelimitConfig} {name : String}
    (hnone : ∀ ratelimit ∈ ratelimits, ratelimit.name ≠ name)
    (table : Table String (Finset String)) :
    (ratelimits.foldl selectStep table).lookup name = table.lookup name := by
  induction ratelimits generalizing table with
  | nil => rfl
  | cons ratelimit rest ih =>
    rw [List.foldl_cons, ih fun other hother => hnone other (List.mem_cons_of_mem _ hother),
      lookup_selectStep_ne (hnone ratelimit (List.mem_cons_self ..)).symm]

/-- With distinct names, each limiter is restricted to its own accounts. -/
theorem lookup_selectAccounts {ratelimits : List RatelimitConfig}
    (hnodup : (ratelimits.map RatelimitConfig.name).Nodup) {ratelimit : RatelimitConfig}
    (hmem : ratelimit ∈ ratelimits) :
    (selectAccounts ratelimits).lookup ratelimit.name =
      ratelimit.selectAccounts.map List.toFinset := by
  obtain ⟨before, after, rfl⟩ := List.append_of_mem hmem
  have hnodup' := hnodup
  rw [List.map_append, List.map_cons, List.nodup_append] at hnodup'
  obtain ⟨-, hrest, hbefore⟩ := hnodup'
  have hother : ∀ other ∈ before, other.name ≠ ratelimit.name := by
    intro other hother
    exact hbefore _ (List.mem_map_of_mem hother) _ (List.mem_cons_self ..)
  have hlater : ∀ other ∈ after, other.name ≠ ratelimit.name := by
    intro other hother hsame
    rw [List.nodup_cons] at hrest
    exact hrest.1 (hsame ▸ List.mem_map_of_mem hother)
  -- the limiters after this one leave its entry, those before it make none of its name
  show ((before ++ ratelimit :: after).foldl selectStep ∅).lookup ratelimit.name = _
  rw [List.foldl_append, List.foldl_cons, lookup_foldl_selectStep hlater]
  unfold selectStep
  cases ratelimit.selectAccounts with
  | none => exact (lookup_foldl_selectStep hother ∅).trans (AList.lookup_empty _)
  | some accounts => exact AList.lookup_insert _

/-! ## The buckets of a transaction -/

/-- The path that the selector of the authorizer limiters stands for. -/
def actorsPath : List Json.PathStep :=
  [.child "unpacked_trx", .child "actions", .wildcard, .child "authorization", .wildcard,
    .child "actor"]

/-- The actors of all authorizations of some actions. -/
def actorsOf (actions : List Action) : Finset String :=
  (actions.flatMap fun action => action.authorization.map fun authorization =>
    authorization.actor.value).toFinset

/-- The buckets that a limiter by contract or by authorizer makes of a transaction. -/
def namedBuckets (trx : Transaction) : RatelimitBucket → Option (Finset String)
  | .contract => some (accountsOf trx.actions)
  | .sender => some (actorsOf trx.actions)
  | .ip => none
  | .table => none

/-- The buckets that are left of some, when a limiter has a list of accounts. -/
def RatelimitConfig.limitedBuckets (ratelimit : RatelimitConfig) (named : Finset String) :
    Finset String :=
  match ratelimit.selectAccounts with
  | some accounts => named.filter (· ∈ accounts)
  | none => named

/-- The actors of one rendered action. -/
theorem strings_select_authorization (action : Action) :
    Json.strings (Json.select [.child "authorization", .wildcard, .child "actor"]
      action.toValue) =
        action.authorization.map fun authorization => authorization.actor.value := by
  have hlist : action.toValue.get "authorization" =
      some (.array (action.authorization.map Authorization.toValue)) := rfl
  rw [Json.select_child_of_get hlist, Json.select_cons]
  show Json.strings (List.flatMap _ (action.authorization.map Authorization.toValue)) = _
  induction action.authorization with
  | nil => rfl
  | cons authorization rest ih =>
    have hactor : authorization.toValue.get "actor" =
      some (.string authorization.actor.value) := rfl
    rw [List.map_cons, List.flatMap_cons, Json.select_child_of_get hactor, List.map_cons, ← ih]
    rfl

/-- The actors that the path reads off a rendered transaction are those of its actions. -/
theorem strings_select_actors (trx : Transaction) :
    Json.strings (Json.select [.child "actions", .wildcard, .child "authorization", .wildcard,
      .child "actor"] trx.toValue) =
      trx.actions.flatMap fun action => action.authorization.map fun authorization =>
        authorization.actor.value := by
  have hactions : trx.toValue.get "actions" = some (.array (trx.actions.map Action.toValue)) := rfl
  rw [Json.select_child_of_get hactions, Json.select_cons]
  show Json.strings (List.flatMap _ (trx.actions.map Action.toValue)) = _
  induction trx.actions with
  | nil => rfl
  | cons action rest ih =>
    rw [List.map_cons, List.flatMap_cons, List.flatMap_cons, ← ih,
      ← strings_select_authorization action]
    exact List.filterMap_append

/-- What a selector finds under the view of a decoded transaction is what its path leads to
there. -/
theorem mem_foundTexts_unpackTransaction {crates : Crates} {selector : String}
    {path : List Json.PathStep} (hfind : crates.Follows selector (.child "unpacked_trx" :: path))
    {posted : Json} {trx : Transaction} (hdecoded : decodeTransaction crates posted = some trx)
    {text : String} :
    text ∈ foundTexts crates selector (unpackTransaction crates posted) ↔
      text ∈ Json.strings (Json.select path trx.toValue) := by
  have hview : (unpackTransaction crates posted).get "unpacked_trx" = some trx.toValue := by
    rw [get_unpackTransaction, hdecoded]
  unfold foundTexts
  rw [Json.mem_strings, hfind, Json.select_child_of_get hview, Json.mem_strings]

/-- The buckets that a configured limiter finds in the body of a decoded transaction. -/
theorem getBuckets_transaction {crates : Crates}
    (haccounts : crates.Follows accountsSelector accountsPath)
    (hactors : crates.Follows actorsSelector actorsPath) {select : Table String (Finset String)}
    {ratelimit : RatelimitConfig}
    (hselect : select.lookup ratelimit.name = ratelimit.selectAccounts.map List.toFinset)
    {posted : Json} {trx : Transaction} (hdecoded : decodeTransaction crates posted = some trx)
    {named : Finset String} (hnamed : namedBuckets trx ratelimit.bucketType = some named)
    (info : RequestInfo) (document : Json) :
    ratelimit.bucketType.getBuckets crates select ratelimit.name info
        (unpackTransaction crates posted) document = ratelimit.limitedBuckets named := by
  have hrestrict : ∀ found : Finset String, found = named →
      restrictTo select ratelimit.name found = ratelimit.limitedBuckets named := by
    rintro found rfl
    unfold restrictTo RatelimitConfig.limitedBuckets
    rw [hselect]
    cases ratelimit.selectAccounts with
    | none => rfl
    | some accounts => simp
  cases hbucket : ratelimit.bucketType with
  | contract =>
    rw [hbucket] at hnamed
    apply hrestrict
    rw [← Option.some.inj hnamed]
    exact testedAccounts_unpackTransaction haccounts hdecoded
  | sender =>
    rw [hbucket] at hnamed
    apply hrestrict
    rw [← Option.some.inj hnamed]
    ext actor
    rw [List.mem_toFinset, mem_foundTexts_unpackTransaction hactors hdecoded,
      strings_select_actors, actorsOf, List.mem_toFinset]
  | ip =>
    -- neither the address nor the table is named by the transaction
    rw [hbucket] at hnamed
    cases hnamed
  | table =>
    rw [hbucket] at hnamed
    cases hnamed

/-- **Limits on attempts** by contract or by authorizer: a decoded transaction passes exactly
when each of its buckets has a weighted count within the limit and a current one below twice
the limit, as the rollover left them. Then each of them has risen by one and no other counter
has changed; when it is denied, no counter but theirs has. -/
theorem multi_bucket_check {crates : Crates}
    (haccounts : crates.Follows accountsSelector accountsPath)
    (hactors : crates.Follows actorsSelector actorsPath) {config : Config} {fw : Firewall}
    (hbuild : fromConfig crates config = .ok fw) {ratelimit : RatelimitConfig}
    (hmem : ratelimit ∈ config.ratelimit) {limiter : RateLimiter}
    (hnew : newRatelimiter crates (selectAccounts config.ratelimit) ratelimit = .ok limiter)
    (hmode : ratelimit.limitOn = .attempt) (hlimit : ratelimit.limit < 2 ^ 63) {posted : Json}
    {trx : Transaction} (hdecoded : decodeTransaction crates posted = some trx)
    {named : Finset String} (hnamed : namedBuckets trx ratelimit.bucketType = some named)
    (state : WindowState) {attempt : Attempt}
    (hvalue : attempt.value = unpackTransaction crates posted)
    (htick : ∀ bucket, attempt.tick bucket = attempt.now) :
    let buckets := ratelimit.limitedBuckets named
    let rolled := RateLimiter.updateCurrentWindow limiter.windowDuration attempt.now state
    let checked := RateLimiter.shouldRequestPass ℚ limiter state attempt
    (checked.1.verdict = some true ↔ ∀ bucket ∈ buckets,
      RateLimiter.weightedCount (rolled.currentBuckets.count bucket)
          (rolled.lastBuckets.count bucket)
          (RateLimiter.elapsedFraction limiter.windowDuration attempt.now) ≤ ratelimit.limit ∧
        rolled.currentBuckets.count bucket < 2 * ratelimit.limit) ∧
    (checked.1.verdict = some true → ∀ bucket, checked.2.currentBuckets.count bucket =
      rolled.currentBuckets.count bucket + if bucket ∈ buckets then 1 else 0) ∧
    (checked.1.verdict ≠ some true → checked.1.verdict = some false ∧ ∀ bucket ∉ buckets,
      checked.2.currentBuckets.count bucket = rolled.currentBuckets.count bucket) ∧
    checked.2.lastBuckets = rolled.lastBuckets := by
  obtain ⟨checkedConfig, rfl⟩ := fromConfig_ok hbuild
  -- the names of an accepted list are distinct, so the limiter has its own restriction
  obtain ⟨hnodup, -⟩ := names_nodup_of_addRatelimiters checkedConfig.ratelimiters_eq
  have hselect := lookup_selectAccounts hnodup hmem
  have hbuckets := getBuckets_transaction haccounts hactors hselect hdecoded hnamed attempt.info
  unfold newRatelimiter at hnew
  split at hnew
  · cases hnew
    refine RateLimiter.check_decides ⟨?_, rfl⟩ hlimit
      (JsonDataCache.handleCacheOption_none attempt.now) rfl htick ?_
    · show ratelimit.limitOn.incrementMode = _
      rw [hmode]
      rfl
    · show ratelimit.bucketType.getBuckets _ _ _ _ attempt.value _ = _
      rw [hvalue]
      exact hbuckets .null
  · cases hnew

/-! ## A limit for each contract -/

/-- Both selectors follow their paths. -/
def selecting : Crates :=
  { Crates.small [] with
    find := fun selector body =>
      if selector = accountsSelector then Json.select accountsPath body
      else if selector = actorsSelector then Json.select actorsPath body
      else [] }

theorem selecting_accounts : selecting.Follows accountsSelector accountsPath := by
  intro body found
  have hfind : selecting.find accountsSelector body = Json.select accountsPath body := by
    unfold selecting
    dsimp only
    rw [if_pos rfl]
  rw [hfind]

theorem selecting_actors : selecting.Follows actorsSelector actorsPath := by
  intro body found
  have hne : actorsSelector ≠ accountsSelector := by decide +kernel
  have hfind : selecting.find actorsSelector body = Json.select actorsPath body := by
    unfold selecting
    dsimp only
    rw [if_neg hne, if_pos rfl]
  rw [hfind]

/-- The hex text of a transaction with two actions, sent to `eosio` and to `token`. -/
def twoPackedHex : String :=
  "0000000000000000000000000000020000000000ea305500000000000000000000" ++
    "0000000080a920cd00000000000000000000"

def twoPosted : Json := .object [("packed_trx", .string twoPackedHex)]

def twoTransaction : Transaction :=
  ⟨0, 0, 0, 0, 0, 0, [], [⟨⟨"eosio"⟩, ⟨""⟩, [], []⟩, ⟨⟨"token"⟩, ⟨""⟩, [], []⟩]⟩

/-- An attempt to push the transaction half a minute into the window. -/
def twoAttempt : Attempt :=
  ⟨pushInfo, unpackTransaction selecting twoPosted, .sorted, 30 * 10 ^ 9, fun _ => 30 * 10 ^ 9⟩

/-- The window has had two attempts for `eosio`. -/
def twoCounted : WindowState := RateLimiter.increment (RateLimiter.newState 60 0) "eosio" 2

/-- The check of a transaction that is sent to two contracts, one of which was charged before, with
a limit of five. -/
theorem multi_bucket_check_two :
    ∃ limiter, newRatelimiter selecting (selectAccounts [contractLimit]) contractLimit =
        .ok limiter ∧
      let buckets := contractLimit.limitedBuckets {"eosio", "token"}
      let rolled := RateLimiter.updateCurrentWindow limiter.windowDuration twoAttempt.now twoCounted
      let checked := RateLimiter.shouldRequestPass ℚ limiter twoCounted twoAttempt
      (rolled.currentBuckets.count "eosio" = 2 ∧ rolled.currentBuckets.count "token" = 0) ∧
      (checked.1.verdict = some true ↔ ∀ bucket ∈ buckets,
        RateLimiter.weightedCount (rolled.currentBuckets.count bucket)
            (rolled.lastBuckets.count bucket)
            (RateLimiter.elapsedFraction limiter.windowDuration twoAttempt.now) ≤
              contractLimit.limit ∧
          rolled.currentBuckets.count bucket < 2 * contractLimit.limit) ∧
      (checked.1.verdict = some true → ∀ bucket, checked.2.currentBuckets.count bucket =
        rolled.currentBuckets.count bucket + if bucket ∈ buckets then 1 else 0) ∧
      (checked.1.verdict ≠ some true → checked.1.verdict = some false ∧ ∀ bucket ∉ buckets,
        checked.2.currentBuckets.count bucket = rolled.currentBuckets.count bucket) ∧
      checked.2.lastBuckets = rolled.lastBuckets := by
  obtain ⟨limiter, hnew, hwindow⟩ : ∃ limiter, newRatelimiter selecting
      (selectAccounts (oneGetNode [contractLimit]).ratelimit) contractLimit = .ok limiter ∧
        limiter.windowDuration = 60 := ⟨_, rfl, rfl⟩
  have hurl : selecting.parseUrl "http://127.0.0.1:5001" = some getOne.url := rfl
  obtain ⟨checked, hbuild, -⟩ : ∃ checked : CheckedConfig selecting (oneGetNode [contractLimit]),
      fromConfig selecting (oneGetNode [contractLimit]) = .ok checked.firewall ∧ _ :=
    oneGetNode_built hurl rfl
  have hmem : contractLimit ∈ (oneGetNode [contractLimit]).ratelimit := List.mem_cons_self ..
  have hlimit : contractLimit.limit < 2 ^ 63 := by simp [contractLimit]
  have hdecoded : decodeTransaction selecting twoPosted = some twoTransaction := by
    decide +kernel
  have hnamed : namedBuckets twoTransaction contractLimit.bucketType =
      some {"eosio", "token"} := by
    decide +kernel
  -- the request body is what the client posted, with the decoded transaction in it
  have hvalue : twoAttempt.value = unpackTransaction selecting twoPosted := by
    simp only [twoAttempt]
  have htick : ∀ bucket, twoAttempt.tick bucket = twoAttempt.now := fun _ => rfl
  refine ⟨limiter, hnew, ?_, multi_bucket_check selecting_accounts selecting_actors hbuild hmem
    hnew rfl hlimit hdecoded hnamed twoCounted hvalue htick⟩
  rw [hwindow]
  exact ⟨rfl, rfl⟩

end AntelopeFirewall
