import AntelopeFirewall.Http
import AntelopeFirewall.Library.IterOrder
import AntelopeFirewall.Library.Table

/-!
# Requests, Nodes and the Functions a Firewall Is Made Of

The shared types of the firewall: what it keeps of a request while it decides on it, one
upstream node, the shapes of the functions its filters, limiters and matching rules are
built from, and the cached JSON document some of them read.
-/

namespace AntelopeFirewall

open Library

/-- One upstream node the firewall can route to. The name and the pinnable flag come from
the node's config entry, so a picked entry can name itself on the response. The source
compares entries by their URL, which on the entries of one list is equality
(`NodeSet.eq_iff_url`). -/
structure NodeEntry where
  url : Url
  weight : Nat
  name : String
  pinnable : Bool
  deriving DecidableEq, Repr

/-- What the firewall keeps of a request: headers, URI and resolved client address. -/
structure RequestInfo where
  headers : HeaderMap
  uri : Uri
  ip : IpAddr
  deriving DecidableEq, Repr

/-! ## Endpoints -/

/-- Requests to these paths go to the push nodes (`PUSH_ENDPOINTS`). -/
def pushEndpoints : List String :=
  ["/v1/chain/push_transaction",
    "/v1/chain/send_transaction",
    "/v1/chain/push_transactions",
    "/v1/chain/send_transaction2",
    "/v1/chain/compute_transaction",
    "/v1/chain/send_read_only_transaction",
    "/v1/chain/push_block"]

/-- Requests to these paths go to the get nodes (`GET_ENDPOINTS`). -/
def getEndpoints : List String :=
  ["/v1/chain/get_account",
    "/v1/chain/get_block",
    "/v1/chain/get_block_info",
    "/v1/chain/get_info",
    "/v1/chain/get_block_header_state",
    "/v1/chain/get_abi",
    "/v1/chain/get_currency_balance",
    "/v1/chain/get_currency_stats",
    "/v1/chain/get_required_keys",
    "/v1/chain/get_producers",
    "/v1/chain/get_raw_code_and_abi",
    "/v1/chain/get_scheduled_transactions",
    "/v1/chain/get_table_by_scope",
    "/v1/chain/get_table_rows",
    "/v1/chain/get_code",
    "/v1/chain/get_raw_abi",
    "/v1/chain/get_activated_protocol_features",
    "/v1/chain/get_accounts_by_authorizers",
    "/v1/chain/get_transaction_status",
    "/v1/chain/get_producer_schedule"]

/-- No path is in both lists. -/
theorem not_mem_getEndpoints {path : String} (h : path ∈ pushEndpoints) :
    path ∉ getEndpoints := by
  have hdisjoint : ∀ path ∈ pushEndpoints, path ∉ getEndpoints := by decide
  exact hdisjoint path h

/-! ## Function types

Each takes the request, the JSON body and the cached document. -/

abbrev FilterFn := RequestInfo → Json → Json → Bool

abbrev MapFn (α : Type) := RequestInfo → Json → Json → α

/-- A function of a rate limiter also takes the limiter's name. -/
abbrev RatelimiterMapFn (α : Type) := String → RequestInfo → Json → Json → α

/-- A function that runs after the request also takes the response. -/
abbrev PostMapFn (α : Type) := RequestInfo → Json → Json × StatusCode → Json → α

/-- What the health checker holds for the nodes it probes. -/
abbrev HealthMap := Table Url Bool

/-- A matching rule maps the nodes found so far. It may read the health map, which the
checker keeps writing. -/
abbrev MatchingFn := HealthMap → RequestInfo → Json → Json → Finset NodeEntry → Finset NodeEntry

/-! ## The cached document -/

/-- How the last fetch of a cached document went. -/
inductive JsonDataCacheStatus where
  | ok
  | uninitialized
  | unableToFetch (error : String)
  | invalidResponse (error : String)
  deriving DecidableEq, Repr

/-- A document fetched from an external source. A background task replaces it, so its
contents are a function of the clock reading at which they are read. -/
structure JsonDataCache where
  data : Nat → Json × JsonDataCacheStatus

namespace JsonDataCache

/-- The document to use at a clock reading: null without a cache, none while the cache has
no valid document. -/
def handleCacheOption (cache : Option JsonDataCache) (now : Nat) : Option Json :=
  match cache with
  | some cache =>
    match cache.data now with
    | (json, .ok) => some json
    -- a document that was fetched earlier is not used after a fetch that failed
    | (_, .unableToFetch _) => none
    | (_, .invalidResponse _) => none
    | (_, .uninitialized) => none
  | none => some .null

@[simp] theorem handleCacheOption_none (now : Nat) : handleCacheOption none now = some .null :=
  rfl

end JsonDataCache

end AntelopeFirewall
