import AntelopeFirewall.Crates
import AntelopeFirewall.Library.Text

/-!
# Naming the Upstream

A read response names the node that answered it, and a client can ask for that node again
in the query of its next read request.

- `requestedUpstream` reads the name a request asks for,
- `relayHeaders` rewrites the headers of a response on their way to the client.
-/

namespace AntelopeFirewall

open Library

/-! ## The name a request asks for -/

/-- Read the requested upstream name out of a query string. -/
def upstreamParam (query : Option String) : Option String :=
  (query.bind fun query => (Text.split '&' query).findSome? (Text.stripPrefix "upstream=")).filter
    (· ≠ "")

/-- The upstream name a request asks for. Only a read endpoint can ask. -/
def requestedUpstream (info : RequestInfo) : Option String :=
  if info.uri.path ∉ getEndpoints then none else upstreamParam info.uri.query

/-- The first pair that starts with `upstream=` is the one that is read. -/
theorem upstreamParam_eq {query name : String} {earlier later : List String}
    (hquery : Text.split '&' query = earlier ++ ("upstream=" ++ name) :: later)
    (hearlier : ∀ pair ∈ earlier, ¬ "upstream=".toList <+: pair.toList)
    (hname : name ≠ "") : upstreamParam (some query) = some name := by
  have hnone : ∀ pair ∈ earlier, Text.stripPrefix "upstream=" pair = none := by
    intro pair hpair
    exact Text.stripPrefix_eq_none_iff.mpr (hearlier pair hpair)
  unfold upstreamParam
  -- the earlier pairs give nothing, so the search comes to the pair itself
  rw [Option.bind_some, hquery, List.findSome?_append, List.findSome?_eq_none_iff.mpr hnone,
    List.findSome?_cons, Text.stripPrefix_append]
  simp [hname]

/-! ## The name a response carries -/

/-- Response header naming the upstream that answered, as it is written in a value. -/
def upstreamHeader : String := "X-Antelope-Upstream"

/-- The same name as the key of a header map. -/
def upstreamHeaderKey : String := "x-antelope-upstream"

/-- `Access-Control-Expose-Headers` as the key of a header map. -/
def exposeHeadersKey : String := "access-control-expose-headers"

/-- Two URLs address the same node when the scheme, the host and the port match. -/
def sameOrigin (chosen answered : Url) : Bool :=
  chosen.scheme = answered.scheme ∧ chosen.hostStr = answered.hostStr ∧
    chosen.portOrKnownDefault = answered.portOrKnownDefault

/-- The value of the expose header, keeping what the upstream sent. -/
def exposeHeaderValue (existing : List String) : String :=
  let entries := ((existing.flatMap (Text.split ',')).map Text.trim).filter (· ≠ "")
  let entries :=
    if entries.any (Text.eqIgnoreAsciiCase · upstreamHeader) then entries
    else entries ++ [upstreamHeader]
  ", ".intercalate entries

/-- The texts of some header values, if all of them are readable. -/
def readValues (crates : Crates) : List HeaderValue → Option (List String)
  | [] => some []
  | value :: rest =>
    (crates.headerToStr value).bind fun text => (readValues crates rest).map (text :: ·)

/-- Name a node in the headers of a response and expose the name. -/
def nameUpstream (crates : Crates) (node : NodeEntry) (headers : HeaderMap) : HeaderMap :=
  match crates.headerFromStr node.name with
  | none => headers
  | some name =>
    let sent := (readValues crates (headers.getAll exposeHeadersKey)).getD []
    -- a value the firewall cannot read is left where it is, and the name is exposed beside it
    let readable := sent.length = (headers.getAll exposeHeadersKey).length
    let headers := headers.insert upstreamHeaderKey name
    match crates.headerFromStr (exposeHeaderValue sent) with
    | none => headers
    | some value =>
      if readable then (headers.remove exposeHeadersKey).insert exposeHeadersKey value
      else headers.append exposeHeadersKey (Text.utf8 upstreamHeader)

/-- The headers of a response as they are relayed. An upstream does not get to name itself:
only a chosen pinnable node that answered a read request from its own origin is named. -/
def relayHeaders (crates : Crates) (chosen : Option NodeEntry) (path : String)
    (answeredBy : Url) (headers : HeaderMap) : HeaderMap :=
  let headers := headers.remove upstreamHeaderKey
  -- a redirect can move the answer to another host, which the name would not name
  match chosen with
  | some node =>
    if node.pinnable ∧ path ∈ getEndpoints ∧ sameOrigin node.url answeredBy then
      nameUpstream crates node headers
    else headers
  | none => headers

theorem exposeHeadersKey_ne : upstreamHeaderKey ≠ exposeHeadersKey := by decide

/-- Naming a node leaves its name as the only value, or every value in place when the name
is no header value. -/
theorem getAll_nameUpstream (crates : Crates) (node : NodeEntry) (headers : HeaderMap) :
    (nameUpstream crates node headers).getAll upstreamHeaderKey =
      match crates.headerFromStr node.name with
      | some name => [name]
      | none => headers.getAll upstreamHeaderKey := by
  unfold nameUpstream
  cases crates.headerFromStr node.name with
  | none => rfl
  | some name =>
    -- the expose header is another key, so what is done to it does not show here
    dsimp only
    split
    · exact HeaderMap.getAll_insert_self ..
    · split
      · rw [HeaderMap.getAll_insert_ne _ exposeHeadersKey_ne,
          HeaderMap.getAll_remove_ne _ exposeHeadersKey_ne, HeaderMap.getAll_insert_self]
      · rw [HeaderMap.getAll_append_ne _ exposeHeadersKey_ne, HeaderMap.getAll_insert_self]

/-- A name that a client finds in a relayed response is the name of the chosen node, which
is pinnable and answered a read request. -/
theorem mem_getAll_relayHeaders {crates : Crates} {chosen : Option NodeEntry} {path : String}
    {answeredBy : Url} {headers : HeaderMap} {value : HeaderValue}
    (h : value ∈ (relayHeaders crates chosen path answeredBy headers).getAll upstreamHeaderKey) :
    ∃ node, chosen = some node ∧ node.pinnable = true ∧ path ∈ getEndpoints ∧
      sameOrigin node.url answeredBy = true ∧ crates.headerFromStr node.name = some value := by
  unfold relayHeaders at h
  cases chosen with
  | none =>
    -- what the upstream called itself was taken away
    simp at h
  | some node =>
    dsimp only at h
    split at h
    · next hnames =>
      obtain ⟨hpinnable, hread, horigin⟩ := hnames
      rw [getAll_nameUpstream] at h
      cases hvalue : crates.headerFromStr node.name with
      | none => simp [hvalue] at h
      | some name =>
        rw [hvalue] at h
        rw [List.mem_singleton.mp h]
        exact ⟨node, rfl, hpinnable, hread, horigin, hvalue⟩
    · simp at h

end AntelopeFirewall
