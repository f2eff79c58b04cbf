import AntelopeFirewall.Firewall.Affinity
import AntelopeFirewall.HealthChecker

/-!
# The Endpoint That Is Probed

The checker probes a node at the text of its URL with `v1/chain/get_info` after it. The router
forwards a request to the URL of the node with the path replaced and the query dropped. The two
go to the same endpoint for some URLs only.

- `getInfoUrl` is the URL that is probed,
- `Crates.WritesUrls` says where a text goes that is written after a URL: into the fragment, the
  query or the path, whichever comes last,
- `probed_iff` says for which of the accepted URLs the endpoints agree.
-/

namespace AntelopeFirewall

open Library

/-! ## URLs as text -/

/-- What is written after the URL of a node. -/
def getInfoSuffix : String := "v1/chain/get_info"

/-- The URL that the checker posts to, none when the text is no URL. -/
def HealthChecker.getInfoUrl (crates : Crates) (urlToString : Url → String) (nodeUrl : Url) :
    Option Url :=
  crates.parseUrl (urlToString nodeUrl ++ getInfoSuffix)

/-- The slash that a path starts with, as `set_path` writes it into a URL: encoded where the path
is a text rather than a list of segments, such as that of `mailto`. -/
def Crates.pathStart (crates : Crates) (url : Url) : String :=
  if crates.cannotBeABase url then "%2F" else "/"

namespace Url

/-- Two URLs address the same endpoint. -/
structure SameEndpoint (a b : Url) : Prop where
  scheme : a.scheme = b.scheme
  hostStr : a.hostStr = b.hostStr
  port : a.port = b.port
  path : a.path = b.path
  query : a.query = b.query

/-- The URL has no query, and its path is the start of one; or, where a fragment takes in what
is written after it, the very path of the endpoint. -/
structure IsProbedAsForwarded (crates : Crates) (url : Url) : Prop where
  query : url.query = none
  path : url.path = match url.fragment with
    | none => crates.pathStart url
    | some _ => crates.pathStart url ++ getInfoSuffix

end Url

/-- How URLs are written and read again: the components come in the order path, query, fragment,
and what is written after them goes to the last one that there is. After a URL without any of
them it goes to the host up to its first slash, or is all of the path where two slashes are
missing. -/
structure Crates.WritesUrls (crates : Crates) (urlToString : Url → String) : Prop where
  fragment : ∀ text url fragment, crates.parseUrl text = some url →
    url.fragment = some fragment → crates.parseUrl (urlToString url ++ getInfoSuffix) =
      some { url with fragment := some (fragment ++ getInfoSuffix) }
  query : ∀ text url query, crates.parseUrl text = some url → url.fragment = none →
    url.query = some query → crates.parseUrl (urlToString url ++ getInfoSuffix) =
      some { url with query := some (query ++ getInfoSuffix) }
  path : ∀ text url, crates.parseUrl text = some url → url.fragment = none → url.query = none →
    url.path ≠ "" → crates.parseUrl (urlToString url ++ getInfoSuffix) =
      some { url with path := url.path ++ getInfoSuffix }
  noPath : ∀ text url probed, crates.parseUrl text = some url → url.fragment = none →
    url.query = none → url.path = "" →
    crates.parseUrl (urlToString url ++ getInfoSuffix) = some probed →
      probed.path = "/chain/get_info" ∨ probed.path = getInfoSuffix
  setPath : ∀ text url, crates.parseUrl text = some url →
    crates.setPath url ("/" ++ getInfoSuffix) =
      { url with path := crates.pathStart url ++ getInfoSuffix }

/-! ## Both sides -/

section Both

variable {crates : Crates} {urlToString : Url → String} {url : Url} {text : String}

/-- A request to the endpoint is forwarded to its path, without a query. -/
theorem forwarded_getInfo (hurls : crates.WritesUrls urlToString) {node : NodeEntry}
    (hparsed : crates.parseUrl text = some node.url) {received : Firewall.Received}
    (hpath : received.info.uri.path = "/" ++ getInfoSuffix)
    {sent : Firewall.Sent} (hsent : Firewall.forward crates (some node) received = .ok sent) :
    sent.url =
      { node.url with path := crates.pathStart node.url ++ getInfoSuffix, query := none } := by
  obtain ⟨base, hurl, hbase⟩ := Firewall.forward_url hsent
  rw [hurl, hbase node rfl, hpath, hurls.setPath text node.url hparsed]
  rfl

/-- A URL without a path is not probed at the path that requests are forwarded to. -/
theorem noPath_ne {path : String} (h : path = "/chain/get_info" ∨ path = getInfoSuffix) :
    path ≠ crates.pathStart url ++ getInfoSuffix := by
  have hslash : ∀ path, path = "/chain/get_info" ∨ path = getInfoSuffix →
      path ≠ "/" ++ getInfoSuffix ∧ path ≠ "%2F" ++ getInfoSuffix := by
    rintro path (rfl | rfl)
    · decide
    · decide
  unfold Crates.pathStart
  split
  · exact (hslash path h).2
  · exact (hslash path h).1

/-- **Probe**: what is probed and what is forwarded agree exactly for the URLs of the condition.
The cases are the component that takes in what is written after the URL. -/
theorem sameEndpoint_iff (hurls : crates.WritesUrls urlToString)
    (hparsed : crates.parseUrl text = some url) :
    (∃ probed, HealthChecker.getInfoUrl crates urlToString url = some probed ∧
        probed.SameEndpoint
          { url with path := crates.pathStart url ++ getInfoSuffix, query := none }) ↔
      url.IsProbedAsForwarded crates := by
  have hpathStart : crates.pathStart url ≠ "" := by
    unfold Crates.pathStart
    split
    · decide
    · decide
  unfold HealthChecker.getInfoUrl
  constructor
  · rintro ⟨probed, hprobed, hsame⟩
    cases hfragment : url.fragment with
    | some fragment =>
      rw [hurls.fragment text url fragment hparsed hfragment] at hprobed
      cases hprobed
      refine ⟨hsame.query, ?_⟩
      rw [hfragment]
      exact hsame.path
    | none =>
      cases hquery : url.query with
      | some query =>
        -- the query goes along with the probe
        rw [hurls.query text url query hparsed hfragment hquery] at hprobed
        cases hprobed
        exact absurd hsame.query (Option.some_ne_none _)
      | none =>
        by_cases hpath : url.path = ""
        · have hother := hurls.noPath text url probed hparsed hfragment hquery hpath hprobed
          exact absurd hsame.path (noPath_ne hother)
        · rw [hurls.path text url hparsed hfragment hquery hpath] at hprobed
          cases hprobed
          refine ⟨hquery, ?_⟩
          rw [hfragment]
          exact (String.append_left_inj _).mp hsame.path
  · intro h
    have hpath := h.path
    cases hfragment : url.fragment with
    | some fragment =>
      -- the fragment takes in the text, and the path is there already
      rw [hfragment] at hpath
      rw [hurls.fragment text url fragment hparsed hfragment]
      exact ⟨_, rfl, rfl, rfl, rfl, hpath, h.query⟩
    | none =>
      rw [hfragment] at hpath
      have hsome : url.path ≠ "" := by
        rw [hpath]
        exact hpathStart
      rw [hurls.path text url hparsed hfragment h.query hsome]
      exact ⟨_, rfl, rfl, rfl, rfl, congrArg (· ++ getInfoSuffix) hpath, h.query⟩

end Both

/-- **Probed endpoint**: for a node of an accepted list, the URL that is probed addresses the
endpoint that a request for it is forwarded to exactly when the URL of the node has no query and
ends where its path starts, or has a fragment after the path of the endpoint. -/
theorem probed_iff {crates : Crates} {urlToString : Url → String}
    (hurls : crates.WritesUrls urlToString) {nodes : List Node} {set : NodeSet}
    (hset : buildNodeSet crates nodes = .ok set) {node : NodeEntry} (hnode : node ∈ set.entries)
    {received : Firewall.Received} (hpath : received.info.uri.path = "/v1/chain/get_info")
    {sent : Firewall.Sent} (hsent : Firewall.forward crates (some node) received = .ok sent) :
    (∃ probed, HealthChecker.getInfoUrl crates urlToString node.url = some probed ∧
        probed.SameEndpoint sent.url) ↔ node.url.IsProbedAsForwarded crates := by
  obtain ⟨text, hparsed⟩ := parsed_of_buildNodeSet hset node hnode
  rw [forwarded_getInfo hurls hparsed hpath hsent]
  exact sameEndpoint_iff hurls hparsed

/-! ## A node with a path -/

namespace Crates

/-- A path that stands for itself in a URL. -/
def isPlain (path : String) : Bool :=
  path.toList.all fun c => c.isAlphanum || c = '/' || c = '_'

/-- Every URL of one local node that has a plain path and nothing after it. -/
def localUrls : Crates :=
  { small [] with
    parseUrl := fun text =>
      (Text.stripPrefix "http://127.0.0.1:5001/" text).bind fun path =>
        if isPlain path then some { loopback 5001 with path := "/" ++ path } else none }

/-- Such a URL as text. -/
def localText (url : Url) : String := "http://127.0.0.1:5001" ++ url.path

theorem parseUrl_localUrls {text : String} {url : Url} (h : localUrls.parseUrl text = some url) :
    ∃ path, isPlain path = true ∧ url = { loopback 5001 with path := "/" ++ path } := by
  obtain ⟨path, -, hpath⟩ := Option.bind_eq_some_iff.mp h
  split at hpath
  · next hplain => exact ⟨path, hplain, (Option.some.inj hpath).symm⟩
  · cases hpath

/-- What is written after such a URL goes to its path. -/
theorem parseUrl_localText {path : String} (h : isPlain path = true) :
    localUrls.parseUrl (localText { loopback 5001 with path := "/" ++ path } ++ getInfoSuffix) =
      some { loopback 5001 with path := "/" ++ (path ++ getInfoSuffix) } := by
  have htext : localText { loopback 5001 with path := "/" ++ path } ++ getInfoSuffix =
      "http://127.0.0.1:5001/" ++ (path ++ getInfoSuffix) := by
    have hroot : "http://127.0.0.1:5001" ++ "/" = "http://127.0.0.1:5001/" := by simp
    unfold localText
    dsimp only
    rw [← hroot, String.append_assoc, String.append_assoc, String.append_assoc]
  have hplain : isPlain (path ++ getInfoSuffix) = true := by
    unfold isPlain at h ⊢
    rw [String.toList_append, List.all_append, h]
    decide
  rw [htext]
  unfold localUrls
  dsimp only
  rw [Text.stripPrefix_append, Option.bind_some, if_pos hplain]

theorem localUrls_keepsHosts : localUrls.KeepsHosts where
  hostStr_setPath _ _ := rfl
  host_isHeader := by
    intro text url host hurl hhost
    obtain ⟨path, -, rfl⟩ := parseUrl_localUrls hurl
    have hheader : ((small []).headerFromStr "127.0.0.1").isSome = true := by decide
    cases hhost
    exact hheader

theorem localUrls_writesUrls : localUrls.WritesUrls localText where
  fragment := by
    intro text url fragment hurl hfragment
    obtain ⟨path, -, rfl⟩ := parseUrl_localUrls hurl
    cases hfragment
  query := by
    intro text url query hurl _ hquery
    obtain ⟨path, -, rfl⟩ := parseUrl_localUrls hurl
    cases hquery
  path := by
    intro text url hurl _ _ _
    obtain ⟨path, hplain, rfl⟩ := parseUrl_localUrls hurl
    rw [parseUrl_localText hplain, String.append_assoc]
  noPath := by
    intro text url probed hurl _ _ hpath
    obtain ⟨path, -, rfl⟩ := parseUrl_localUrls hurl
    -- the path of a parsed URL is never empty here
    have hchars := congrArg String.toList hpath
    simp at hchars
  setPath := by
    intro text url hurl
    obtain ⟨path, -, rfl⟩ := parseUrl_localUrls hurl
    rfl

end Crates

/-- The local node with some path. -/
def localNode (path : String) : Node :=
  { name := "get_one", url := "http://127.0.0.1:5001/" ++ path }

/-- Its entry. -/
def localEntry (path : String) : NodeEntry :=
  ⟨{ Crates.loopback 5001 with path := "/" ++ path }, 1, "get_one", true⟩

theorem localNode_forwarded {path : String} (h : Crates.isPlain path = true) :
    ∃ set sent, buildNodeSet Crates.localUrls [localNode path] = .ok set ∧
      localEntry path ∈ set.entries ∧
      Firewall.forward Crates.localUrls (some (localEntry path)) (infoReceived none) = .ok sent ∧
      sent.url = { Crates.loopback 5001 with path := "/v1/chain/get_info" } := by
  have hparsed : Crates.localUrls.parseUrl (localNode path).url = some (localEntry path).url := by
    unfold Crates.localUrls localNode
    dsimp only
    rw [Text.stripPrefix_append, Option.bind_some, if_pos h]
    rfl
  have hweight : 0 < (localNode path).weight.getD 1 := Nat.one_pos
  have hentries := buildNodeSet_singleton hweight (fun _ => getOne_valid) hparsed
  obtain ⟨set, hset, hset'⟩ := buildNodeSet_entries hentries
  obtain ⟨sent, hsent, hurl⟩ :=
    Firewall.forward_ok Crates.localUrls_keepsHosts hparsed (infoReceived none)
  refine ⟨set, sent, hset, ?_, hsent, hurl⟩
  rw [hset']
  exact Finset.mem_singleton_self _

/-- A node with a path is probed below it, and requests are forwarded to the root. -/
theorem probed_below_path :
    ∃ set sent, buildNodeSet Crates.localUrls [localNode "api/"] = .ok set ∧
      localEntry "api/" ∈ set.entries ∧
      Firewall.forward Crates.localUrls (some (localEntry "api/")) (infoReceived none) =
        .ok sent ∧
      ¬ ∃ probed, HealthChecker.getInfoUrl Crates.localUrls Crates.localText
        (localEntry "api/").url = some probed ∧ probed.SameEndpoint sent.url := by
  have hplain : Crates.isPlain "api/" = true := by decide
  obtain ⟨set, sent, hset, hmem, hsent, hurl⟩ := localNode_forwarded hplain
  refine ⟨set, sent, hset, hmem, hsent, ?_⟩
  rintro ⟨probed, hprobed, hsame⟩
  have hbelow : HealthChecker.getInfoUrl Crates.localUrls Crates.localText
      (localEntry "api/").url =
        some { Crates.loopback 5001 with path := "/api/v1/chain/get_info" } :=
    Crates.parseUrl_localText hplain
  rw [hbelow] at hprobed
  cases hprobed
  have hpath := hsame.path
  rw [hurl] at hpath
  exact absurd hpath (by decide)

/-- A node without one is probed where requests are forwarded to. -/
theorem probed_iff_root :
    ∃ set sent probed, buildNodeSet Crates.localUrls [localNode ""] = .ok set ∧
      localEntry "" ∈ set.entries ∧
      Firewall.forward Crates.localUrls (some (localEntry "")) (infoReceived none) = .ok sent ∧
      HealthChecker.getInfoUrl Crates.localUrls Crates.localText (localEntry "").url =
        some probed ∧ probed.SameEndpoint sent.url := by
  have hplain : Crates.isPlain "" = true := rfl
  obtain ⟨set, sent, hset, hmem, hsent, -⟩ := localNode_forwarded hplain
  obtain ⟨probed, hprobed, hsame⟩ :=
    (probed_iff Crates.localUrls_writesUrls hset hmem rfl hsent).mpr ⟨rfl, rfl⟩
  exact ⟨set, sent, probed, hset, hmem, hsent, hprobed, hsame⟩

end AntelopeFirewall
