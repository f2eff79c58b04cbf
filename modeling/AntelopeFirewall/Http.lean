import AntelopeFirewall.Library.Json

/-!
# HTTP Data

The parts of a request and of a response that the firewall reads: method, URI, header
multimap, status, address and URL.

- `HeaderMap` follows `hyper::HeaderMap`: `insert` replaces every value of a name, `append`
  adds one, `remove` takes all away.
- `Url` follows `reqwest::Url`; its serialisation is the list of its components, so two
  URLs are equal exactly when those are.
-/

namespace AntelopeFirewall

/-- Request method. -/
inductive Method where
  | get
  | post
  | options
  | other (name : String)
  deriving DecidableEq, Repr

/-- Path and query of a request URI. -/
structure Uri where
  path : String
  query : Option String
  deriving DecidableEq, Repr

/-- An IP address as its bits. -/
inductive IpAddr where
  | v4 (bits : BitVec 32)
  | v6 (bits : BitVec 128)
  deriving DecidableEq, Repr

/-- Response status code. -/
abbrev StatusCode := Nat

/-- A 2xx status. -/
def StatusCode.isSuccess (status : StatusCode) : Bool := 200 ≤ status ∧ status < 300

/-- A 4xx status. -/
def StatusCode.isClientError (status : StatusCode) : Bool := 400 ≤ status ∧ status < 500

/-- A 5xx status. -/
def StatusCode.isServerError (status : StatusCode) : Bool := 500 ≤ status ∧ status < 600

/-! ## Headers -/

/-- The bytes of one header value. -/
abbrev HeaderValue := List UInt8

/-- Header names (in lower case) with their values, in order. -/
structure HeaderMap where
  entries : List (String × HeaderValue)
  deriving DecidableEq, Repr

namespace HeaderMap

/-- A map without headers. -/
def empty : HeaderMap := ⟨[]⟩

/-- Every value of a name. -/
def getAll (headers : HeaderMap) (name : String) : List HeaderValue :=
  (headers.entries.filter fun e => e.1 = name).map Prod.snd

/-- The first value of a name. -/
def get (headers : HeaderMap) (name : String) : Option HeaderValue :=
  (headers.getAll name).head?

/-- Take every value of a name away. -/
def remove (headers : HeaderMap) (name : String) : HeaderMap :=
  ⟨headers.entries.filter fun e => e.1 ≠ name⟩

/-- Add one more value for a name. -/
def append (headers : HeaderMap) (name : String) (value : HeaderValue) : HeaderMap :=
  ⟨headers.entries ++ [(name, value)]⟩

/-- Set the only value of a name. -/
def insert (headers : HeaderMap) (name : String) (value : HeaderValue) : HeaderMap :=
  (headers.remove name).append name value

@[simp] theorem getAll_remove_self (headers : HeaderMap) (name : String) :
    (headers.remove name).getAll name = [] := by
  simp [getAll, remove, List.filter_filter]

theorem getAll_remove_ne (headers : HeaderMap) {name other : String} (h : other ≠ name) :
    (headers.remove name).getAll other = headers.getAll other := by
  unfold getAll remove
  rw [List.filter_filter]
  congr 1
  apply List.filter_congr
  intro e _
  by_cases he : e.1 = other
  · simp [he, h]
  · simp [he]

theorem getAll_append_self (headers : HeaderMap) (name : String) (value : HeaderValue) :
    (headers.append name value).getAll name = headers.getAll name ++ [value] := by
  simp [getAll, append]

theorem getAll_append_ne (headers : HeaderMap) {name other : String} (h : other ≠ name)
    (value : HeaderValue) :
    (headers.append name value).getAll other = headers.getAll other := by
  simp [getAll, append, h.symm]

@[simp] theorem getAll_insert_self (headers : HeaderMap) (name : String)
    (value : HeaderValue) : (headers.insert name value).getAll name = [value] := by
  rw [insert, getAll_append_self, getAll_remove_self, List.nil_append]

theorem getAll_insert_ne (headers : HeaderMap) {name other : String} (h : other ≠ name)
    (value : HeaderValue) : (headers.insert name value).getAll other = headers.getAll other := by
  rw [insert, getAll_append_ne _ h, getAll_remove_ne _ h]

end HeaderMap

/-! ## URLs -/

/-- The components of a URL. `hasAuthority` is whether two slashes follow the scheme, as they do
before a host, which may be empty: `foo://` has no host either, and is not `foo:`. -/
structure Url where
  scheme : String
  hasAuthority : Bool
  credentials : String
  hostStr : Option String
  port : Option Nat
  path : String
  query : Option String
  fragment : Option String
  deriving DecidableEq, Repr

namespace Url

/-- The port, or the default one of a scheme that has one. -/
def portOrKnownDefault (url : Url) : Option Nat :=
  match url.port with
  | some port => some port
  | none =>
    match url.scheme with
    | "http" | "ws" => some 80
    | "https" | "wss" => some 443
    | "ftp" => some 21
    | _ => none

/-- Set or take away the query. -/
def setQuery (url : Url) (query : Option String) : Url := { url with query := query }

end Url

end AntelopeFirewall
