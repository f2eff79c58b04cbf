import AntelopeFirewall.Basic
import AntelopeFirewall.Library.Text

/-!
# Functions of Other Crates

The firewall calls JSON, hex, URL, JSON path and HTTP libraries and renders and parses IP
addresses. `Crates` collects these functions; what a result relies on is stated about them
where it is used.
-/

namespace AntelopeFirewall

open Library

/-- The library functions the firewall calls. A failure carries no data that is used. -/
structure Crates where
  /-- `serde_json::from_slice` -/
  fromSlice : List UInt8 → Option Json
  /-- `hex::decode` -/
  hexDecode : String → Option (List UInt8)
  /-- `jsonpath::Selector::find`, for a selector built from a path -/
  find : String → Json → List Json
  /-- `reqwest::Url::parse` -/
  parseUrl : String → Option Url
  /-- `reqwest::Url::set_path` -/
  setPath : Url → String → Url
  /-- `reqwest::Url::cannot_be_a_base`, by which `set_path` goes -/
  cannotBeABase : Url → Bool
  /-- `IpAddr::from_str` -/
  parseIp : String → Option IpAddr
  /-- `IpAddr::to_string` -/
  ipToString : IpAddr → String
  /-- `HeaderValue::to_str` -/
  headerToStr : HeaderValue → Option String
  /-- `HeaderValue::from_str` -/
  headerFromStr : String → Option HeaderValue
  /-- `char::is_alphanumeric` -/
  isAlphanumeric : Char → Bool
  /-- Whether `rand`'s `WeightedIndex::new` accepts some weights. -/
  weightedIndex : List Nat → Bool

/-- Setting the path of a URL keeps its host, and the host of a parsed URL is fit for a
header. -/
structure Crates.KeepsHosts (crates : Crates) : Prop where
  hostStr_setPath : ∀ url path, (crates.setPath url path).hostStr = url.hostStr
  host_isHeader : ∀ text url host, crates.parseUrl text = some url → url.hostStr = some host →
    (crates.headerFromStr host).isSome = true

/-- A header value made from a text has its bytes. -/
def Crates.KeepsTexts (crates : Crates) : Prop :=
  ∀ text value, crates.headerFromStr text = some value → value = Text.utf8 text

end AntelopeFirewall
