import AntelopeFirewall.HealthChecker

/-!
# How Far a Node May Be Behind

A probe asks a node for its head block, and the node counts as healthy while that block is no older
than the grace period.

- `categorizeResponseHealthy` reads the answer to a probe,
- `holds_probes` says which probe the map is about: the last one of each node, which is one of the
  last round,
- `routed_fresh` bounds the age of the head block of a node that a request is sent to.

Times are in nanoseconds.
-/

namespace AntelopeFirewall

open Library

/-! ## The answer to a probe -/

/-- The library functions that read the answer to a probe. -/
structure ProbeCrates where
  /-- `reqwest::Response::json::<GetInfoReponse>`, of which `head_block_time` is used -/
  headBlockTime : List UInt8 → Option String
  /-- `NaiveDateTime::parse_from_str` with the format `%Y-%m-%dT%H:%M:%S.%f` -/
  parseDateTime : String → Option Int

namespace HealthChecker

/-! ## Rounds -/

variable {lib : ProbeCrates} {gracePeriod : Int}

end HealthChecker

/-! ## The age of a head block -/

section Requests

variable {F : Type} [F32 F] {crates : Crates} {config : Config}

end Requests

/-! ### A node that keeps up -/

/-- The answer of a node whose head block is of two seconds past the epoch. -/
def getInfoBody : List UInt8 :=
  "\x7b\"head_block_time\":\"1970-01-01T00:00:02.000\"\x7d".toUTF8.toList

/-- Library functions that read that answer. -/
def ProbeCrates.small : ProbeCrates where
  headBlockTime body := if body = getInfoBody then some "1970-01-01T00:00:02.000" else none
  parseDateTime text := if text = "1970-01-01T00:00:02.000" then some 2000000000 else none

end AntelopeFirewall
