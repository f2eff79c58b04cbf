import AntelopeFirewall.Library.Table
import AntelopeFirewall.Library.IterOrder
import AntelopeFirewall.Library.Machine
import AntelopeFirewall.Library.WindowLedger
import AntelopeFirewall.Library.FixedWindow
import AntelopeFirewall.Library.F32
import AntelopeFirewall.Library.Json
import AntelopeFirewall.Http
import AntelopeFirewall.Basic
import AntelopeFirewall.PinLimiter.Basic
import AntelopeFirewall.PinLimiter.Ceiling
import AntelopeFirewall.RateLimiter.Basic
import AntelopeFirewall.RateLimiter.Accounting
import AntelopeFirewall.RateLimiter.Attempts
import AntelopeFirewall.RateLimiter.Failures
import AntelopeFirewall.RateLimiter.Overlap
import AntelopeFirewall.RateLimiter.Burst
import AntelopeFirewall.De
import AntelopeFirewall.Crates
import AntelopeFirewall.Library.Text
import AntelopeFirewall.Library.CommaList
import AntelopeFirewall.Firewall.Body
import AntelopeFirewall.Firewall.Upstream
import AntelopeFirewall.Routing
import AntelopeFirewall.Firewall.Basic
import AntelopeFirewall.Config.NodeSet
import AntelopeFirewall.Config.Basic
import AntelopeFirewall.Routing.RoundRobin
import AntelopeFirewall.Firewall.Screening
import AntelopeFirewall.Firewall.FailureCharge
import AntelopeFirewall.Firewall.Affinity
import AntelopeFirewall.Addresses
import AntelopeFirewall.RateLimiter.Isolation
import AntelopeFirewall.PinLimiter.Unbounded
import AntelopeFirewall.PinLimiter.Refusals
import AntelopeFirewall.De.Encoding
import AntelopeFirewall.Firewall.TransactionView
import AntelopeFirewall.Firewall.Gates
import AntelopeFirewall.HealthChecker
import AntelopeFirewall.Routing.LeastConnections
import AntelopeFirewall.Firewall.QueryString
import AntelopeFirewall.Metrics.Basic
import AntelopeFirewall.Metrics.Counters
import AntelopeFirewall.Metrics.Answers
import AntelopeFirewall.Metrics.Registration
import AntelopeFirewall.Routing.Selectable
import AntelopeFirewall.De.Varuint
import AntelopeFirewall.Firewall.ScreenedAccounts
import AntelopeFirewall.RateLimiter.MultiBucket
import AntelopeFirewall.Config.TransactionBuckets
import AntelopeFirewall.RateLimiter.Exemption
import AntelopeFirewall.Firewall.NamedUpstream
import AntelopeFirewall.HealthChecker.Endpoint
import AntelopeFirewall.Config.Acceptance
import AntelopeFirewall.Library.BitGroups
import AntelopeFirewall.De.Names
import AntelopeFirewall.RateLimiter.Interpolation
import AntelopeFirewall.Firewall.BlockedAddresses
import AntelopeFirewall.Library.Slots
import AntelopeFirewall.Routing.WeightedWalk
import AntelopeFirewall.Firewall.ExposeHeader
import AntelopeFirewall.De.Consumption
import AntelopeFirewall.De.Integers
import AntelopeFirewall.Library.Concurrent
import AntelopeFirewall.Firewall.Interleaving
import AntelopeFirewall.Firewall.Refinement
import AntelopeFirewall.Firewall.Accounts
import AntelopeFirewall.Firewall.Ceilings
import AntelopeFirewall.Firewall.InFlight
import AntelopeFirewall.Library.LaggingWindow
import AntelopeFirewall.PinLimiter.Lagging
import AntelopeFirewall.Firewall.Steering
import AntelopeFirewall.Library.Outcomes
import AntelopeFirewall.De.Schema
import AntelopeFirewall.De.Outcomes
import AntelopeFirewall.Library.Fallible
import AntelopeFirewall.Config.Process
import AntelopeFirewall.Firewall.Refusals
import AntelopeFirewall.Firewall.Answers
import AntelopeFirewall.Library.Lockstep
import AntelopeFirewall.Firewall.Noninterference
import AntelopeFirewall.Firewall.Transparency
import AntelopeFirewall.Firewall.Memory
import AntelopeFirewall.Firewall.Documents
import AntelopeFirewall.HealthChecker.Freshness
import AntelopeFirewall.Firewall.DroppedPins
import AntelopeFirewall.Firewall.Groups
