import AntelopeFirewall.Config.Basic
import AntelopeFirewall.Library.Machine
import Mathlib.Algebra.Order.BigOperators.Group.Finset

/-!
# Health Checks

A health checker probes the nodes in turn for as long as the firewall runs, and writes the
result of each probe to a map. The last matching rule drops the nodes that the map does not
call healthy.

- `HealthChecker` is the loop with its map,
- `serve` interleaves the probes with requests, and `lookup_final` says that the map holds
  the last result of every node,
- `requests_reach_eligible` says which nodes a request can be forwarded to.
-/

namespace AntelopeFirewall

open Library

/-! ## The checker -/

/-- The nodes that are probed, the index of the one whose probe is under way, and the map. -/
structure HealthChecker where
  nodes : List Url
  next : Nat
  healthyMap : HealthMap

namespace HealthChecker

/-- The map as it is filled before the first probe: every node counts as healthy. -/
def initialMap (nodes : List Url) : HealthMap :=
  nodes.foldl (fun healthyMap url => healthyMap.insert url true) ∅

def start (nodes : List Url) : HealthChecker := ⟨nodes, 0, initialMap nodes⟩

/-- The probe under way ends: write its result and go on to the next node. Returns the node
that was probed. -/
def probe (checker : HealthChecker) (healthy : Bool) : Option Url × HealthChecker :=
  match checker.nodes[checker.next]? with
  | some url =>
    (some url, { checker with
      next := (checker.next + 1) % checker.nodes.length
      healthyMap := checker.healthyMap.insert url healthy })
  -- there is nothing to probe
  | none => (none, checker)

end HealthChecker

namespace CheckedConfig

variable {crates : Crates} {config : Config} (checked : CheckedConfig crates config)

/-- The checker of a firewall probes the URLs of both lists. The source collects them in a
hash set, so each is probed once a round. -/
def healthChecker (order : IterOrder Url) : HealthChecker :=
  .start (order.list ((checked.getNodes.entries ∪ checked.pushNodes.entries).image NodeEntry.url))

/-- The list of the endpoint class of a path. -/
def classNodes (config : Config) (path : String) : List Node :=
  if path ∈ getEndpoints then config.getNodes
  else if path ∈ pushEndpoints then config.pushNodes
  else []

/-- The nodes of a path are those of its list. -/
theorem mem_nodesFor {path : String} {node : NodeEntry} :
    node ∈ checked.nodesFor path ↔
      ∃ listed ∈ classNodes config path, listed.entry crates = some node := by
  unfold nodesFor classNodes
  split
  · exact mem_buildNodeSet checked.getNodes_eq
  · split
    · exact mem_buildNodeSet checked.pushNodes_eq
    · simp

/-- The weights of a configured list, added up. -/
def listWeight (nodes : List Node) : Nat := (nodes.map fun node => node.weight.getD 1).sum

/-- The list of a path has weights whose sum fits the word when both lists do. -/
theorem listWeight_classNodes_lt (hget : listWeight config.getNodes < 2 ^ 64)
    (hpush : listWeight config.pushNodes < 2 ^ 64) (path : String) :
    listWeight (classNodes config path) < 2 ^ 64 := by
  unfold classNodes
  split
  · exact hget
  · split
    · exact hpush
    · -- no nodes, no weight
      simp [listWeight]

/-- The matched nodes weigh no more than the list they are from. -/
theorem sum_weight_findMatchingUrls_le (health : HealthMap) (info : RequestInfo) (body : Json) :
    ∑ node ∈ checked.firewall.matchingEngine.findMatchingUrls health info body, node.weight ≤
      listWeight (classNodes config info.uri.path) := by
  have hmatched : checked.firewall.matchingEngine.findMatchingUrls health info body ⊆
      checked.nodesFor info.uri.path := by
    intro node hnode
    exact (checked.mem_findMatchingUrls.mp hnode).1
  apply (Finset.sum_le_sum_of_subset hmatched).trans
  unfold nodesFor classNodes
  split
  · exact sum_weight_buildNodeSet checked.getNodes_eq
  · split
    · exact sum_weight_buildNodeSet checked.pushNodes_eq
    · simp

end CheckedConfig

/-! ## Probes and requests -/

/-- What can happen next: the probe under way ends, or a request comes to the matching
rules. -/
inductive HealthEvent where
  | probe (healthy : Bool)
  | request (arrival : Arrival)

/-- What an event shows: the node that was probed, or what became of the request. -/
inductive HealthOutcome where
  | probed (url : Option Url)
  | handled (handled : Firewall.Handled)

namespace HealthChecker

variable {F : Type} [F32 F] {fw : Firewall} {crates : Crates}

/-- Serve a request with the health map as it is now. -/
def handle (F : Type) [F32 F] (fw : Firewall) (crates : Crates) (checker : HealthChecker)
    (arrival : Arrival) : Firewall.Handled :=
  (fw.handleRequest F crates arrival.request arrival.peer
    { arrival.env with health := checker.healthyMap } arrival.found).1

/-- One event; a request leaves the checker alone. -/
def serve (F : Type) [F32 F] (fw : Firewall) (crates : Crates) (checker : HealthChecker) :
    HealthEvent → HealthOutcome × HealthChecker
  | .probe healthy => (.probed (checker.probe healthy).1, (checker.probe healthy).2)
  | .request arrival => (.handled (checker.handle F fw crates arrival), checker)

/-- The result of an event that is the end of a probe of a node. -/
def resultOf (url : Url) : HealthEvent × HealthOutcome → Option Bool
  | (.probe healthy, .probed probed) => if probed = some url then some healthy else none
  | _ => none

/-- The result of the last completed probe of a node, none before its first one. -/
def lastProbe (trace : List (HealthEvent × HealthOutcome)) (url : Url) : Option Bool :=
  trace.reverse.findSome? (resultOf url)

/-- **Health step**: an event writes the result of the probe that it ends, and no other. -/
theorem lookup_serve (checker : HealthChecker) (event : HealthEvent) (url : Url) :
    (checker.serve F fw crates event).2.healthyMap.lookup url =
      (resultOf url (event, (checker.serve F fw crates event).1)).or
        (checker.healthyMap.lookup url) := by
  cases event with
  | request arrival => rfl
  | probe healthy =>
    simp only [serve, resultOf, probe]
    cases checker.nodes[checker.next]? with
    | none => simp
    | some probed =>
      by_cases hprobed : probed = url
      · simp [hprobed]
      · simp [hprobed, AList.lookup_insert_ne (Ne.symm hprobed)]

/-- **Health run**: the map holds the last result of a node, and what it held at the start
for a node that was not probed. -/
theorem lookup_final (checker : HealthChecker) (events : List HealthEvent) (url : Url) :
    (Machine.final (serve F fw crates) checker events).healthyMap.lookup url =
      (lastProbe (Machine.trace (serve F fw crates) checker events) url).or
        (checker.healthyMap.lookup url) := by
  induction events using List.reverseRecOn with
  | nil => rfl
  | append_singleton events event ih =>
    rw [Machine.final_concat, lookup_serve, ih, Machine.trace_concat]
    unfold lastProbe
    rw [List.reverse_append, List.reverse_singleton, List.singleton_append, List.findSome?_cons]
    cases resultOf url (event, _) with
    | none => rfl
    | some healthy => rfl

end HealthChecker

/-! ## Where a request can go -/

section Requests

variable {F : Type} [F32 F] {crates : Crates} {config : Config}

/-- A node that a request to a path may be forwarded to: it is an entry of the list of the
path, and its last completed probe, if there was one, succeeded. -/
def Eligible (crates : Crates) (config : Config) (path : String)
    (trace : List (HealthEvent × HealthOutcome)) (node : NodeEntry) : Prop :=
  (∃ listed ∈ CheckedConfig.classNodes config path, listed.entry crates = some node) ∧
    HealthChecker.lastProbe trace node.url ≠ some false

/-- Every node that is matched after some events is eligible. -/
theorem eligible_of_matched (checked : CheckedConfig crates config)
    (hhealth : config.healthcheck.isSome = true) (order : IterOrder Url)
    (events : List HealthEvent) {info : RequestInfo} {body : Json} {node : NodeEntry}
    (h : node ∈ checked.firewall.matchingEngine.findMatchingUrls
      (Machine.final (HealthChecker.serve F checked.firewall crates)
        (checked.healthChecker order) events).healthyMap info body) :
    Eligible crates config info.uri.path
      (Machine.trace (HealthChecker.serve F checked.firewall crates)
        (checked.healthChecker order) events) node := by
  obtain ⟨hnode, hhealthy⟩ := checked.mem_findMatchingUrls.mp h
  refine ⟨checked.mem_nodesFor.mp hnode, ?_⟩
  intro hfailed
  -- the map would hold the failure
  have hmap := hhealthy hhealth
  rw [HealthChecker.lookup_final, hfailed] at hmap
  cases hmap

/-- A request is only forwarded to an eligible node, pinned or not, whatever the routing mode
and its query are; without an eligible node it is not forwarded. -/
theorem requests_reach_eligible (checked : CheckedConfig crates config)
    (hhealth : config.healthcheck.isSome = true) (order : IterOrder Url)
    (events : List HealthEvent) (arrival : Arrival) :
    let step := HealthChecker.serve F checked.firewall crates
    let start := checked.healthChecker order
    let path := arrival.request.uri.path
    let eligible := Eligible crates config path (Machine.trace step start events)
    let handled := (Machine.final step start events).handle F checked.firewall crates arrival
    (∀ d, handled.dispatched = some d →
      ∃ node, eligible node ∧ d.chosen = some node ∧
        d.sent.url = (crates.setPath node.url path).setQuery none) ∧
    ((∀ node, ¬ eligible node) → handled.dispatched = none) := by
  intro step start path eligible handled
  have hreach : ∀ d, handled.dispatched = some d →
      ∃ node, eligible node ∧ d.chosen = some node ∧
        d.sent.url = (crates.setPath node.url path).setQuery none := by
    intro d hd
    obtain ⟨hreceived, -, hrouted, hforward⟩ :=
      Firewall.dispatch_ok_iff.mp (Firewall.handleRequest_dispatched.mp hd)
    have hinfo := (Firewall.receive_ok_iff.mp hreceived).2.2.1
    have huri : d.received.info.uri = arrival.request.uri := by rw [hinfo]
    -- the walk of the round robin ends at a node, so the fallback URL is out of reach
    obtain ⟨node, hnode⟩ := Firewall.route_isSome hrouted
    rw [hnode] at hrouted hforward
    have heligible := eligible_of_matched (F := F) checked hhealth order events
      (Firewall.route_mem hrouted)
    obtain ⟨base, hurl, hbase⟩ := Firewall.forward_url hforward
    rw [huri, hbase node rfl] at hurl
    rw [huri] at heligible
    exact ⟨node, heligible, hnode, hurl⟩
  refine ⟨hreach, ?_⟩
  intro hnone
  rw [Option.eq_none_iff_forall_ne_some]
  intro d hd
  obtain ⟨node, heligible, -⟩ := hreach d hd
  exact hnone node heligible

end Requests

/-! ## A node that stopped answering -/

/-- One read node whose health is checked. -/
def probedGetNode : Config := { oneGetNode [] with healthcheck := some ⟨5, 10⟩ }

/-- The only table of the list. -/
def getOneTable : Node := { name := "get_one", url := "http://127.0.0.1:5001" }

theorem getOneTable_entry : getOneTable.entry (.small []) = some getOne := rfl

/-- It is the only entry that is built. -/
theorem probedGetNode_getNodes (checked : CheckedConfig (.small []) probedGetNode) :
    checked.getNodes.entries = {getOne} := by
  ext node
  rw [mem_buildNodeSet checked.getNodes_eq, Finset.mem_singleton]
  show (∃ listed ∈ [getOneTable], _) ↔ _
  simp only [List.mem_singleton, exists_eq_left, getOneTable_entry, Option.some.injEq]
  exact eq_comm

/-- The checker probes the only node, over and over. -/
theorem probedGetNode_healthChecker (checked : CheckedConfig (.small []) probedGetNode)
    (order : IterOrder Url) :
    checked.healthChecker order = .start [getOne.url] := by
  have hget := probedGetNode_getNodes checked
  have hpush : checked.pushNodes.entries = ∅ := by
    ext node
    rw [mem_buildNodeSet checked.pushNodes_eq]
    simp [probedGetNode, oneGetNode]
  unfold CheckedConfig.healthChecker
  rw [hget, hpush, Finset.union_empty, Finset.image_singleton, order.list_singleton]

/-- Once the probe of the only read node has failed, no read request is forwarded. -/
theorem requests_reach_eligible_probedGetNode :
    ∃ checked : CheckedConfig (.small []) probedGetNode,
      fromConfig (.small []) probedGetNode = .ok checked.firewall ∧
      ((Machine.final (HealthChecker.serve ℚ checked.firewall (.small []))
          (checked.healthChecker (.arbitrary Url)) [.probe true, .probe false]).handle ℚ
        checked.firewall (.small [])
        ⟨infoRequest none, .v4 0, quietEnv, quietState⟩).dispatched = none := by
  have hwindow : 0 < 60 := by simp
  have hlist : probedGetNode.getNodes = (oneGetNode []).getNodes := rfl
  have hnodes : (buildNodeSet (.small []) probedGetNode.getNodes).toOption.map NodeSet.entries =
      some {getOne} := by
    rw [hlist]
    exact oneGetNode_entries rfl
  have hdurations : probedGetNode.healthcheck.all HealthcheckConfig.fits = true := by decide
  obtain ⟨checked, hbuild, -⟩ :=
    CheckedConfig.exists_of_parts (.inl rfl) hwindow rfl rfl hnodes hdurations
  refine ⟨checked, hbuild, ?_⟩
  apply (requests_reach_eligible (F := ℚ) checked rfl (.arbitrary Url)
    [.probe true, .probe false] ⟨infoRequest none, .v4 0, quietEnv, quietState⟩).2
  rintro node ⟨⟨listed, hlisted, hentry⟩, hprobe⟩
  rw [probedGetNode_healthChecker] at hprobe
  have hread : "/v1/chain/get_info" ∈ getEndpoints := by simp [getEndpoints]
  -- the only read node is the one whose probe failed
  have honly : listed = getOneTable := by
    unfold CheckedConfig.classNodes infoRequest at hlisted
    rw [if_pos hread] at hlisted
    exact List.mem_singleton.mp hlisted
  have hnode : node = getOne := by
    rw [honly, getOneTable_entry] at hentry
    exact (Option.some.inj hentry).symm
  rw [hnode] at hprobe
  exact hprobe rfl

end AntelopeFirewall
