import AntelopeFirewall.Routing.RoundRobin
import Mathlib.Algebra.Order.Field.Basic
import Mathlib.Algebra.Order.Field.Rat

/-!
# The Least Connections

The least-connections mode is to send a request to the node with the fewest requests in
flight for its weight. The mode reads a counter for the host of each node, but no step ever
adds one, so every node counts as having one connection and the heaviest node is chosen.

- `minBy_le` and `minBy_first` are the laws of the scan for the minimum,
- `leastLoaded_empty` says what it chooses without counters,
- `serve` lets requests start and finish in any order, and `least_connections_iff` says in
  which runs every request goes to a least loaded node.
-/

namespace AntelopeFirewall

open Library

namespace RoutingModeState

/-! ## The scan -/

theorem partialCmp_gt {a b : ℚ} : F32.partialCmp a b = some .gt ↔ b < a := by
  have hrat := F32.gt_rat a b
  unfold F32.gt at hrat
  simpa using hrat

/-- The scan ends at a least load. -/
theorem minBy_le (best : NodeEntry × ℚ) (rest : List (NodeEntry × ℚ)) :
    ∀ pair ∈ best :: rest, (minBy best rest).2 ≤ pair.2 := by
  induction rest generalizing best with
  | nil => simp [minBy]
  | cons next rest ih =>
    intro pair hpair
    rw [minBy]
    split
    · next hless =>
      -- the scan goes on with the smaller load
      have hnext := ih next next (List.mem_cons_self ..)
      rcases List.mem_cons.mp hpair with rfl | hpair
      · exact hnext.trans (partialCmp_gt.mp hless).le
      · exact ih next pair hpair
    · next hnot =>
      have hbest := ih best best (List.mem_cons_self ..)
      rcases List.mem_cons.mp hpair with rfl | hpair
      · exact hbest
      · rcases List.mem_cons.mp hpair with rfl | hpair
        · exact hbest.trans (le_of_not_gt fun h => hnot (partialCmp_gt.mpr h))
        · exact ih best pair (List.mem_cons_of_mem _ hpair)

/-- What it ends at comes first among its equals. -/
theorem minBy_first (best : NodeEntry × ℚ) (rest : List (NodeEntry × ℚ)) :
    ∃ before after, best :: rest = before ++ minBy best rest :: after ∧
      ∀ pair ∈ before, (minBy best rest).2 < pair.2 := by
  induction rest generalizing best with
  | nil => exact ⟨[], [], rfl, by simp⟩
  | cons next rest ih =>
    rw [minBy]
    split
    · next hless =>
      -- the best so far is before what is found, and worse
      obtain ⟨before, after, hsplit, hbefore⟩ := ih next
      have hmin := minBy_le next rest next (List.mem_cons_self ..)
      refine ⟨best :: before, after, ?_, ?_⟩
      · rw [hsplit, List.cons_append]
      · intro pair hpair
        rcases List.mem_cons.mp hpair with rfl | hpair
        · exact hmin.trans_lt (partialCmp_gt.mp hless)
        · exact hbefore pair hpair
    · next hnot =>
      have hnext : best.2 ≤ next.2 := le_of_not_gt fun h => hnot (partialCmp_gt.mpr h)
      obtain ⟨before, after, hsplit, hbefore⟩ := ih best
      cases before with
      | nil =>
        -- the best so far stays the best
        obtain ⟨hbest, -⟩ := List.cons.inj hsplit
        exact ⟨[], next :: rest, congrArg (· :: next :: rest) hbest, by simp⟩
      | cons first before =>
        obtain ⟨rfl, hrest⟩ := List.cons.inj hsplit
        have hfirst := hbefore best (List.mem_cons_self ..)
        refine ⟨best :: next :: before, after, congrArg (best :: next :: ·) hrest, ?_⟩
        intro pair hpair
        rcases List.mem_cons.mp hpair with rfl | hpair
        · exact hfirst
        · rcases List.mem_cons.mp hpair with rfl | hpair
          · exact hfirst.trans_le hnext
          · exact hbefore pair (List.mem_cons_of_mem _ hpair)

/-! ## Without counters -/

/-- The first of the nodes that no other node outweighs. -/
def firstHeaviest (nodes : List NodeEntry) : Option NodeEntry :=
  nodes.find? fun node => ∀ other ∈ nodes, other.weight ≤ node.weight

/-- A node without a counter counts as having one connection. -/
theorem loads_empty {nodes : List NodeEntry}
    (hhosts : ∀ node ∈ nodes, node.url.hostStr.isSome = true) :
    loads ℚ ∅ nodes = some (nodes.map fun node => (node, 1 / (node.weight : ℚ))) := by
  induction nodes with
  | nil => rfl
  | cons node rest ih =>
    obtain ⟨host, hhost⟩ := Option.isSome_iff_exists.mp (hhosts node (List.mem_cons_self ..))
    have hload : load ℚ ∅ node = some (1 / (node.weight : ℚ)) := by
      unfold load
      rw [hhost]
      simp
    rw [loads, hload, ih fun node hnode => hhosts node (List.mem_cons_of_mem _ hnode)]
    rfl

/-- A choice was made among nodes with a host. -/
theorem hosts_of_loads {F : Type} [F32 F] {counts : Table String Nat} {nodes : List NodeEntry}
    {pairs : List (NodeEntry × F)} (h : loads F counts nodes = some pairs) :
    ∀ node ∈ nodes, node.url.hostStr.isSome = true := by
  induction nodes generalizing pairs with
  | nil => simp
  | cons node rest ih =>
    obtain ⟨nodeLoad, hload, hrest⟩ := Option.bind_eq_some_iff.mp h
    obtain ⟨others, hothers, -⟩ := Option.map_eq_some_iff.mp hrest
    obtain ⟨host, hhost, -⟩ := Option.map_eq_some_iff.mp hload
    intro other hother
    rcases List.mem_cons.mp hother with rfl | hother
    · rw [hhost]
      rfl
    · exact ih hothers other hother

/-- Without counters the scan ends at the first of the heaviest nodes. -/
theorem leastLoaded_of_hosts {nodes : List NodeEntry} (hweight : ∀ node ∈ nodes, 0 < node.weight)
    (hhosts : ∀ node ∈ nodes, node.url.hostStr.isSome = true) :
    leastLoaded ℚ ∅ nodes = firstHeaviest nodes := by
  have hle : ∀ a ∈ nodes, ∀ b ∈ nodes,
      1 / (a.weight : ℚ) ≤ 1 / (b.weight : ℚ) ↔ b.weight ≤ a.weight := by
    intro a ha b hb
    rw [one_div_le_one_div (Nat.cast_pos.mpr (hweight a ha)) (Nat.cast_pos.mpr (hweight b hb)),
      Nat.cast_le]
  unfold leastLoaded
  rw [loads_empty hhosts]
  cases nodes with
  | nil => rfl
  | cons first rest =>
    let pair : NodeEntry → NodeEntry × ℚ := fun node => (node, 1 / (node.weight : ℚ))
    have hleast := minBy_le (pair first) (rest.map pair)
    obtain ⟨before, after, hsplit, hbefore⟩ := minBy_first (pair first) (rest.map pair)
    show some (minBy (pair first) (rest.map pair)).1 = _
    -- the pairs are the nodes with their loads, so they split alike
    rw [← List.map_cons] at hsplit hleast
    obtain ⟨earlier, others, hnodes, rfl, hothers⟩ := List.map_eq_append_iff.mp hsplit
    obtain ⟨node, later, rfl, hnode, -⟩ := List.map_eq_cons_iff.mp hothers
    rw [← hnode] at hleast hbefore ⊢
    have hmem : node ∈ first :: rest := by
      rw [hnodes]
      simp
    have hheaviest : ∀ other ∈ first :: rest, other.weight ≤ node.weight := by
      intro other hother
      exact (hle node hmem other hother).mp (hleast _ (List.mem_map_of_mem hother))
    unfold firstHeaviest
    symm
    rw [List.find?_eq_some_iff_append]
    refine ⟨decide_eq_true hheaviest, earlier, later, hnodes, ?_⟩
    intro other hother
    have hmemOther : other ∈ first :: rest := by
      rw [hnodes]
      exact List.mem_append_left _ hother
    have hlighter := not_le_of_gt (hbefore _ (List.mem_map_of_mem hother))
    rw [hle other hmemOther node hmem] at hlighter
    have hnot : ¬ ∀ heavier ∈ first :: rest, heavier.weight ≤ other.weight :=
      fun h => hlighter (h node hmem)
    rw [decide_eq_false hnot]
    rfl

/-- Without counters a node is chosen exactly when every node has a host, and it is the first
of the heaviest. -/
theorem leastLoaded_empty {nodes : List NodeEntry} (hweight : ∀ node ∈ nodes, 0 < node.weight)
    {node : NodeEntry} :
    leastLoaded ℚ ∅ nodes = some node ↔
      (∀ other ∈ nodes, other.url.hostStr.isSome = true) ∧ firstHeaviest nodes = some node := by
  by_cases hhosts : ∀ other ∈ nodes, other.url.hostStr.isSome = true
  · rw [leastLoaded_of_hosts hweight hhosts]
    exact (and_iff_right hhosts).symm
  · -- the scan comes to the node without a host and panics
    have hnone : loads ℚ ∅ nodes = none := by
      rw [Option.eq_none_iff_forall_ne_some]
      intro pairs hpairs
      exact hhosts (hosts_of_loads hpairs)
    unfold leastLoaded
    rw [hnone]
    simp [hhosts]

end RoutingModeState

/-! ## Requests that start and finish -/

/-- The routing state, and the requests that were forwarded and have not finished. -/
structure Traffic where
  routing : RoutingModeState
  inFlight : List Firewall.Dispatch

/-- A request starts, or one of those in flight finishes, with an answer or without. -/
inductive TrafficEvent where
  | start (arrival : Arrival)
  | finish (i : Nat)

/-- The nodes that an arriving request is matched to. -/
def Arrival.matched (fw : Firewall) (arrival : Arrival) (received : Firewall.Received) :
    Finset NodeEntry :=
  fw.matchingEngine.findMatchingUrls arrival.env.health received.info received.body

/-- An arriving request is received, the limiters let it through, it is matched, and no pin
decides where it goes. -/
structure Arrival.Unpinned (fw : Firewall) (crates : Crates) (arrival : Arrival)
    (received : Firewall.Received) : Prop where
  receive : fw.receive crates arrival.request arrival.peer arrival.env.filterNow = .ok received
  limited : (Firewall.checkRatelimiters ℚ received arrival.env.check 0 fw.ratelimiters
    arrival.found.checked).1 = .ok ()
  nonempty : (arrival.matched fw received).Nonempty
  unpinned : (fw.limitPin crates received.info.ip arrival.env.pinNow
    (Firewall.findPinned received.info (arrival.env.order.list (arrival.matched fw received)))
    arrival.found.pins).1 = none

/-- Without counters an unpinned request goes to the node that the scan ends at. -/
theorem route_leastLoaded {fw : Firewall} {crates : Crates} {received : Firewall.Received}
    {env : Env} {found : Guarded} (hbase : found.routing = .baseLeastConnected)
    {urls : Finset NodeEntry}
    (hurls : fw.matchingEngine.findMatchingUrls env.health received.info received.body = urls)
    (hne : urls.Nonempty)
    (hnone : (fw.limitPin crates received.info.ip env.pinNow
      (Firewall.findPinned received.info (env.order.list urls)) found.pins).1 = none)
    {node : NodeEntry} :
    (fw.route ℚ crates received env found).1 = .ok (some node) ↔
      RoutingModeState.leastLoaded ℚ ∅ (env.order.list urls) = some node := by
  rw [Firewall.route_unhonored hurls hne hnone, hbase]
  unfold RoutingModeState.choose
  dsimp only [RoutingModeState.baseLeastConnected]
  cases RoutingModeState.leastLoaded ℚ ∅ (env.order.list urls) with
  | none => simp
  | some least => simp

namespace Traffic

/-- Before the first request. -/
def initial (fw : Firewall) : Traffic := ⟨fw.routingMode, []⟩

/-- How an arriving request is dispatched with the routing state as it is now. -/
def dispatch (fw : Firewall) (crates : Crates) (traffic : Traffic) (arrival : Arrival) :
    Except Stop Firewall.Dispatch × Guarded :=
  fw.dispatch ℚ crates arrival.request arrival.peer arrival.env
    { arrival.found with routing := traffic.routing }

/-- One event, with what was dispatched. The end of a request leaves the routing state
alone. -/
def serve (fw : Firewall) (crates : Crates) (traffic : Traffic) :
    TrafficEvent → Option Firewall.Dispatch × Traffic
  | .start arrival =>
    let dispatched := traffic.dispatch fw crates arrival
    match dispatched.1 with
    | .ok d => (some d, ⟨dispatched.2.routing, d :: traffic.inFlight⟩)
    | .error _ => (none, ⟨dispatched.2.routing, traffic.inFlight⟩)
  | .finish i => (none, { traffic with inFlight := traffic.inFlight.eraseIdx i })

/-- The number of requests in flight to a node, for its weight. -/
def share (traffic : Traffic) (node : NodeEntry) : ℚ :=
  (traffic.inFlight.countP fun d => d.chosen.map NodeEntry.url = some node.url) / node.weight

/-- A node of a matched set has the least share. -/
def IsLeast (traffic : Traffic) (urls : Finset NodeEntry) (node : NodeEntry) : Prop :=
  node ∈ urls ∧ ∀ other ∈ urls, traffic.share node ≤ traffic.share other

/-- An unpinned request that starts is forwarded to a node that has the least share. -/
def PicksLeast (fw : Firewall) (crates : Crates) (traffic : Traffic) : TrafficEvent → Prop
  | .start arrival => ∀ received, arrival.Unpinned fw crates received →
    ∃ d node, (traffic.serve fw crates (.start arrival)).1 = some d ∧ d.chosen = some node ∧
      traffic.IsLeast (arrival.matched fw received) node
  | .finish _ => True

/-- Every matched node has a host, and the first of the heaviest has the least share. -/
def HeaviestIsLeast (fw : Firewall) (crates : Crates) (traffic : Traffic) : TrafficEvent → Prop
  | .start arrival => ∀ received, arrival.Unpinned fw crates received →
    (∀ node ∈ arrival.matched fw received, node.url.hostStr.isSome = true) ∧
      ∃ node, RoutingModeState.firstHeaviest
          (arrival.env.order.list (arrival.matched fw received)) = some node ∧
        traffic.IsLeast (arrival.matched fw received) node
  | .finish _ => True

section Steps

variable {crates : Crates} {config : Config} {fw : Firewall} {traffic : Traffic}

/-- The counters stay empty. -/
theorem serve_routing (event : TrafficEvent) (hbase : traffic.routing = .baseLeastConnected) :
    (traffic.serve fw crates event).2.routing = .baseLeastConnected := by
  -- the end of a request does not touch the routing
  cases event with
  | finish i => exact hbase
  | start arrival =>
    have hdispatched : (traffic.dispatch fw crates arrival).2.routing = .baseLeastConnected := by
      unfold dispatch
      rw [hbase]
      rcases RoutingModeState.dispatch_routing (F := ℚ) arrival.request arrival.peer with
        hsame | ⟨received, hselected⟩
      · exact hsame
      · -- a selection only reads the counters
        exact hselected
    unfold serve
    dsimp only
    split
    · exact hdispatched
    · exact hdispatched

theorem serve_start {arrival : Arrival} {d : Firewall.Dispatch} :
    (traffic.serve fw crates (.start arrival)).1 = some d ↔
      (traffic.dispatch fw crates arrival).1 = .ok d := by
  unfold serve
  dsimp only
  cases (traffic.dispatch fw crates arrival).1 with
  | error stop => simp
  | ok other => simp

/-- A request that is dispatched is in flight from then on. -/
theorem serve_start_inFlight {arrival : Arrival} {d : Firewall.Dispatch}
    (h : (traffic.dispatch fw crates arrival).1 = .ok d) :
    (traffic.serve fw crates (.start arrival)).2.inFlight = d :: traffic.inFlight := by
  unfold serve
  dsimp only
  rw [h]

/-- An unpinned request is forwarded to the first of the heaviest nodes, unless one of the
matched nodes has no host. -/
theorem dispatch_chosen_iff (hcrates : crates.KeepsHosts) (checked : CheckedConfig crates config)
    {arrival : Arrival} {received : Firewall.Received}
    (hunpinned : arrival.Unpinned checked.firewall crates received)
    (hbase : traffic.routing = .baseLeastConnected) {node : NodeEntry} :
    (∃ d, (traffic.dispatch checked.firewall crates arrival).1 = .ok d ∧
      d.chosen = some node) ↔
      (∀ other ∈ arrival.matched checked.firewall received,
        other.url.hostStr.isSome = true) ∧
      RoutingModeState.firstHeaviest
        (arrival.env.order.list (arrival.matched checked.firewall received)) = some node := by
  -- build_node_set lets no node of weight 0 through
  have hweight : ∀ node ∈ arrival.env.order.list (arrival.matched checked.firewall received),
      0 < node.weight := by
    intro node hnode
    rw [arrival.env.order.mem_list] at hnode
    exact checked.weight_pos_of_nodesFor (checked.mem_findMatchingUrls.mp hnode).1
  let left : Guarded := { arrival.found with
    routing := traffic.routing
    checked := (Firewall.checkRatelimiters ℚ received arrival.env.check 0
      checked.firewall.ratelimiters arrival.found.checked).2 }
  have hleft : left.routing = .baseLeastConnected := hbase
  -- No count is ever stored, so the node with the largest weight has the least load.
  have hchosen : (checked.firewall.route ℚ crates received arrival.env left).1 =
      .ok (some node) ↔ _ :=
    (route_leastLoaded hleft rfl hunpinned.nonempty hunpinned.unpinned).trans
      (RoutingModeState.leastLoaded_empty hweight)
  simp only [arrival.env.order.mem_list] at hchosen
  rw [← hchosen]
  constructor
  · rintro ⟨d, hd, hnode⟩
    -- the request that was received is known, as its parts are
    obtain ⟨hreceived, -, hrouted, -⟩ := Firewall.dispatch_ok_iff.mp hd
    have hsame : d.received = received := Except.ok.inj (hreceived.symm.trans hunpinned.receive)
    rw [hsame, hnode] at hrouted
    exact hrouted
  · -- a node that was chosen has a URL with a host, so forwarding cannot fail
    intro hrouted
    obtain ⟨hmem, -⟩ := checked.mem_findMatchingUrls.mp (Firewall.route_mem hrouted)
    obtain ⟨text, hparsed⟩ := checked.parsed_of_nodesFor hmem
    obtain ⟨sent, hsent, -⟩ := Firewall.forward_ok hcrates hparsed received
    exact ⟨⟨received, some node, sent⟩,
      Firewall.dispatch_ok_iff.mpr ⟨hunpinned.receive, hunpinned.limited, hrouted, hsent⟩, rfl⟩

/-- **Start step**: without counters an unpinned request goes to a node with the least share
exactly when the first of the heaviest nodes has it. -/
theorem picksLeast_iff (hcrates : crates.KeepsHosts) (checked : CheckedConfig crates config)
    (hbase : traffic.routing = .baseLeastConnected) (event : TrafficEvent) :
    traffic.PicksLeast checked.firewall crates event ↔
      traffic.HeaviestIsLeast checked.firewall crates event := by
  cases event with
  | finish i => exact Iff.rfl
  | start arrival =>
    refine forall_congr' fun received => forall_congr' fun hunpinned => ?_
    constructor
    · rintro ⟨d, node, hd, hnode, hleast⟩
      obtain ⟨hhosts, hfirst⟩ := (dispatch_chosen_iff hcrates checked hunpinned hbase).mp
        ⟨d, serve_start.mp hd, hnode⟩
      exact ⟨hhosts, node, hfirst, hleast⟩
    · rintro ⟨hhosts, node, hfirst, hleast⟩
      obtain ⟨d, hd, hnode⟩ := (dispatch_chosen_iff hcrates checked hunpinned hbase).mpr
        ⟨hhosts, hfirst⟩
      exact ⟨d, node, serve_start.mpr hd, hnode, hleast⟩

end Steps

/-- **Least connections**: in a run every unpinned request goes to a node with the least
share exactly when, at each of them, the first of the heaviest nodes has the least share. -/
theorem least_connections_iff {crates : Crates} {config : Config} {fw : Firewall}
    (hcrates : crates.KeepsHosts) (hbuild : fromConfig crates config = .ok fw)
    (hmode : config.routingMode = .leastConnections) (events : List TrafficEvent) :
    Machine.AtEachStep (serve fw crates) (initial fw) events (PicksLeast fw crates) ↔
      Machine.AtEachStep (serve fw crates) (initial fw) events (HeaviestIsLeast fw crates) := by
  obtain ⟨checked, rfl⟩ := fromConfig_ok hbuild
  have hinitial : (initial checked.firewall).routing = .baseLeastConnected := by
    show config.routingMode.toState = _
    rw [hmode]
    rfl
  apply Machine.atEachStep_congr _ (fun traffic => traffic.routing = .baseLeastConnected)
  · intro traffic event hbase
    exact serve_routing event hbase
  · exact hinitial
  · intro traffic event hbase
    exact picksLeast_iff hcrates checked hbase event

/-! ## Two nodes of weight one -/

/-- Least connections over two read nodes. -/
def leastTwo : Config :=
  { RoutingModeState.twoNodes with routingMode := .leastConnections }

/-- A read request that asks for no node. -/
noncomputable def infoArrival : Arrival := ⟨infoRequest none, .v4 0, quietEnv, quietState⟩

theorem leastTwo_built : ∃ checked : CheckedConfig (.small []) leastTwo,
    fromConfig (.small []) leastTwo = .ok checked.firewall ∧
    checked.firewall =
      assemble (.small []) leastTwo [] ∅ {getOne, RoutingModeState.getTwo} := by
  have hwindow : 0 < leastTwo.pinnedWindowSeconds := by simp [leastTwo, RoutingModeState.twoNodes]
  exact CheckedConfig.exists_of_parts (.inl rfl) hwindow rfl (by decide)
    (by decide) rfl

theorem infoArrival_unpinned {checked : CheckedConfig (.small []) leastTwo}
    (hfw : checked.firewall =
      assemble (.small []) leastTwo [] ∅ {getOne, RoutingModeState.getTwo}) :
    infoArrival.matched checked.firewall (infoReceived none) =
        {getOne, RoutingModeState.getTwo} ∧
      infoArrival.Unpinned checked.firewall (.small []) (infoReceived none) := by
  have hmatched : infoArrival.matched checked.firewall (infoReceived none) =
      {getOne, RoutingModeState.getTwo} := by
    rw [hfw]
    rfl
  refine ⟨hmatched, checked.receive_infoRequest rfl rfl _ _ _, ?_, ?_, rfl⟩
  · rw [hfw]
    rfl
  · rw [hmatched]
    simp

/-- Of two requests that are in flight at the same time both go to the same of two nodes of
weight one, and the other node has none. -/
theorem leastTwo_not_least :
    ∃ fw, fromConfig (.small []) leastTwo = .ok fw ∧
      ¬ Machine.AtEachStep (serve fw (.small [])) (initial fw)
        [.start infoArrival, .start infoArrival] (PicksLeast fw (.small [])) := by
  obtain ⟨checked, hbuild, hfw⟩ := leastTwo_built
  refine ⟨checked.firewall, hbuild, ?_⟩
  obtain ⟨hmatched, hunpinned⟩ := infoArrival_unpinned hfw
  have hcrates := Crates.small_keepsHosts []
  intro hclaim
  have hbase : (initial checked.firewall).routing = .baseLeastConnected := rfl
  let later := (serve checked.firewall (.small []) (initial checked.firewall)
    (.start infoArrival)).2
  -- the first request goes to the first of the heaviest nodes
  obtain ⟨d, node, hd, hnode, hmem, -⟩ :=
    hclaim [] (.start infoArrival) [.start infoArrival] rfl (infoReceived none) hunpinned
  have hdispatched := serve_start.mp hd
  obtain ⟨-, hfirst⟩ := (dispatch_chosen_iff hcrates checked hunpinned hbase).mp
    ⟨d, hdispatched, hnode⟩
  -- so does the second one, which finds the same nodes in the same order
  have hpicks : PicksLeast checked.firewall (.small []) later (.start infoArrival) :=
    hclaim [.start infoArrival] (.start infoArrival) [] rfl
  rw [picksLeast_iff hcrates checked (serve_routing (.start infoArrival) hbase)] at hpicks
  obtain ⟨-, again, hagain, -, hleast⟩ := hpicks (infoReceived none) hunpinned
  rw [hfirst] at hagain
  cases hagain
  have hinFlight : later.inFlight = [d] := serve_start_inFlight hdispatched
  have hshare : ∀ other, later.share other =
      (if node.url = other.url then 1 else 0) / (other.weight : ℚ) := by
    intro other
    unfold share
    rw [hinFlight]
    simp [List.countP_cons, hnode]
  rw [hmatched] at hmem hleast
  rcases Finset.mem_insert.mp hmem with rfl | hmem
  · have hother := hleast RoutingModeState.getTwo (by simp)
    rw [hshare, hshare] at hother
    -- one request over a weight of one against none
    simp only [getOne, RoutingModeState.getTwo, Crates.loopback] at hother
    simp at hother
    exact absurd hother (not_le_of_gt one_pos)
  · have hother := hleast getOne (by simp)
    rw [Finset.mem_singleton.mp hmem] at hshare hother
    rw [hshare, hshare] at hother
    simp only [getOne, RoutingModeState.getTwo, Crates.loopback] at hother
    simp at hother
    exact absurd hother (not_le_of_gt one_pos)

/-- A run in which the first request finishes before the second one starts. -/
theorem least_connections_iff_leastTwo :
    ∃ fw, fromConfig (.small []) leastTwo = .ok fw ∧
      (Machine.AtEachStep (serve fw (.small [])) (initial fw)
          [.start infoArrival, .finish 0, .start infoArrival] (PicksLeast fw (.small [])) ↔
        Machine.AtEachStep (serve fw (.small [])) (initial fw)
          [.start infoArrival, .finish 0, .start infoArrival]
          (HeaviestIsLeast fw (.small []))) := by
  obtain ⟨checked, hbuild, -⟩ := leastTwo_built
  exact ⟨checked.firewall, hbuild,
    least_connections_iff (Crates.small_keepsHosts []) hbuild rfl _⟩

end Traffic

end AntelopeFirewall
