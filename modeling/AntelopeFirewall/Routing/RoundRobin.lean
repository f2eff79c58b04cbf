import AntelopeFirewall.Config.Basic
import AntelopeFirewall.Library.Machine

/-!
# Shares of the Round Robin

A round robin is to give every node of a matched set as many turns as its weight, out of as
many turns as the weights add up to. The routing mode reads the counter of a path, but no
step ever adds one, so every request reads zero and the first node of the set takes every
turn.

- `select` is one selection, and `handleRequest_routing` says that a request makes at most one,
- `shares_iff` says which matched sets get their shares.
-/

namespace AntelopeFirewall.RoutingModeState

open Library

/-- One selection: the path of the request, the matched set in the order it is iterated in,
and a random draw. -/
structure Selection where
  path : String
  nodes : List NodeEntry
  draw : Nat
  deriving DecidableEq, Repr

/-- The step that a selection makes on the routing state. -/
def select (F : Type) [F32 F] (crates : Crates) (mode : RoutingModeState)
    (selection : Selection) : Option (Option NodeEntry) × RoutingModeState :=
  choose F crates mode selection.path selection.nodes selection.draw

/-- How often a node was chosen for the requests to a path. -/
def timesChosen (trace : List (Selection × Option (Option NodeEntry))) (path : String)
    (node : NodeEntry) : Nat :=
  trace.countP fun turn => turn.1.path = path ∧ turn.2 = some (some node)

/-- After some selections, each of the nodes is chosen as often as its weight says. -/
def GivesShares (F : Type) [F32 F] (crates : Crates) (mode : RoutingModeState) (path : String)
    (nodes : List NodeEntry) (before turns : List Selection) : Prop :=
  ∀ node ∈ nodes, timesChosen (Machine.trace (select F crates)
    (Machine.final (select F crates) mode before) turns) path node = node.weight

instance (F : Type) [F32 F] (crates : Crates) (mode : RoutingModeState) (path : String)
    (nodes : List NodeEntry) (before turns : List Selection) :
    Decidable (GivesShares F crates mode path nodes before turns) :=
  inferInstanceAs (Decidable (∀ node ∈ nodes, _ = _))

/-! ## A request makes at most one selection -/

section Requests

variable {F : Type} [F32 F] {fw : Firewall} {crates : Crates} {env : Env} {found : Guarded}

/-- The selection that a received request makes, if it makes one. -/
def selectionOf (fw : Firewall) (env : Env) (received : Firewall.Received) : Selection :=
  ⟨received.info.uri.path,
    env.order.list
      (fw.matchingEngine.findMatchingUrls env.health received.info received.body),
    env.draw⟩

/-- A matched request that asks for no node takes its node, and the routing state that it
leaves, from one selection. -/
theorem route_eq_select {received : Firewall.Received}
    (hmatched : (fw.matchingEngine.findMatchingUrls env.health received.info
      received.body).Nonempty)
    (hunpinned : requestedUpstream received.info = none) :
    let selected := select F crates found.routing (selectionOf fw env received)
    fw.route F crates received env found =
      (match selected.1 with
        | some node => .ok node
        | none => .error .panic,
      { found with routing := selected.2 }) :=
  Firewall.route_unpinned rfl hmatched hunpinned

/-- Routing leaves the routing state alone or moves it by one selection. -/
theorem route_routing (received : Firewall.Received) :
    (fw.route F crates received env found).2.routing = found.routing ∨
      (fw.route F crates received env found).2.routing =
        (select F crates found.routing (selectionOf fw env received)).2 := by
  unfold Firewall.route
  dsimp only
  split
  · exact .inl rfl
  · split
    · -- pinned
      exact .inl rfl
    · split
      · exact .inr rfl
      · exact .inr rfl

/-- Whether a request is dispatched or stopped, it has made at most one selection. -/
theorem dispatch_routing (request : Request) (peer : IpAddr) :
    (fw.dispatch F crates request peer env found).2.routing = found.routing ∨
      ∃ received, (fw.dispatch F crates request peer env found).2.routing =
        (select F crates found.routing (selectionOf fw env received)).2 := by
  -- By where the way to a node ends: only the selection touches the routing state.
  unfold Firewall.dispatch
  split
  · exact .inl rfl
  · next received _ =>
    dsimp only
    split
    · exact .inl rfl
    · -- what follows the routing leaves its state as it is
      let left : Guarded := { found with
        checked := (Firewall.checkRatelimiters F received env.check 0 fw.ratelimiters
          found.checked).2 }
      have hrouted : (fw.route F crates received env left).2.routing = found.routing ∨
          ∃ r, (fw.route F crates received env left).2.routing =
            (select F crates found.routing (selectionOf fw env r)).2 :=
        (route_routing received).imp_right fun h => ⟨received, h⟩
      split
      · exact hrouted
      · split
        · exact hrouted
        · exact hrouted

/-- **Request step**: whatever becomes of a request, it moves the routing state by at most
one selection. -/
theorem handleRequest_routing (request : Request) (peer : IpAddr) :
    (fw.handleRequest F crates request peer env found).2.routing = found.routing ∨
      ∃ received, (fw.handleRequest F crates request peer env found).2.routing =
        (select F crates found.routing (selectionOf fw env received)).2 := by
  have hdispatch : (fw.dispatch F crates request peer env found).2.routing = found.routing ∨ _ :=
    dispatch_routing request peer
  unfold Firewall.handleRequest
  dsimp only
  -- the answer of the node is charged to the limiters only
  split
  · exact hdispatch
  · exact hdispatch
  · exact hdispatch

/-- A firewall is built without counters, and a selection adds none. -/
theorem select_toState (mode : RoutingMode) (selection : Selection) :
    (select F crates mode.toState selection).2 = mode.toState := by
  cases mode with
  | roundRobin => rfl
  | leastConnections => rfl
  | random => rfl

/-- So the routing state of a built firewall stays as it was built. -/
theorem handleRequest_routingMode {config : Config} (checked : CheckedConfig crates config)
    (hfound : found.routing = checked.firewall.routingMode) {request : Request} {peer : IpAddr} :
    (checked.firewall.handleRequest F crates request peer env found).2.routing =
      checked.firewall.routingMode := by
  have hmoved : (checked.firewall.handleRequest F crates request peer env found).2.routing =
      found.routing ∨ _ := handleRequest_routing request peer
  rcases hmoved with hsame | ⟨received, hselected⟩
  · rw [hsame, hfound]
  · rw [hselected, hfound]
    exact select_toState config.routingMode _

end Requests

section Counterless

variable {F : Type} [F32 F] {crates : Crates}

/-- Without counters every selection reads zero, and there are none after it. -/
theorem select_baseRoundRobin (selection : Selection) :
    select F crates .baseRoundRobin selection =
      (nextInTurn 0 selection.nodes, .baseRoundRobin) := rfl

theorem final_baseRoundRobin (selections : List Selection) :
    Machine.final (select F crates) .baseRoundRobin selections = .baseRoundRobin := by
  induction selections with
  | nil => rfl
  | cons selection selections ih =>
    rw [Machine.final_cons, select_baseRoundRobin]
    exact ih

theorem trace_baseRoundRobin (selections : List Selection) :
    Machine.trace (select F crates) .baseRoundRobin selections =
      selections.map fun selection => (selection, nextInTurn 0 selection.nodes) := by
  induction selections with
  | nil => rfl
  | cons selection selections ih =>
    rw [Machine.trace, select_baseRoundRobin, List.map_cons]
    congr 1

/-- A counter that reads zero is the turn of the first node. -/
theorem nextInTurn_zero {first : NodeEntry} {rest : List NodeEntry} (hweight : 0 < first.weight)
    (htotal : ((first :: rest).map NodeEntry.weight).sum < 2 ^ 64) :
    nextInTurn 0 (first :: rest) = some (some first) := by
  have hpos : totalWeight (first :: rest) ≠ 0 := by
    unfold totalWeight
    rw [Nat.mod_eq_of_lt htotal, List.map_cons, List.sum_cons]
    omega
  unfold nextInTurn
  rw [if_neg hpos, Nat.zero_mod, weightedWalk, if_pos hweight]

/-- The first node takes all the turns of a path, the others take none. -/
theorem timesChosen_baseRoundRobin {first : NodeEntry} {rest : List NodeEntry}
    (hweight : 0 < first.weight)
    (htotal : ((first :: rest).map NodeEntry.weight).sum < 2 ^ 64) {path : String}
    {turns : List Selection}
    (hturns : ∀ turn ∈ turns, turn.path = path → turn.nodes = first :: rest)
    (node : NodeEntry) :
    timesChosen (Machine.trace (select F crates) .baseRoundRobin turns) path node =
      if node = first then turns.countP fun turn => turn.path = path else 0 := by
  -- without a counter every turn is the turn of the value zero
  have hchosen : ∀ turn ∈ turns, (turn.path = path ∧
      nextInTurn 0 turn.nodes = some (some node)) ↔ (turn.path = path ∧ node = first) := by
    intro turn hturn
    apply and_congr_right
    intro hpath
    rw [hturns turn hturn hpath, nextInTurn_zero hweight htotal, Option.some.injEq,
      Option.some.injEq, eq_comm]
  unfold timesChosen
  rw [trace_baseRoundRobin, List.countP_map]
  split
  · next hfirst =>
    apply List.countP_congr
    intro turn hturn
    simpa [hfirst] using hchosen turn hturn
  · next hother =>
    apply List.countP_eq_zero.mpr
    intro turn hturn
    have hnot := (hchosen turn hturn).not.mpr fun h => hother h.2
    simpa using hnot

end Counterless

/-- **Shares of the round robin**: the nodes of a matched set get the turns that their
weights promise exactly when the set has a single node. -/
theorem shares_iff {F : Type} [F32 F] {crates : Crates} {config : Config} {fw : Firewall}
    (hbuild : fromConfig crates config = .ok fw) (hmode : config.routingMode = .roundRobin)
    {urls : Finset NodeEntry} (hne : urls.Nonempty) (hweight : ∀ node ∈ urls, 0 < node.weight)
    (htotal : ∑ node ∈ urls, node.weight < 2 ^ 64) (order : IterOrder NodeEntry) (path : String)
    (before turns : List Selection)
    (hnodes : ∀ turn ∈ turns, turn.path = path → turn.nodes = order.list urls)
    (hturns : (turns.countP fun turn => turn.path = path) = ∑ node ∈ urls, node.weight) :
    GivesShares F crates fw.routingMode path (order.list urls) before turns ↔ urls.card = 1 := by
  obtain ⟨checked, rfl⟩ := fromConfig_ok hbuild
  have hbase : checked.firewall.routingMode = .baseRoundRobin := by
    show config.routingMode.toState = _
    rw [hmode]
    rfl
  unfold GivesShares
  -- The map is empty at every selection, so every one of them takes the first node.
  rw [hbase, final_baseRoundRobin, ← order.length_list urls]
  rw [← order.sum_map_list] at htotal hturns
  cases hlist : order.list urls with
  | nil => exact absurd hlist (order.list_ne_nil hne)
  | cons first rest =>
    rw [hlist] at htotal hturns hnodes
    have hmem : ∀ node ∈ first :: rest, 0 < node.weight := by
      intro node hnode
      apply hweight
      rw [← order.mem_list, hlist]
      exact hnode
    have hfirst := hmem first (List.mem_cons_self ..)
    have htimes : ∀ node, timesChosen (Machine.trace (select F crates) .baseRoundRobin turns) path
        node = if node = first then turns.countP fun turn => turn.path = path else 0 :=
      timesChosen_baseRoundRobin hfirst htotal hnodes
    constructor
    · -- a second node would have to be the first one, too
      intro hshares
      cases rest with
      | nil => rfl
      | cons second others =>
        have hsecond : second ≠ first := by
          have hnodup := order.nodup urls
          rw [hlist] at hnodup
          intro hsame
          simp [hsame] at hnodup
        have hshare := hshares second (by simp)
        rw [htimes, if_neg hsecond] at hshare
        have := hmem second (by simp)
        omega
    · -- the only node gets all the turns, which are as many as its weight
      intro hlength node hnode
      have hrest : rest = [] := by simpa using hlength
      subst hrest
      rw [List.mem_singleton.mp hnode, htimes, if_pos rfl, hturns]
      simp

/-! ## Two nodes of weight one -/

/-- Round robin over two read nodes. -/
def twoNodes : Config where
  routingMode := .roundRobin
  ratelimit := []
  pushNodes := []
  getNodes :=
    [{ name := "get_one", url := "http://127.0.0.1:5001" },
      { name := "get_two", url := "http://127.0.0.1:5002" }]

def getTwo : NodeEntry := ⟨Crates.loopback 5002, 1, "get_two", true⟩

theorem twoNodes_built : ∃ fw, fromConfig (.small []) twoNodes = .ok fw ∧
    fw = assemble (.small []) twoNodes [] ∅ {getOne, getTwo} := by
  obtain ⟨checked, hbuild, hfw⟩ : ∃ checked : CheckedConfig (.small []) twoNodes,
      fromConfig (.small []) twoNodes = .ok checked.firewall ∧
      checked.firewall = assemble (.small []) twoNodes [] ∅ {getOne, getTwo} :=
    CheckedConfig.exists_of_parts (.inl rfl) (by simp [twoNodes]) rfl (by decide)
      (by decide) rfl
  exact ⟨checked.firewall, hbuild, hfw⟩

/-- A request to one of the read endpoints that finds both nodes. -/
def infoTurn : Selection := ⟨"/v1/chain/get_info", [getOne, getTwo], 0⟩

/-- Two nodes of weight one should take one turn each out of two, but the first of them takes
both. -/
theorem twoNodes_not_shared :
    ∃ fw, fromConfig (.small []) twoNodes = .ok fw ∧
      fw.matchingEngine.findMatchingUrls ∅ ⟨.empty, ⟨"/v1/chain/get_info", none⟩, .v4 0⟩ .null =
        {getOne, getTwo} ∧
      ¬ GivesShares ℚ (.small []) fw.routingMode infoTurn.path infoTurn.nodes []
        [infoTurn, infoTurn] := by
  obtain ⟨fw, hbuild, rfl⟩ := twoNodes_built
  refine ⟨_, hbuild, ?_, ?_⟩
  · decide
  · decide

/-- The same two nodes, in any order. -/
theorem shares_iff_twoNodes :
    ∃ fw, fromConfig (.small []) twoNodes = .ok fw ∧
      let nodes := (IterOrder.arbitrary NodeEntry).list {getOne, getTwo}
      (GivesShares ℚ (.small []) fw.routingMode infoTurn.path nodes []
          [⟨infoTurn.path, nodes, 0⟩, ⟨infoTurn.path, nodes, 0⟩] ↔
        ({getOne, getTwo} : Finset NodeEntry).card = 1) := by
  obtain ⟨fw, hbuild, -⟩ := twoNodes_built
  refine ⟨fw, hbuild, shares_iff hbuild rfl (by simp) (by decide) (by decide +kernel)
    (.arbitrary NodeEntry) infoTurn.path [] _ ?_ ?_⟩
  · intro turn hturn _
    simp only [List.mem_cons, List.not_mem_nil, or_false, or_self] at hturn
    rw [hturn]
  · decide

end AntelopeFirewall.RoutingModeState
