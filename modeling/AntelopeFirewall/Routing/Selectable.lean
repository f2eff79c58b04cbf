import AntelopeFirewall.Routing.LeastConnections
import Mathlib.Algebra.Order.BigOperators.Group.Finset

/-!
# Choosing a Node Without a Panic

The validator of a node list rejects a zero weight, but it bounds no sum of weights and does
not ask for a host. The routing modes rely on both: the round robin and the random mode add
the weights up in a machine word, and the least-connections mode unwraps every host.

- `Selects` is a selection that panics nowhere and returns a matched node,
- `selects_iff` says for which subsets of an accepted list each mode selects.
-/

namespace AntelopeFirewall

open Library

/-- Weights that are there can be drawn from unless they add up to zero. The sampler adds
them up in a `u64`. -/
def Crates.DrawsWeights (crates : Crates) : Prop :=
  ∀ weights, weights ≠ [] →
    (crates.weightedIndex weights = true ↔ weights.sum % 2 ^ 64 ≠ 0)

namespace RoutingModeState

/-! ## Sums in a machine word -/

/-- The `u64` sum of some weights onto a total, with none for an addition that overflows. -/
def checkedSum : Nat → List Nat → Option Nat
  | total, [] => some total
  | total, weight :: weights =>
    if total + weight < 2 ^ 64 then checkedSum (total + weight) weights else none

/-- No addition overflows when the whole sum fits the word. -/
theorem checkedSum_isSome_iff {total : Nat} {weights : List Nat} (htotal : total < 2 ^ 64) :
    (checkedSum total weights).isSome = true ↔ total + weights.sum < 2 ^ 64 := by
  induction weights generalizing total with
  | nil => simpa [checkedSum] using htotal
  | cons weight weights ih =>
    rw [checkedSum, List.sum_cons, ← Nat.add_assoc]
    split
    · next hfits => exact ih hfits
    · -- what comes later cannot make the sum smaller
      next hover =>
      constructor
      · intro hnone
        cases hnone
      · intro hsum
        exact absurd (Nat.lt_of_le_of_lt (Nat.le_add_right ..) hsum) hover

/-! ## The steps that may panic -/

/-- Every step of a selection that may panic goes well: each host is there, each addition of
the weights fits, the modulo is not zero, and the weights can be drawn from. -/
def NoPanic (F : Type) [F32 F] (crates : Crates) (nodes : List NodeEntry) :
    RoutingModeState → Prop
  | .leastConnected counts => (loads F counts nodes).isSome = true
  | .roundRobin _ =>
    (checkedSum 0 (nodes.map NodeEntry.weight)).isSome = true ∧ totalWeight nodes ≠ 0
  | .random =>
    (checkedSum 0 (nodes.map NodeEntry.weight)).isSome = true ∧
      crates.weightedIndex (nodes.map NodeEntry.weight) = true

/-- The selection panics nowhere and returns one of the nodes. -/
structure Selects (F : Type) [F32 F] (crates : Crates) (mode : RoutingModeState)
    (path : String) (nodes : List NodeEntry) (draw : Nat) : Prop where
  noPanic : NoPanic F crates nodes mode
  chosen : ∃ node ∈ nodes, (choose F crates mode path nodes draw).1 = some (some node)

/-- What a mode asks of the nodes it chooses from. -/
def Selectable (urls : Finset NodeEntry) : RoutingModeState → Prop
  | .leastConnected _ => ∀ node ∈ urls, node.url.hostStr.isSome = true
  | .roundRobin _ => ∑ node ∈ urls, node.weight < 2 ^ 64
  | .random => ∑ node ∈ urls, node.weight < 2 ^ 64

variable {F : Type} [F32 F] {crates : Crates}

/-- The loads are there when every node has a host. -/
theorem loads_isSome_iff {counts : Table String Nat} {nodes : List NodeEntry} :
    (loads F counts nodes).isSome = true ↔ ∀ node ∈ nodes, node.url.hostStr.isSome = true := by
  constructor
  · intro h
    obtain ⟨pairs, hpairs⟩ := Option.isSome_iff_exists.mp h
    exact hosts_of_loads hpairs
  · intro hhosts
    induction nodes with
    | nil => rfl
    | cons node rest ih =>
      have hrest := ih fun other hother => hhosts other (List.mem_cons_of_mem _ hother)
      obtain ⟨others, hothers⟩ := Option.isSome_iff_exists.mp hrest
      obtain ⟨host, hhost⟩ := Option.isSome_iff_exists.mp (hhosts node (List.mem_cons_self ..))
      simp [loads, load, hothers, hhost]

/-- The panicking steps of each mode go well for the sets it can choose from. -/
theorem noPanic_iff (hdraws : crates.DrawsWeights) {urls : Finset NodeEntry}
    (hne : urls.Nonempty) (hweight : ∀ node ∈ urls, 0 < node.weight) (mode : RoutingModeState)
    (order : IterOrder NodeEntry) :
    NoPanic F crates (order.list urls) mode ↔ Selectable urls mode := by
  have hsum := order.sum_map_list urls NodeEntry.weight
  have hfits : (checkedSum 0 ((order.list urls).map NodeEntry.weight)).isSome = true ↔
      ∑ node ∈ urls, node.weight < 2 ^ 64 := by
    rw [checkedSum_isSome_iff (Nat.two_pow_pos 64), Nat.zero_add, hsum]
  have hpos : 0 < ∑ node ∈ urls, node.weight := Finset.sum_pos hweight hne
  -- weights that are positive and fit the word have a nonzero sum in it
  have htotal : ∑ node ∈ urls, node.weight < 2 ^ 64 →
      ((order.list urls).map NodeEntry.weight).sum % 2 ^ 64 ≠ 0 := by
    intro hlt
    rw [hsum, Nat.mod_eq_of_lt hlt]
    exact hpos.ne'
  cases mode with
  | leastConnected counts => simp [NoPanic, Selectable, loads_isSome_iff]
  | roundRobin counts =>
    rw [NoPanic, Selectable, hfits]
    exact and_iff_left_of_imp htotal
  | random =>
    have hweights : (order.list urls).map NodeEntry.weight ≠ [] := by
      simpa using order.list_ne_nil hne
    rw [NoPanic, Selectable, hfits, hdraws _ hweights]
    exact and_iff_left_of_imp htotal

/-- A selection whose steps go well returns one of its nodes. -/
theorem chosen_of_noPanic {mode : RoutingModeState} {nodes : List NodeEntry}
    (hnodes : nodes ≠ []) (h : NoPanic F crates nodes mode) (path : String) (draw : Nat) :
    ∃ node ∈ nodes, (choose F crates mode path nodes draw).1 = some (some node) := by
  have hsome : ∃ node, (choose F crates mode path nodes draw).1 = some (some node) := by
    cases mode with
    | leastConnected counts =>
      obtain ⟨pairs, hpairs⟩ := Option.isSome_iff_exists.mp h
      cases pairs with
      | nil => exact absurd (loads_map_fst hpairs).symm hnodes
      | cons first rest =>
        refine ⟨(minBy first rest).1, ?_⟩
        simp [choose, leastLoaded, hpairs]
    | roundRobin counts =>
      have hfits := (checkedSum_isSome_iff (Nat.two_pow_pos 64)).mp h.1
      rw [Nat.zero_add] at hfits
      let count := (fetchCount counts path).1
      have hturn : nextInTurn count nodes =
          some (weightedWalk (count % totalWeight nodes) nodes) := if_neg h.2
      -- the remainder is below the sum, so the walk comes to a node
      have hsum : totalWeight nodes = (nodes.map NodeEntry.weight).sum := Nat.mod_eq_of_lt hfits
      have hleft : count % totalWeight nodes < (nodes.map NodeEntry.weight).sum := by
        rw [← hsum]
        exact Nat.mod_lt _ (Nat.pos_of_ne_zero h.2)
      obtain ⟨node, hnode⟩ := weightedWalk_isSome hleft
      exact ⟨node, hturn.trans (congrArg some hnode)⟩
    | random =>
      -- the drawn index is below the number of nodes
      have hindex : draw % nodes.length < nodes.length :=
        Nat.mod_lt _ (List.length_pos_of_ne_nil hnodes)
      refine ⟨nodes[draw % nodes.length], ?_⟩
      simp [choose, drawn, h.2, hindex]
  obtain ⟨node, hnode⟩ := hsome
  exact ⟨node, choose_mem hnode, hnode⟩

/-- **Selection from an accepted list**: a selection from the nodes that a health filter left
of an accepted list goes well and returns one of them exactly when every one of them has a
host, in the least-connections mode, and exactly when their weights add up to less than
`2 ^ 64` in the other two. -/
theorem selects_iff {F : Type} [F32 F] {crates : Crates} (hdraws : crates.DrawsWeights)
    {nodes : List Node} {set : NodeSet} (_hset : buildNodeSet crates nodes = .ok set)
    {urls : Finset NodeEntry} (hurls : urls ⊆ set.entries) (hne : urls.Nonempty)
    (mode : RoutingModeState) (path : String) (order : IterOrder NodeEntry) (draw : Nat) :
    Selects F crates mode path (order.list urls) draw ↔ Selectable urls mode := by
  have hweight : ∀ node ∈ urls, 0 < node.weight :=
    fun node hnode => set.weight_pos node (hurls hnode)
  have hsteps : NoPanic F crates (order.list urls) mode ↔ Selectable urls mode :=
    noPanic_iff hdraws hne hweight mode order
  constructor
  · intro h
    exact hsteps.mp h.noPanic
  · intro h
    have hgood := hsteps.mpr h
    exact ⟨hgood, chosen_of_noPanic (order.list_ne_nil hne) hgood path draw⟩

/-! ## A host and port without a scheme, and three heavy nodes -/

/-- A text that starts like a scheme is read as one, and the URL has no host. -/
def lenient : Crates :=
  { Crates.small [] with
    parseUrl := fun text =>
      if text = "localhost:5000" then some ⟨"localhost", false, "", none, none, "5000", none, none⟩
      else (Crates.small []).parseUrl text
    weightedIndex := fun weights => weights.sum % 2 ^ 64 ≠ 0 }

theorem lenient_drawsWeights : lenient.DrawsWeights := by
  intro weights _
  exact decide_eq_true_iff

/-- The scheme of the URL was left out. -/
def hostlessNode : Node := { name := "local", url := "localhost:5000" }

def hostlessEntry : NodeEntry :=
  ⟨⟨"localhost", false, "", none, none, "5000", none, none⟩, 1, "local", true⟩

/-- Three nodes of which two have the greatest weight a configuration can write. -/
def heavyNodes : List Node :=
  [{ name := "a", url := "http://127.0.0.1:5000", weight := some (2 ^ 63 - 1) },
    { name := "b", url := "http://127.0.0.1:5001", weight := some (2 ^ 63 - 1) },
    { name := "c", url := "http://127.0.0.1:5002", weight := some 2 }]

def heavyEntries : List NodeEntry :=
  [⟨Crates.loopback 5000, 2 ^ 63 - 1, "a", true⟩, ⟨Crates.loopback 5001, 2 ^ 63 - 1, "b", true⟩,
    ⟨Crates.loopback 5002, 2, "c", true⟩]

/-- Both lists are accepted. The host of the first is unwrapped, and the weights of the second
add up to zero in a machine word, by which the round robin takes a remainder. -/
theorem accepted_panics :
    ((buildNodeSet lenient [hostlessNode]).toOption.map NodeSet.entries = some {hostlessEntry} ∧
      (choose ℚ lenient .baseLeastConnected "/v1/chain/get_info" [hostlessEntry] 0).1 = none ∧
      ¬ Selects ℚ lenient .baseLeastConnected "/v1/chain/get_info" [hostlessEntry] 0) ∧
    (buildNodeSet lenient heavyNodes).toOption.map NodeSet.entries =
        some heavyEntries.toFinset ∧
      (choose ℚ lenient .baseRoundRobin "/v1/chain/get_info" heavyEntries 0).1 = none ∧
      (choose ℚ lenient .baseRandom "/v1/chain/get_info" heavyEntries 0).1 = none ∧
      ¬ Selects ℚ lenient .baseRoundRobin "/v1/chain/get_info" heavyEntries 0 := by
  have hhostless : (choose ℚ lenient .baseLeastConnected "/v1/chain/get_info"
      [hostlessEntry] 0).1 = none := by decide
  have hheavy : (choose ℚ lenient .baseRoundRobin "/v1/chain/get_info" heavyEntries 0).1 =
      none := by decide
  refine ⟨⟨by decide, hhostless, ?_⟩, by decide +kernel, hheavy, by decide +kernel, ?_⟩
  · -- a selection would have returned a node
    intro h
    obtain ⟨node, -, hnode⟩ := h.chosen
    rw [hhostless] at hnode
    cases hnode
  · intro h
    obtain ⟨node, -, hnode⟩ := h.chosen
    rw [hheavy] at hnode
    cases hnode

/-- The node without a host, under the three modes. -/
theorem selects_iff_hostless :
    ∃ set, buildNodeSet lenient [hostlessNode] = .ok set ∧ ∀ mode : RoutingModeState,
      Selects ℚ lenient mode "/v1/chain/get_info"
        ((IterOrder.arbitrary NodeEntry).list {hostlessEntry}) 0 ↔
        Selectable {hostlessEntry} mode := by
  obtain ⟨set, hset, hentries⟩ : ∃ set, buildNodeSet lenient [hostlessNode] = .ok set ∧
      set.entries = {hostlessEntry} := buildNodeSet_entries (by decide)
  refine ⟨set, hset, fun mode => ?_⟩
  exact selects_iff lenient_drawsWeights hset (by rw [hentries]) (by simp) mode _ _ 0

end RoutingModeState

end AntelopeFirewall
