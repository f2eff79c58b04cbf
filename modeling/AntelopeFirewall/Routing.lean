import AntelopeFirewall.Crates
import AntelopeFirewall.Library.F32
import Mathlib.Algebra.Order.Ring.Nat

/-!
# Routing Modes

How the node of an unpinned request is chosen from the matched set. The set is given as the
list it is iterated in.

- `weightedWalk` is the fold of the round-robin mode,
- `leastLoaded` is the minimum of the least-connections mode,
- `choose` is one selection: it may panic (the outer `none`), it may end without a node (the
  inner `none`), and it returns the routing state it leaves.

The selection reads a counter by one atomic operation and is a single step on the state.
-/

namespace AntelopeFirewall

open Library

/-- The routing mode with its counters. -/
inductive RoutingModeState where
  | roundRobin (counts : Table String Nat)
  | leastConnected (counts : Table String Nat)
  | random

namespace RoutingModeState

def baseRoundRobin : RoutingModeState := .roundRobin ∅

def baseLeastConnected : RoutingModeState := .leastConnected ∅

def baseRandom : RoutingModeState := .random

/-! ## Round robin -/

/-- The sum of the weights, a `u64` that wraps as in a release build. -/
def totalWeight (nodes : List NodeEntry) : Nat := (nodes.map NodeEntry.weight).sum % 2 ^ 64

/-- The fold over the nodes: it is done at the first node whose weight is more than what is
left. -/
def weightedWalk : Nat → List NodeEntry → Option NodeEntry
  | _, [] => none
  | weightsLeft, node :: rest =>
    if weightsLeft < node.weight then some node
    else weightedWalk (weightsLeft - node.weight) rest

/-- Read the counter of a path and raise it by one. A path that has no counter reads zero,
and none is added for it. -/
def fetchCount (counts : Table String Nat) (path : String) : Nat × Table String Nat :=
  match counts.lookup path with
  | some count => (count, counts.insert path ((count + 1) % 2 ^ 64))
  -- `unwrap_or(0)`
  | none => (0, counts)

/-- The node of a counter value; the remainder by a zero total panics. -/
def nextInTurn (count : Nat) (nodes : List NodeEntry) : Option (Option NodeEntry) :=
  if totalWeight nodes = 0 then none
  else some (weightedWalk (count % totalWeight nodes) nodes)

/-! ## Least connections -/

variable {F : Type} [F32 F]

/-- The load of a node; a URL without a host panics. -/
def load (F : Type) [F32 F] (counts : Table String Nat) (node : NodeEntry) : Option F :=
  node.url.hostStr.map fun host =>
    -- a host without a counter has a load of one
    F32.div (F32.ofU64 ((counts.lookup host).getD 1)) (F32.ofU64 node.weight)

/-- Every node with its load. -/
def loads (F : Type) [F32 F] (counts : Table String Nat) :
    List NodeEntry → Option (List (NodeEntry × F))
  | [] => some []
  | node :: rest =>
    (load F counts node).bind fun load =>
      (loads F counts rest).map fun others => (node, load) :: others

/-- The first of the least loaded nodes. Loads that do not compare count as equal. -/
def minBy (best : NodeEntry × F) : List (NodeEntry × F) → NodeEntry × F
  | [] => best
  | next :: rest =>
    if F32.partialCmp best.2 next.2 = some .gt then minBy next rest else minBy best rest

def leastLoaded (F : Type) [F32 F] (counts : Table String Nat) (nodes : List NodeEntry) :
    Option NodeEntry :=
  match loads F counts nodes with
  | some (first :: rest) => some (minBy first rest).1
  -- an empty set panics, and so does a node without a host
  | _ => none

/-! ## Random -/

/-- The node at a drawn index; weights that cannot be drawn from panic. The sampler stays
below the number of weights. -/
def drawn (crates : Crates) (nodes : List NodeEntry) (draw : Nat) : Option NodeEntry :=
  if crates.weightedIndex (nodes.map NodeEntry.weight) then nodes[draw % nodes.length]?
  else none

/-! ## One selection -/

/-- Choose a node of the matched set for a request to a path. -/
def choose (F : Type) [F32 F] (crates : Crates) (mode : RoutingModeState) (path : String)
    (nodes : List NodeEntry) (draw : Nat) : Option (Option NodeEntry) × RoutingModeState :=
  match mode with
  | .leastConnected counts => ((leastLoaded F counts nodes).map some, mode)
  | .roundRobin counts =>
    let fetched := fetchCount counts path
    (nextInTurn fetched.1 nodes, .roundRobin fetched.2)
  | .random => ((drawn crates nodes draw).map some, mode)

/-! ## The chosen node is a matched node -/

theorem weightedWalk_mem {weightsLeft : Nat} {nodes : List NodeEntry} {node : NodeEntry}
    (h : weightedWalk weightsLeft nodes = some node) : node ∈ nodes := by
  induction nodes generalizing weightsLeft with
  | nil => simp [weightedWalk] at h
  | cons first rest ih =>
    simp only [weightedWalk] at h
    split at h
    · -- the walk is done at the first node
      cases h
      exact List.mem_cons_self ..
    · exact List.mem_cons_of_mem _ (ih h)

theorem nextInTurn_mem {count : Nat} {nodes : List NodeEntry} {node : NodeEntry}
    (h : nextInTurn count nodes = some (some node)) : node ∈ nodes := by
  unfold nextInTurn at h
  split at h
  · simp at h
  · apply weightedWalk_mem
    simpa using h

theorem minBy_mem (best : NodeEntry × F) (nodes : List (NodeEntry × F)) :
    minBy best nodes ∈ best :: nodes := by
  induction nodes generalizing best with
  | nil => exact List.mem_singleton.mpr rfl
  | cons next rest ih =>
    simp only [minBy]
    split
    · -- the next node is better
      exact List.mem_cons_of_mem _ (ih next)
    · rcases List.mem_cons.mp (ih best) with hbest | hrest
      · rw [hbest]
        exact List.mem_cons_self ..
      · exact List.mem_cons_of_mem _ (List.mem_cons_of_mem _ hrest)

theorem loads_map_fst {counts : Table String Nat} {nodes : List NodeEntry}
    {pairs : List (NodeEntry × F)} (h : loads F counts nodes = some pairs) :
    pairs.map Prod.fst = nodes := by
  induction nodes generalizing pairs with
  | nil =>
    cases h
    rfl
  | cons node rest ih =>
    obtain ⟨_, -, hrest⟩ := Option.bind_eq_some_iff.mp h
    obtain ⟨others, hothers, rfl⟩ := Option.map_eq_some_iff.mp hrest
    rw [List.map_cons, ih hothers]

theorem leastLoaded_mem {counts : Table String Nat} {nodes : List NodeEntry}
    {node : NodeEntry} (h : leastLoaded F counts nodes = some node) : node ∈ nodes := by
  unfold leastLoaded at h
  cases hloads : loads F counts nodes with
  | none => simp [hloads] at h
  | some pairs =>
    cases pairs with
    | nil => simp [hloads] at h
    | cons first rest =>
      simp only [hloads, Option.some.injEq] at h
      -- the loads go with the nodes in their order
      rw [← h, ← loads_map_fst hloads]
      exact List.mem_map_of_mem (minBy_mem first rest)

theorem drawn_mem {crates : Crates} {nodes : List NodeEntry} {draw : Nat} {node : NodeEntry}
    (h : drawn crates nodes draw = some node) : node ∈ nodes := by
  unfold drawn at h
  split at h
  · exact List.mem_of_getElem? h
  · simp at h

/-- Whatever the mode and its counters, a chosen node is one of the matched set. -/
theorem choose_mem {crates : Crates} {mode : RoutingModeState} {path : String}
    {nodes : List NodeEntry} {draw : Nat} {node : NodeEntry}
    (h : (choose F crates mode path nodes draw).1 = some (some node)) : node ∈ nodes := by
  cases mode with
  | roundRobin counts => exact nextInTurn_mem h
  | leastConnected counts =>
    have hleast : leastLoaded F counts nodes = some node := by simpa [choose] using h
    exact leastLoaded_mem hleast
  | random =>
    have hdrawn : drawn crates nodes draw = some node := by simpa [choose] using h
    exact drawn_mem hdrawn

/-! ## A node is chosen -/

/-- The walk comes to a node as long as less is left than all weigh. -/
theorem weightedWalk_isSome {weightsLeft : Nat} {nodes : List NodeEntry}
    (h : weightsLeft < (nodes.map NodeEntry.weight).sum) :
    ∃ node, weightedWalk weightsLeft nodes = some node := by
  induction nodes generalizing weightsLeft with
  | nil => simp at h
  | cons first rest ih =>
    rw [weightedWalk]
    split
    · exact ⟨first, rfl⟩
    · apply ih
      rw [List.map_cons, List.sum_cons] at h
      omega

/-- A selection that does not panic chooses a node. Where the sum of the weights wraps, it is
still no more than all weigh. -/
theorem choose_isSome {crates : Crates} {mode : RoutingModeState} {path : String}
    {nodes : List NodeEntry} {draw : Nat} {chosen : Option NodeEntry}
    (h : (choose F crates mode path nodes draw).1 = some chosen) : ∃ node, chosen = some node := by
  cases mode with
  | roundRobin counts =>
    have hturn : nextInTurn (fetchCount counts path).1 nodes = some chosen := h
    unfold nextInTurn at hturn
    split at hturn
    · cases hturn
    · next hpos =>
      -- what is left is a remainder by the sum as it wrapped
      rw [Option.some.injEq] at hturn
      rw [← hturn]
      apply weightedWalk_isSome
      have hsum : totalWeight nodes ≤ (nodes.map NodeEntry.weight).sum := Nat.mod_le ..
      exact (Nat.mod_lt _ (Nat.pos_of_ne_zero hpos)).trans_le hsum
  | leastConnected counts =>
    obtain ⟨node, -, hnode⟩ := Option.map_eq_some_iff.mp h
    exact ⟨node, hnode.symm⟩
  | random =>
    obtain ⟨node, -, hnode⟩ := Option.map_eq_some_iff.mp h
    exact ⟨node, hnode.symm⟩

end RoutingModeState

end AntelopeFirewall
