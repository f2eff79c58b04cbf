import AntelopeFirewall.Routing
import AntelopeFirewall.Library.Slots

/-!
# The Weighted Walk

The round robin reads a counter, takes it modulo the weights of the matched set and walks over
the set until what is left is less than the weight of a node. The walk ends at the node that
owns the slot, for the slots as `Library.Slots` deals them.

- `foldNodes` is the fold as it is written, with what a subtraction below zero falls back to,
- `weightedWalk_of_covers` says where the walk ends, `count_weightedWalk` how often it ends at
  a node,
- `nextInTurn_partitions` puts these together for the counter.
-/

namespace AntelopeFirewall.RoutingModeState

open Library Library.Slots

/-! ## The fold -/

/-- A subtraction that fails below zero. -/
def checkedSub (a b : Nat) : Option Nat := if b ≤ a then some (a - b) else none

/-- The fold of the round robin: the weights that are left and the node that was found. -/
def foldNodes (fallback : Nat) : Nat × Option NodeEntry → List NodeEntry → Nat × Option NodeEntry
  | found, [] => found
  | (weightsLeft, found), node :: rest =>
    if weightsLeft < node.weight then (0, some node)
    else foldNodes fallback ((checkedSub weightsLeft node.weight).getD fallback, found) rest

/-- The fold never subtracts below zero: whatever it falls back to, it finds the node of the
walk. -/
theorem foldNodes_eq_weightedWalk (fallback weightsLeft : Nat) (nodes : List NodeEntry) :
    (foldNodes fallback (weightsLeft, none) nodes).2 = weightedWalk weightsLeft nodes := by
  induction nodes generalizing weightsLeft with
  | nil => rfl
  | cons node rest ih =>
    rw [foldNodes, weightedWalk]
    split
    · rfl
    · next hleft =>
      -- the comparison that failed is the one that the subtraction makes
      have hsub : checkedSub weightsLeft node.weight = some (weightsLeft - node.weight) :=
        if_pos (Nat.not_lt.mp hleft)
      rw [hsub, Option.getD_some]
      exact ih _

/-! ## Where the walk ends -/

/-- **The walk ends at the node that owns the slot.** -/
theorem weightedWalk_of_covers {nodes : List NodeEntry} {i weightsLeft : Nat}
    (h : Covers NodeEntry.weight nodes i weightsLeft) :
    weightedWalk weightsLeft nodes = nodes[i]? := by
  induction nodes generalizing i weightsLeft with
  | nil => exact absurd h not_covers_nil
  | cons node rest ih =>
    rw [weightedWalk]
    cases i with
    | zero =>
      rw [if_pos (covers_cons_zero.mp h)]
      rfl
    | succ i =>
      obtain ⟨hbehind, hcovers⟩ := covers_cons_succ.mp h
      rw [if_neg (Nat.not_lt.mpr hbehind), List.getElem?_cons_succ]
      exact ih hcovers

/-- Out of all slots, a node is found for as many as its weight, every time it is in the list. -/
theorem count_weightedWalk (nodes : List NodeEntry) (node : NodeEntry) :
    Nat.count (fun slot => weightedWalk slot nodes = some node) (total NodeEntry.weight nodes) =
      nodes.count node * node.weight := by
  induction nodes with
  | nil => rw [total_nil, Nat.count_zero, List.count_nil, Nat.zero_mul]
  | cons first rest ih =>
    -- the slots of the first node, and those behind them
    have hfirst : ∀ slot < first.weight, weightedWalk slot (first :: rest) = some first := by
      intro slot hslot
      rw [weightedWalk, if_pos hslot]
    have hbehind : (fun slot => weightedWalk (first.weight + slot) (first :: rest) = some node) =
        fun slot => weightedWalk slot rest = some node := by
      funext slot
      rw [weightedWalk, if_neg (by omega), Nat.add_sub_cancel_left]
    rw [total_cons, Nat.count_add]
    simp only [hbehind, ih]
    by_cases hsame : first = node
    · subst hsame
      rw [Nat.count_of_forall hfirst, List.count_cons_self, Nat.succ_mul, Nat.add_comm]
    · have hother : Nat.count (fun slot => weightedWalk slot (first :: rest) = some node)
          first.weight = 0 := by
        apply Nat.count_of_forall_not
        intro slot hslot hfound
        rw [hfirst slot hslot, Option.some.injEq] at hfound
        exact hsame hfound
      rw [hother, List.count_cons_of_ne hsame, Nat.zero_add]

/-! ## The turns of the counter -/

section Counter

variable {nodes : List NodeEntry}

/-- The counter value is a turn of the node at a place. -/
def HasTurn (nodes : List NodeEntry) (i count : Nat) : Prop :=
  Covers NodeEntry.weight nodes i (count % total NodeEntry.weight nodes)

instance (nodes : List NodeEntry) (i count : Nat) : Decidable (HasTurn nodes i count) :=
  inferInstanceAs (Decidable (Covers _ _ _ _))

/-- A set with a node and with positive weights has slots. -/
theorem total_pos (hne : nodes ≠ []) (hpos : ∀ node ∈ nodes, 0 < node.weight) :
    0 < total NodeEntry.weight nodes := by
  cases nodes with
  | nil => exact absurd rfl hne
  | cons node rest =>
    rw [total_cons]
    exact Nat.add_pos_left (hpos node (List.mem_cons_self ..)) _

/-- While the weights add up without a wrap, the counter goes round the slots. -/
theorem nextInTurn_eq (hslots : 0 < total NodeEntry.weight nodes)
    (hsum : totalWeight nodes = total NodeEntry.weight nodes) (count : Nat) :
    nextInTurn count nodes = some (weightedWalk (count % total NodeEntry.weight nodes) nodes) := by
  unfold nextInTurn
  rw [hsum, if_neg hslots.ne']

/-- **The weighted walk partitions the counter**: every counter value is the turn of one place,
whose node the fold chooses whatever it falls back to, and in as many consecutive values as the
weights add up to every place has as many turns as its weight. A set has a node in one place
only; in a list that has it in more, it is chosen that many times more often. -/
theorem nextInTurn_partitions (hne : nodes ≠ []) (hpos : ∀ node ∈ nodes, 0 < node.weight)
    (htotal : total NodeEntry.weight nodes < 2 ^ 64) :
    (∀ count, ∃! i, HasTurn nodes i count) ∧
      (∀ count i, HasTurn nodes i count →
        ∃ node, nodes[i]? = some node ∧ nextInTurn count nodes = some (some node)) ∧
      (∀ count fallback, nextInTurn count nodes =
        some (foldNodes fallback (count % totalWeight nodes, none) nodes).2) ∧
      (∀ start i node, nodes[i]? = some node →
        ((Finset.Ico start (start + total NodeEntry.weight nodes)).filter
          (HasTurn nodes i)).card = node.weight) ∧
      ∀ start node,
        ((Finset.Ico start (start + total NodeEntry.weight nodes)).filter
          fun count => nextInTurn count nodes = some (some node)).card =
            nodes.count node * node.weight := by
  have hslots := total_pos hne hpos
  have hsum : totalWeight nodes = total NodeEntry.weight nodes := Nat.mod_eq_of_lt htotal
  have hturn := nextInTurn_eq hslots hsum
  refine ⟨?_, ?_, ?_, ?_, ?_⟩
  · intro count
    exact existsUnique_covers (Nat.mod_lt count hslots)
  · intro count i hi
    obtain ⟨node, hnode⟩ := Covers.exists_getElem? hi
    refine ⟨node, hnode, ?_⟩
    rw [hturn, weightedWalk_of_covers hi, hnode]
  · intro count fallback
    rw [foldNodes_eq_weightedWalk, hturn, hsum]
  · intro start i node hnode
    exact card_covers_mod hnode start
  · intro start node
    -- the choice depends on the slot alone, and a whole turn meets every slot once
    simp only [hturn, Option.some.injEq]
    rw [card_mod fun slot => weightedWalk slot nodes = some node, count_weightedWalk]

/-- Two nodes with the weights two and one. -/
def twoOfThree : List NodeEntry :=
  [⟨⟨"https", true, "", some "one", none, "/", none, none⟩, 2, "get_one", true⟩,
    ⟨⟨"https", true, "", some "two", none, "/", none, none⟩, 1, "get_two", true⟩]

theorem nextInTurn_partitions_twoOfThree :
    (∀ count, ∃! i, HasTurn twoOfThree i count) ∧
      ∀ start i node, twoOfThree[i]? = some node →
        ((Finset.Ico start (start + 3)).filter (HasTurn twoOfThree i)).card = node.weight := by
  have hpos : ∀ node ∈ twoOfThree, 0 < node.weight := by decide
  obtain ⟨hunique, -, -, hshare, -⟩ :=
    nextInTurn_partitions (by decide) hpos (by decide)
  exact ⟨hunique, hshare⟩

end Counter

end AntelopeFirewall.RoutingModeState
