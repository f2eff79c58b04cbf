import AntelopeFirewall.Crates
import AntelopeFirewall.Library.Text
import Mathlib.Algebra.BigOperators.Group.Finset.Basic
import Mathlib.Data.Finset.Insert

/-!
# Node Lists

A configured node list becomes the set that the matching rule hands to the router. Two
pinnable entries of one list cannot share a name, and no two entries can share an origin.

- `addNode` checks one entry and adds it, `buildNodeSet` does so for a whole list,
- `NodeSet` carries what an accepted list guarantees, so that a set that breaks it cannot
  be built.
-/

namespace AntelopeFirewall

open Library

/-- One `[[push_nodes]]` or `[[get_nodes]]` table. -/
structure Node where
  name : String
  url : String
  weight : Option Nat := none
  pinnable : Bool := true
  deriving DecidableEq, Repr

/-- This charset keeps a name valid as a header value and as a query value. -/
def isValidPinnableName (name : String) : Bool :=
  name ≠ "" && name.toList.all fun c =>
    Text.isAsciiAlphanumeric c || c = '.' || c = '_' || c = '-'

/-- Routing keeps only the scheme, host and port of a node URL. -/
abbrev Origin := String × Option String × Option Nat

def Url.origin (url : Url) : Origin := (url.scheme, url.hostStr, url.portOrKnownDefault)

/-- The entries of a list so far, with the pinnable names and the origins that are taken. -/
structure NodeSet where
  entries : Finset NodeEntry
  pinnableNames : Finset String
  origins : Finset Origin
  weight_pos : ∀ node ∈ entries, 0 < node.weight
  valid_name : ∀ name ∈ pinnableNames, isValidPinnableName name = true
  name_mem : ∀ node ∈ entries, node.pinnable = true → node.name ∈ pinnableNames
  name_inj : ∀ a ∈ entries, ∀ b ∈ entries, a.pinnable = true → b.pinnable = true →
    a.name = b.name → a = b
  origin_mem : ∀ node ∈ entries, node.url.origin ∈ origins
  origin_inj : ∀ a ∈ entries, ∀ b ∈ entries, a.url.origin = b.url.origin → a = b

namespace NodeSet

/-- No entries. -/
def empty : NodeSet where
  entries := ∅
  pinnableNames := ∅
  origins := ∅
  weight_pos := by simp
  valid_name := by simp
  name_mem := by simp
  name_inj := by simp
  origin_mem := by simp
  origin_inj := by simp

/-- A key that a new entry does not share with an old one stays injective on the entries
that count. -/
theorem inj_insert {κ : Type} {entries : Finset NodeEntry} {entry : NodeEntry}
    (counts : NodeEntry → Prop) (key : NodeEntry → κ)
    (hold : ∀ a ∈ entries, ∀ b ∈ entries, counts a → counts b → key a = key b → a = b)
    (hnew : counts entry → ∀ a ∈ entries, counts a → key a ≠ key entry) :
    ∀ a ∈ insert entry entries, ∀ b ∈ insert entry entries, counts a → counts b →
      key a = key b → a = b := by
  intro a ha b hb hca hcb hab
  rcases Finset.mem_insert.mp ha with rfl | ha'
  · rcases Finset.mem_insert.mp hb with rfl | hb'
    · rfl
    · exact absurd hab.symm (hnew hca b hb' hcb)
  · rcases Finset.mem_insert.mp hb with rfl | hb'
    · exact absurd hab (hnew hcb a ha' hca)
    · exact hold a ha' b hb' hca hcb hab

/-- Add an entry that passed the checks. -/
def add (set : NodeSet) (entry : NodeEntry) (hweight : 0 < entry.weight)
    (hname : entry.pinnable = true →
      entry.name ∉ set.pinnableNames ∧ isValidPinnableName entry.name = true)
    (horigin : entry.url.origin ∉ set.origins) : NodeSet where
  entries := insert entry set.entries
  pinnableNames :=
    if entry.pinnable then insert entry.name set.pinnableNames else set.pinnableNames
  origins := insert entry.url.origin set.origins
  weight_pos := by
    intro node hnode
    rcases Finset.mem_insert.mp hnode with rfl | hnode
    · exact hweight
    · exact set.weight_pos node hnode
  valid_name := by
    intro name hmem
    split at hmem
    · next hpinnable =>
      rcases Finset.mem_insert.mp hmem with rfl | hmem
      · exact (hname hpinnable).2
      · exact set.valid_name name hmem
    · exact set.valid_name name hmem
  name_mem := by
    intro node hnode hpinnable
    rcases Finset.mem_insert.mp hnode with rfl | hnode
    · rw [if_pos hpinnable]
      exact Finset.mem_insert_self ..
    · have hold := set.name_mem node hnode hpinnable
      split
      · exact Finset.mem_insert_of_mem hold
      · exact hold
  name_inj := by
    -- the name of a pinnable entry is taken, so the new one has another
    apply inj_insert (fun node => node.pinnable = true) NodeEntry.name set.name_inj
    intro hpinnable a ha hapinnable hsame
    apply (hname hpinnable).1
    rw [← hsame]
    exact set.name_mem a ha hapinnable
  origin_mem := by
    intro node hnode
    rcases Finset.mem_insert.mp hnode with rfl | hnode
    · exact Finset.mem_insert_self ..
    · exact Finset.mem_insert_of_mem (set.origin_mem node hnode)
  origin_inj := by
    intro a ha b hb
    -- every entry has an origin, so all of them count
    apply inj_insert (fun _ => True) (fun node => node.url.origin) ?_ ?_ a ha b hb trivial trivial
    · intro a ha b hb _ _
      exact set.origin_inj a ha b hb
    · intro _ a ha _ hsame
      apply horigin
      show entry.url.origin ∈ set.origins
      rw [← hsame]
      exact set.origin_mem a ha

/-- Entries are compared by URL in the source; on the entries of one list that is equality. -/
theorem eq_iff_url (set : NodeSet) {a b : NodeEntry} (ha : a ∈ set.entries)
    (hb : b ∈ set.entries) : a = b ↔ a.url = b.url := by
  constructor
  · intro h
    rw [h]
  · intro hurl
    -- entries with one URL have one origin
    apply set.origin_inj a ha b hb
    rw [hurl]

end NodeSet

/-- Check one entry of a list and add it. -/
def addNode (crates : Crates) (set : NodeSet) (node : Node) : Except String NodeSet :=
  let weight := node.weight.getD 1
  if hweight : weight = 0 then
    .error ("Weight for node '" ++ node.name ++ "' must be greater than 0.")
  else if hunique : node.pinnable = true ∧ node.name ∈ set.pinnableNames then
    .error ("Duplicate name for pinnable node '" ++ node.name ++
      "'. Pinnable names must be unique.")
  else if hvalid : node.pinnable = true ∧ ¬ isValidPinnableName node.name = true then
    .error ("Name for pinnable node '" ++ node.name ++
      "' can only carry letters, digits, and the characters . _ -")
  else
    match crates.parseUrl node.url with
    | none => .error ("Could not parse node '" ++ node.url ++ "' as url.")
    | some url =>
      if horigin : url.origin ∈ set.origins then
        .error ("Duplicate origin for node '" ++ node.name ++
          "'. Each scheme, host and port must appear once per list.")
      -- `insert` of an entry whose URL is there already
      else if ∃ entry ∈ set.entries, entry.url = url then
        .error ("Duplicate url for node '" ++ node.name ++
          "'. Each url must appear once per list.")
      else
        .ok (set.add ⟨url, weight, node.name, node.pinnable⟩ (Nat.pos_of_ne_zero hweight)
          (fun hpinnable => ⟨fun hmem => hunique ⟨hpinnable, hmem⟩,
            Decidable.of_not_not fun hinvalid => hvalid ⟨hpinnable, hinvalid⟩⟩) horigin)

/-- Turn a configured node list into a node set. -/
def buildNodeSet (crates : Crates) (nodes : List Node) : Except String NodeSet :=
  nodes.foldlM (addNode crates) .empty

/-- An entry that passes the checks is accepted. The last of them cannot fail: a URL that is
there already has its origin there already. -/
theorem addNode_accept {crates : Crates} {set : NodeSet} {node : Node} {url : Url}
    (hweight : 0 < node.weight.getD 1)
    (hname : node.pinnable = true →
      node.name ∉ set.pinnableNames ∧ isValidPinnableName node.name = true)
    (hurl : crates.parseUrl node.url = some url) (horigin : url.origin ∉ set.origins) :
    addNode crates set node =
      .ok (set.add ⟨url, node.weight.getD 1, node.name, node.pinnable⟩ hweight hname horigin) := by
  have hunique : ¬ (node.pinnable = true ∧ node.name ∈ set.pinnableNames) :=
    fun h => (hname h.1).1 h.2
  have hvalid : ¬ (node.pinnable = true ∧ ¬ isValidPinnableName node.name = true) :=
    fun h => h.2 (hname h.1).2
  have hnew : ¬ ∃ entry ∈ set.entries, entry.url = url := by
    intro hthere
    obtain ⟨entry, hentry, rfl⟩ := hthere
    exact horigin (set.origin_mem entry hentry)
  unfold addNode
  rw [dif_neg hweight.ne', dif_neg hunique, dif_neg hvalid]
  simp only [hurl, dif_neg horigin, if_neg hnew]

/-- An accepted entry was parsed, and it is all that is new. -/
theorem addNode_ok {crates : Crates} {set added : NodeSet} {node : Node}
    (h : addNode crates set node = .ok added) :
    ∃ url, crates.parseUrl node.url = some url ∧
      added.entries = insert ⟨url, node.weight.getD 1, node.name, node.pinnable⟩ set.entries := by
  -- six checks return early with their errors, in the order of the source
  unfold addNode at h
  dsimp only at h
  split at h
  · cases h
  · split at h
    · cases h
    · split at h
      · cases h
      · split at h
        · cases h
        · next url hurl =>
          split at h
          · cases h
          · split at h
            · cases h
            · cases h
              exact ⟨url, hurl, rfl⟩

/-- The entry that a table of the configuration stands for. -/
def Node.entry (crates : Crates) (node : Node) : Option NodeEntry :=
  (crates.parseUrl node.url).map fun url => ⟨url, node.weight.getD 1, node.name, node.pinnable⟩

/-- Inserting an entry adds at most its weight. -/
theorem sum_weight_insert_le (entries : Finset NodeEntry) (entry : NodeEntry) :
    ∑ node ∈ insert entry entries, node.weight ≤
      entry.weight + ∑ node ∈ entries, node.weight := by
  by_cases hmem : entry ∈ entries
  · rw [Finset.insert_eq_of_mem hmem]
    exact Nat.le_add_left ..
  · rw [Finset.sum_insert hmem]

/-- Adding a list to some entries adds the entries of its tables, and no more weight than
they have. -/
theorem foldlM_addNode {crates : Crates} {nodes : List Node} {set added : NodeSet}
    (h : nodes.foldlM (addNode crates) set = .ok added) :
    (∀ entry, entry ∈ added.entries ↔
      entry ∈ set.entries ∨ ∃ node ∈ nodes, node.entry crates = some entry) ∧
    ∑ entry ∈ added.entries, entry.weight ≤
      (∑ entry ∈ set.entries, entry.weight) + (nodes.map fun node => node.weight.getD 1).sum := by
  -- Induction on the nodes: each adds its entry to the set that the ones before it made.
  induction nodes generalizing set with
  | nil =>
    cases h
    simp
  | cons node nodes ih =>
    rw [List.foldlM_cons] at h
    cases hstep : addNode crates set node with
    | error text =>
      rw [hstep] at h
      cases h
    | ok next =>
      rw [hstep] at h
      obtain ⟨hmem, hsum⟩ := ih h
      obtain ⟨url, hurl, hentries⟩ := addNode_ok hstep
      have hentry : node.entry crates =
          some ⟨url, node.weight.getD 1, node.name, node.pinnable⟩ := by
        unfold Node.entry
        rw [hurl, Option.map_some]
      rw [hentries] at hmem hsum
      constructor
      -- the entry of this node, or one of the nodes before or after it
      · intro entry
        rw [hmem, Finset.mem_insert]
        simp only [List.mem_cons, exists_eq_or_imp, hentry, Option.some.injEq]
        rw [eq_comm, or_comm (a := _ = _), or_assoc]
      · -- an entry that was there already adds no weight
        have hinsert := sum_weight_insert_le set.entries
          ⟨url, node.weight.getD 1, node.name, node.pinnable⟩
        rw [List.map_cons, List.sum_cons]
        dsimp only at hinsert
        omega

/-- The entries of an accepted list are those of its tables. -/
theorem mem_buildNodeSet {crates : Crates} {nodes : List Node} {set : NodeSet}
    (h : buildNodeSet crates nodes = .ok set) {entry : NodeEntry} :
    entry ∈ set.entries ↔ ∃ node ∈ nodes, node.entry crates = some entry := by
  rw [(foldlM_addNode h).1 entry]
  simp [NodeSet.empty]

/-- The entries of an accepted list weigh no more than its tables. -/
theorem sum_weight_buildNodeSet {crates : Crates} {nodes : List Node} {set : NodeSet}
    (h : buildNodeSet crates nodes = .ok set) :
    ∑ entry ∈ set.entries, entry.weight ≤ (nodes.map fun node => node.weight.getD 1).sum := by
  simpa [NodeSet.empty] using (foldlM_addNode h).2

/-- The URL of every entry of an accepted list was parsed. -/
theorem parsed_of_buildNodeSet {crates : Crates} {nodes : List Node} {set : NodeSet}
    (h : buildNodeSet crates nodes = .ok set) :
    ∀ entry ∈ set.entries, ∃ text, crates.parseUrl text = some entry.url := by
  intro entry hentry
  obtain ⟨node, -, hnode⟩ := (mem_buildNodeSet h).mp hentry
  obtain ⟨url, hurl, rfl⟩ := Option.map_eq_some_iff.mp hnode
  exact ⟨node.url, hurl⟩

/-- A list of one good entry is accepted. -/
theorem buildNodeSet_singleton {crates : Crates} {node : Node} {url : Url}
    (hweight : 0 < node.weight.getD 1)
    (hname : node.pinnable = true → isValidPinnableName node.name = true)
    (hurl : crates.parseUrl node.url = some url) :
    (buildNodeSet crates [node]).toOption.map NodeSet.entries =
      some {⟨url, node.weight.getD 1, node.name, node.pinnable⟩} := by
  have hfresh : node.pinnable = true →
      node.name ∉ NodeSet.empty.pinnableNames ∧ isValidPinnableName node.name = true :=
    fun hpinnable => ⟨Finset.notMem_empty _, hname hpinnable⟩
  have hadded := addNode_accept hweight hfresh hurl (Finset.notMem_empty _)
  unfold buildNodeSet
  rw [List.foldlM_cons, hadded]
  rfl

/-- A list that is accepted with some entries has a node set with them. -/
theorem buildNodeSet_entries {crates : Crates} {nodes : List Node} {entries : Finset NodeEntry}
    (h : (buildNodeSet crates nodes).toOption.map NodeSet.entries = some entries) :
    ∃ set, buildNodeSet crates nodes = .ok set ∧ set.entries = entries := by
  cases hset : buildNodeSet crates nodes with
  | error text => simp [hset, Except.toOption] at h
  | ok set => exact ⟨set, rfl, by simpa [hset, Except.toOption] using h⟩

end AntelopeFirewall
