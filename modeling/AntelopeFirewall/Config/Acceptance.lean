import AntelopeFirewall.Config.NodeSet
import Mathlib.Data.List.Forall2
import Mathlib.Data.List.Nodup

/-!
# Which Node Lists Are Accepted

`buildNodeSet` goes through a list once and checks every table against the names and origins
that the tables before it have taken. What it accepts can be said without the pass.

- `WellFormed` is a list that none of the checks has anything against,
- `Fits` is what one step asks of a table, and `addNode_step` what it does to the set,
- `foldlM_addNode_isOk_iff` carries both through the pass, from any set,
- `buildNodeSet_accepts` says what is accepted, and that an accepted list loses no table.
-/

namespace AntelopeFirewall

open Library

variable {crates : Crates}

/-! ## Well-formed lists -/

/-- The origin of a table, if its URL can be parsed. -/
def Node.origin (crates : Crates) (node : Node) : Option Origin :=
  (crates.parseUrl node.url).map Url.origin

theorem Node.origin_of_parsed {node : Node} {url : Url}
    (h : crates.parseUrl node.url = some url) : node.origin crates = some url.origin := by
  unfold Node.origin
  rw [h, Option.map_some]

/-- The weights that are given are not zero, every URL can be parsed, no two tables have one
origin, and the pinnable ones have different names that can be written in a header and in a
query. -/
structure WellFormed (crates : Crates) (nodes : List Node) : Prop where
  weights : ∀ node ∈ nodes, node.weight ≠ some 0
  parsed : ∀ node ∈ nodes, ∃ url, crates.parseUrl node.url = some url
  origins : (nodes.map (Node.origin crates)).Nodup
  names : ((nodes.filter Node.pinnable).map Node.name).Nodup
  charset : ∀ node ∈ nodes, node.pinnable = true → node.name ≠ "" ∧
    ∀ c ∈ node.name.toList, Text.isAsciiAlphanumeric c = true ∨ c = '.' ∨ c = '_' ∨ c = '-'

theorem isValidPinnableName_iff {name : String} :
    isValidPinnableName name = true ↔ name ≠ "" ∧
      ∀ c ∈ name.toList, Text.isAsciiAlphanumeric c = true ∨ c = '.' ∨ c = '_' ∨ c = '-' := by
  simp [isValidPinnableName, or_assoc]

theorem weight_pos_iff {node : Node} : 0 < node.weight.getD 1 ↔ node.weight ≠ some 0 := by
  cases node.weight with
  | none => simp
  | some weight => simp [Nat.pos_iff_ne_zero]

/-- Whether a list is well formed does not depend on its order. -/
theorem WellFormed.perm {nodes other : List Node} (h : WellFormed crates nodes)
    (hperm : nodes.Perm other) : WellFormed crates other where
  weights node hnode := h.weights node (hperm.mem_iff.mpr hnode)
  parsed node hnode := h.parsed node (hperm.mem_iff.mpr hnode)
  origins := (hperm.map _).nodup_iff.mp h.origins
  names := ((hperm.filter _).map _).nodup_iff.mp h.names
  charset node hnode := h.charset node (hperm.mem_iff.mpr hnode)

/-! ## One step of the pass -/

/-- What a table has to be, next to the tables before it. -/
structure Fits (crates : Crates) (set : NodeSet) (node : Node) : Prop where
  weight : 0 < node.weight.getD 1
  name : node.pinnable = true →
    node.name ∉ set.pinnableNames ∧ isValidPinnableName node.name = true
  origin : ∃ url, crates.parseUrl node.url = some url ∧ url.origin ∉ set.origins

variable {set added : NodeSet} {node : Node}

theorem Fits.accepted (h : Fits crates set node) :
    ∃ added, addNode crates set node = .ok added := by
  obtain ⟨url, hurl, horigin⟩ := h.origin
  exact ⟨_, addNode_accept h.weight h.name hurl horigin⟩

/-- An accepted table fits, and it takes its name, if it is pinnable, and its origin. -/
theorem addNode_step (h : addNode crates set node = .ok added) :
    Fits crates set node ∧
    (∀ name, name ∈ added.pinnableNames ↔
      name ∈ set.pinnableNames ∨ node.pinnable = true ∧ name = node.name) ∧
    ∀ origin, origin ∈ added.origins ↔
      origin ∈ set.origins ∨ node.origin crates = some origin := by
  have hfits : Fits crates set node := by
    unfold addNode at h
    dsimp only at h
    -- the checks in the order of the source, each of which returns early
    split at h
    · cases h
    · next hweight =>
      split at h
      · cases h
      · next hunique =>
        split at h
        · cases h
        · next hvalid =>
          split at h
          · cases h
          · next url hurl =>
            split at h
            · cases h
            · next horigin =>
              refine ⟨Nat.pos_of_ne_zero hweight, ?_, url, hurl, horigin⟩
              intro hpinnable
              exact ⟨fun hmem => hunique ⟨hpinnable, hmem⟩,
                Decidable.of_not_not fun hinvalid => hvalid ⟨hpinnable, hinvalid⟩⟩
  refine ⟨hfits, ?_⟩
  obtain ⟨url, hurl, horigin⟩ := hfits.origin
  rw [addNode_accept hfits.weight hfits.name hurl horigin] at h
  cases h
  constructor
  · intro name
    unfold NodeSet.add
    by_cases hpinnable : node.pinnable = true
    · simp [hpinnable, or_comm]
    · simp [hpinnable]
  · intro origin
    rw [Node.origin_of_parsed hurl]
    unfold NodeSet.add
    rw [Finset.mem_insert, Option.some.injEq, or_comm, eq_comm]

/-! ## The whole pass -/

/-- No table of a list has a name or an origin that is taken. -/
structure Untaken (crates : Crates) (set : NodeSet) (nodes : List Node) : Prop where
  names : ∀ node ∈ nodes, node.pinnable = true → node.name ∉ set.pinnableNames
  origins : ∀ node ∈ nodes, ∀ origin, node.origin crates = some origin → origin ∉ set.origins

/-- What the checks ask of a table for itself. -/
structure Node.Valid (crates : Crates) (node : Node) : Prop where
  weight : node.weight ≠ some 0
  parsed : ∃ url, crates.parseUrl node.url = some url
  name : node.pinnable = true → isValidPinnableName node.name = true

/-- No table of a list takes what a table takes. -/
structure Node.Apart (crates : Crates) (node : Node) (rest : List Node) : Prop where
  origins : ∀ other ∈ rest, other.origin crates ≠ node.origin crates
  names : node.pinnable = true → ∀ other ∈ rest, other.pinnable = true → other.name ≠ node.name

/-- A list is well formed when its first table is valid, the others keep apart from it, and they
are well formed. -/
theorem wellFormed_cons {rest : List Node} :
    WellFormed crates (node :: rest) ↔
      node.Valid crates ∧ node.Apart crates rest ∧ WellFormed crates rest := by
  -- the names are those of the pinnable tables alone
  have hnames : ((node :: rest).filter Node.pinnable |>.map Node.name).Nodup ↔
      (node.pinnable = true → ∀ other ∈ rest, other.pinnable = true → other.name ≠ node.name) ∧
        ((rest.filter Node.pinnable).map Node.name).Nodup := by
    by_cases hpinnable : node.pinnable = true
    · rw [List.filter_cons_of_pos hpinnable, List.map_cons, List.nodup_cons]
      simp [hpinnable]
    · rw [List.filter_cons_of_neg hpinnable]
      simp [hpinnable]
  have horigins : ((node :: rest).map (Node.origin crates)).Nodup ↔
      (∀ other ∈ rest, other.origin crates ≠ node.origin crates) ∧
        (rest.map (Node.origin crates)).Nodup := by
    rw [List.map_cons, List.nodup_cons]
    simp
  constructor
  · rintro ⟨hweights, hparsed, horigin, hname, hcharset⟩
    obtain ⟨hfresh, horigin⟩ := horigins.mp horigin
    obtain ⟨hother, hname⟩ := hnames.mp hname
    obtain ⟨hweight, hweights⟩ := List.forall_mem_cons.mp hweights
    obtain ⟨hurl, hparsed⟩ := List.forall_mem_cons.mp hparsed
    obtain ⟨hvalid, hcharset⟩ := List.forall_mem_cons.mp hcharset
    exact ⟨⟨hweight, hurl, fun hpinnable => isValidPinnableName_iff.mpr (hvalid hpinnable)⟩,
      ⟨hfresh, hother⟩, ⟨hweights, hparsed, horigin, hname, hcharset⟩⟩
  · rintro ⟨hvalid, hapart, hrest⟩
    exact
      { weights := List.forall_mem_cons.mpr ⟨hvalid.weight, hrest.weights⟩
        parsed := List.forall_mem_cons.mpr ⟨hvalid.parsed, hrest.parsed⟩
        origins := horigins.mpr ⟨hapart.origins, hrest.origins⟩
        names := hnames.mpr ⟨hapart.names, hrest.names⟩
        charset := List.forall_mem_cons.mpr
          ⟨fun hpinnable => isValidPinnableName_iff.mp (hvalid.name hpinnable), hrest.charset⟩ }

theorem untaken_cons {rest : List Node} :
    Untaken crates set (node :: rest) ↔ Untaken crates set [node] ∧ Untaken crates set rest := by
  constructor
  · rintro ⟨hnames, horigins⟩
    obtain ⟨hname, hnames⟩ := List.forall_mem_cons.mp hnames
    obtain ⟨horigin, horigins⟩ := List.forall_mem_cons.mp horigins
    exact ⟨⟨List.forall_mem_singleton.mpr hname, List.forall_mem_singleton.mpr horigin⟩,
      ⟨hnames, horigins⟩⟩
  · rintro ⟨hnode, hrest⟩
    exact ⟨List.forall_mem_cons.mpr ⟨List.forall_mem_singleton.mp hnode.names, hrest.names⟩,
      List.forall_mem_cons.mpr ⟨List.forall_mem_singleton.mp hnode.origins, hrest.origins⟩⟩

/-- A table fits a set when it is valid and takes nothing that is taken. -/
theorem fits_iff : Fits crates set node ↔ node.Valid crates ∧ Untaken crates set [node] := by
  constructor
  · rintro ⟨hweight, hname, url, hurl, hfresh⟩
    have hown : ∀ origin, node.origin crates = some origin → origin ∉ set.origins := by
      intro origin hsome
      rw [Node.origin_of_parsed hurl, Option.some.injEq] at hsome
      rwa [← hsome]
    exact ⟨⟨weight_pos_iff.mp hweight, ⟨url, hurl⟩, fun hpinnable => (hname hpinnable).2⟩,
      ⟨List.forall_mem_singleton.mpr fun hpinnable => (hname hpinnable).1,
        List.forall_mem_singleton.mpr hown⟩⟩
  · rintro ⟨⟨hweight, ⟨url, hurl⟩, hvalid⟩, hnames, horigins⟩
    have hname := List.forall_mem_singleton.mp hnames
    have hfresh := List.forall_mem_singleton.mp horigins url.origin (Node.origin_of_parsed hurl)
    exact ⟨weight_pos_iff.mpr hweight, fun hpinnable => ⟨hname hpinnable, hvalid hpinnable⟩,
      url, hurl, hfresh⟩

/-- After a step, a list takes nothing that is taken when it took nothing before, and nothing
that this step has taken. -/
theorem untaken_of_step {rest : List Node} (h : addNode crates set node = .ok added) :
    Untaken crates added rest ↔ Untaken crates set rest ∧ node.Apart crates rest := by
  obtain ⟨hfits, hnames, horigins⟩ := addNode_step h
  obtain ⟨url, hurl, -⟩ := hfits.origin
  have horigin := Node.origin_of_parsed hurl
  constructor
  · intro huntaken
    refine ⟨⟨?_, ?_⟩, ⟨?_, ?_⟩⟩
    · -- what was taken before is taken after the step
      intro other hother hpinnable hmem
      exact huntaken.names other hother hpinnable ((hnames _).mpr (.inl hmem))
    · intro other hother taken hsome hmem
      exact huntaken.origins other hother taken hsome ((horigins _).mpr (.inl hmem))
    · -- what the step has taken is taken as well
      intro other hother hsame
      exact huntaken.origins other hother url.origin (hsame.trans horigin)
        ((horigins _).mpr (.inr horigin))
    · intro hpinnable other hother hother' hsame
      exact huntaken.names other hother hother' ((hnames _).mpr (.inr ⟨hpinnable, hsame⟩))
  · rintro ⟨hbefore, hapart⟩
    -- nothing else is taken
    constructor
    · intro other hother hpinnable htaken
      rcases (hnames _).mp htaken with hmem | ⟨hown, hsame⟩
      · exact hbefore.names other hother hpinnable hmem
      · exact hapart.names hown other hother hpinnable hsame
    · intro other hother taken hsome htaken
      rcases (horigins _).mp htaken with hmem | hown
      · exact hbefore.origins other hother taken hsome hmem
      · exact hapart.origins other hother (hsome.trans hown.symm)

/-- The pass over a list is its first step and the pass over the others. -/
theorem foldlM_addNode_cons_isOk {rest : List Node} :
    (∃ last, (node :: rest).foldlM (addNode crates) set = .ok last) ↔
      ∃ next, addNode crates set node = .ok next ∧
        ∃ last, rest.foldlM (addNode crates) next = .ok last := by
  rw [List.foldlM_cons]
  cases hstep : addNode crates set node with
  | error text =>
    constructor
    · rintro ⟨last, h⟩
      cases h
    · rintro ⟨next, h, -⟩
      cases h
  | ok next =>
    constructor
    · intro h
      exact ⟨next, rfl, h⟩
    · rintro ⟨other, h, hlast⟩
      cases h
      exact hlast

/-- **Pass**: from a set, a list is accepted when it is well formed and takes nothing that is
taken. -/
theorem foldlM_addNode_isOk_iff {nodes : List Node} {set : NodeSet} :
    (∃ added, nodes.foldlM (addNode crates) set = .ok added) ↔
      WellFormed crates nodes ∧ Untaken crates set nodes := by
  induction nodes generalizing set with
  | nil =>
    refine iff_of_true ⟨set, rfl⟩ ⟨⟨?_, ?_, List.nodup_nil, List.nodup_nil, ?_⟩, ?_, ?_⟩ <;>
      simp
  | cons node rest ih =>
    rw [foldlM_addNode_cons_isOk, wellFormed_cons, untaken_cons]
    constructor
    · rintro ⟨next, hstep, hlast⟩
      obtain ⟨hvalid, hnew⟩ := fits_iff.mp (addNode_step hstep).1
      obtain ⟨hrest, huntaken⟩ := ih.mp hlast
      -- what this step has taken no later table has
      obtain ⟨hbefore, hapart⟩ := (untaken_of_step hstep).mp huntaken
      exact ⟨⟨hvalid, hapart, hrest⟩, hnew, hbefore⟩
    · rintro ⟨⟨hvalid, hapart, hrest⟩, hnew, hbefore⟩
      obtain ⟨next, hstep⟩ := (fits_iff.mpr ⟨hvalid, hnew⟩).accepted
      exact ⟨next, hstep, ih.mpr ⟨hrest, (untaken_of_step hstep).mpr ⟨hbefore, hapart⟩⟩⟩

/-! ## No table is lost -/

/-- The entries of tables that can all be parsed, in their order. -/
theorem exists_entries {nodes : List Node}
    (h : ∀ node ∈ nodes, ∃ url, crates.parseUrl node.url = some url) :
    ∃ entries : List NodeEntry,
      List.Forall₂ (fun node entry => node.entry crates = some entry) nodes entries := by
  induction nodes with
  | nil => exact ⟨[], .nil⟩
  | cons node rest ih =>
    obtain ⟨⟨url, hurl⟩, hrest⟩ := List.forall_mem_cons.mp h
    obtain ⟨entries, hentries⟩ := ih hrest
    refine ⟨⟨url, node.weight.getD 1, node.name, node.pinnable⟩ :: entries, .cons ?_ hentries⟩
    unfold Node.entry
    rw [hurl, Option.map_some]

/-- A table has the origin of its entry. -/
theorem map_origin_of_entries {nodes : List Node} {entries : List NodeEntry}
    (h : List.Forall₂ (fun node entry => node.entry crates = some entry) nodes entries) :
    nodes.map (Node.origin crates) = entries.map fun entry => some entry.url.origin := by
  induction h with
  | nil => rfl
  | cons hentry _ ih =>
    obtain ⟨url, hurl, rfl⟩ := Option.map_eq_some_iff.mp hentry
    rw [List.map_cons, List.map_cons, ih, Node.origin_of_parsed hurl]

/-- What stands in the second of two related lists is related to something in the first. -/
theorem mem_entries_iff {nodes : List Node} {entries : List NodeEntry}
    (h : List.Forall₂ (fun node entry => node.entry crates = some entry) nodes entries)
    {entry : NodeEntry} :
    entry ∈ entries ↔ ∃ node ∈ nodes, node.entry crates = some entry := by
  induction h with
  | nil => simp
  | cons hentry _ ih =>
    rw [List.mem_cons, ih]
    simp only [List.mem_cons, exists_eq_or_imp, hentry, Option.some.injEq]
    rw [eq_comm]

/-! ## The error that is never returned -/

/-- The last error text of `build_node_set`. -/
def duplicateUrlText (name : String) : String :=
  "Duplicate url for node '" ++ name ++ "'. Each url must appear once per list."

/-- The error of a step is that of one of the checks before the last: a URL that is there
already has its origin there already. -/
theorem addNode_error {text : String} (h : addNode crates set node = .error text)
    (name : String) : text ≠ duplicateUrlText name := by
  unfold duplicateUrlText
  unfold addNode at h
  dsimp only at h
  intro hsame
  rw [hsame] at h
  clear hsame
  split at h
  · simp [← String.toList_inj] at h
  · split at h
    · simp [← String.toList_inj] at h
    · split at h
      · simp [← String.toList_inj] at h
      · split at h
        · simp [← String.toList_inj] at h
        · next url hurl =>
          split at h
          · simp [← String.toList_inj] at h
          · next horigin =>
            -- the only branch with that text
            split at h
            · next hthere =>
              obtain ⟨entry, hentry, rfl⟩ := hthere
              exact horigin (set.origin_mem entry hentry)
            · cases h

theorem foldlM_addNode_error {nodes : List Node} {text : String} {set : NodeSet}
    (h : nodes.foldlM (addNode crates) set = .error text) (name : String) :
    text ≠ duplicateUrlText name := by
  induction nodes generalizing set with
  | nil => cases h
  | cons node rest ih =>
    rw [List.foldlM_cons] at h
    cases hstep : addNode crates set node with
    | error first =>
      rw [hstep] at h
      cases h
      exact addNode_error hstep name
    | ok next =>
      rw [hstep] at h
      exact ih h

/-! ## What is accepted -/

theorem buildNodeSet_isOk_iff {nodes : List Node} :
    (∃ set, buildNodeSet crates nodes = .ok set) ↔ WellFormed crates nodes := by
  have huntaken : Untaken crates .empty nodes :=
    ⟨fun _ _ _ => Finset.notMem_empty _, fun _ _ _ _ => Finset.notMem_empty _⟩
  unfold buildNodeSet
  rw [foldlM_addNode_isOk_iff, and_iff_left huntaken]

/-- **Acceptance**: a list is accepted exactly when it is well formed, in whatever order. What
is built has one entry for each table, with its URL, its name, its flag and its weight, and no
two of one URL. The last error is never the one that is returned. -/
theorem buildNodeSet_accepts (crates : Crates) (nodes : List Node) :
    ((∃ set, buildNodeSet crates nodes = .ok set) ↔ WellFormed crates nodes) ∧
    (∀ set, buildNodeSet crates nodes = .ok set → set.entries.card = nodes.length ∧
      ∃ entries : List NodeEntry,
        List.Forall₂ (fun node entry => node.entry crates = some entry) nodes entries ∧
        (entries.map NodeEntry.url).Nodup ∧ entries.toFinset = set.entries) ∧
    (∀ other, nodes.Perm other → ((∃ set, buildNodeSet crates other = .ok set) ↔
      ∃ set, buildNodeSet crates nodes = .ok set)) ∧
    ∀ name, buildNodeSet crates nodes ≠ .error (duplicateUrlText name) := by
  refine ⟨buildNodeSet_isOk_iff, ?_, ?_, ?_⟩
  · intro set hset
    have hformed := buildNodeSet_isOk_iff.mp ⟨set, hset⟩
    obtain ⟨entries, hentries⟩ := exists_entries hformed.parsed
    -- different origins make different URLs, and different entries
    have horigins := hformed.origins
    rw [map_origin_of_entries hentries] at horigins
    have hurls : (entries.map NodeEntry.url).Nodup := by
      apply List.Nodup.of_map fun url => some url.origin
      rwa [List.map_map]
    have hset' : entries.toFinset = set.entries := by
      ext entry
      rw [List.mem_toFinset, mem_entries_iff hentries, mem_buildNodeSet hset]
    refine ⟨?_, entries, hentries, hurls, hset'⟩
    rw [← hset', List.toFinset_card_of_nodup hurls.of_map, hentries.length_eq]
  · intro other hperm
    rw [buildNodeSet_isOk_iff, buildNodeSet_isOk_iff]
    exact ⟨fun h => h.perm hperm.symm, fun h => h.perm hperm⟩
  · intro name herror
    exact foldlM_addNode_error herror name rfl

end AntelopeFirewall
