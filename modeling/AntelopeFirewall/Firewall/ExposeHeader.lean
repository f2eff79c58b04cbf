import AntelopeFirewall.Firewall.NamedUpstream

/-!
# The Value of the Expose Header

`expose_header_value` merges the values that an upstream sent and adds the upstream header if
it is missing. Here the values are any texts, with stray commas, blanks and mixed case.

- `valueEntries` reads a value and `merged` are the entries that the new value is to have,
- `exposeHeaderValue_eq` says that the value is the list of these entries, and
  `valueEntries_join` that such a list is read back,
- `exposeHeaderValue_merges` is the result.
-/

namespace AntelopeFirewall

open Library

/-! ## Entries of texts -/

/-- The entries of a value: its parts between commas, trimmed, without the empty ones. -/
def valueEntries (value : String) : List String :=
  ((Text.split ',' value).map Text.trim).filter (· ≠ "")

/-- A text that is an entry. -/
def IsEntry (entry : String) : Prop := CommaList.Entry ',' Text.isWhitespace entry.toList

theorem isEntry_of_mem {value entry : String} (h : entry ∈ valueEntries value) :
    IsEntry entry := by
  unfold valueEntries at h
  rw [split_trim_filter] at h
  obtain ⟨cs, hcs, rfl⟩ := List.mem_map.mp h
  unfold IsEntry
  rw [String.toList_ofList]
  exact CommaList.entry_of_mem_entries hcs

theorem isEntry_upstreamHeader : IsEntry upstreamHeader where
  nonempty := by decide
  unbroken := by decide
  trimmed := by decide

/-- Entries that are joined are read back. -/
theorem valueEntries_join {entries : List String} (h : ∀ entry ∈ entries, IsEntry entry) :
    valueEntries (", ".intercalate entries) = entries := by
  have hjoin : (", ".intercalate entries).toList =
      CommaList.join ',' ' ' (entries.map String.toList) := String.toList_intercalate
  have hread : CommaList.entries ',' Text.isWhitespace
      (CommaList.join ',' ' ' (entries.map String.toList)) = entries.map String.toList := by
    apply CommaList.entries_join (by decide) (by decide)
    intro cs hcs
    obtain ⟨entry, hentry, rfl⟩ := List.mem_map.mp hcs
    exact h entry hentry
  unfold valueEntries
  rw [split_trim_filter, hjoin, hread, List.map_map]
  simp

/-! ## The merged value -/

/-- The entries to expose: those that were sent, and the upstream header unless it is among
them in some case. -/
def merged (sent : List String) : List String :=
  sent ++ if sent.any (Text.eqIgnoreAsciiCase · upstreamHeader) then [] else [upstreamHeader]

/-- The value lists the merged entries. -/
theorem exposeHeaderValue_eq (existing : List String) :
    exposeHeaderValue existing = ", ".intercalate (merged (existing.flatMap valueEntries)) := by
  have hentries : ((existing.flatMap (Text.split ',')).map Text.trim).filter (· ≠ "") =
      existing.flatMap valueEntries := by
    rw [List.map_flatMap, List.filter_flatMap]
    rfl
  unfold exposeHeaderValue merged
  rw [hentries]
  dsimp only
  split
  · rw [List.append_nil]
  · rfl

/-- Once merged, the upstream header is not missing. -/
theorem merged_merged (sent : List String) : merged (merged sent) = merged sent := by
  have hthere : (merged sent).any (Text.eqIgnoreAsciiCase · upstreamHeader) = true := by
    unfold merged
    rw [List.any_append, Bool.or_eq_true]
    split
    · next hsent => exact .inl hsent
    · exact .inr (by decide)
  rw [merged, if_pos hthere, List.append_nil]

/-- **Merging loses nothing and is idempotent**: the value has the entries that were sent in
their order, then the upstream header if none of them is that up to case, and merging it again
gives the same value. -/
theorem exposeHeaderValue_merges (existing : List String) :
    valueEntries (exposeHeaderValue existing) =
        existing.flatMap valueEntries ++
          (if ∃ entry ∈ existing.flatMap valueEntries,
              Text.eqIgnoreAsciiCase entry upstreamHeader = true then []
            else [upstreamHeader]) ∧
      exposeHeaderValue [exposeHeaderValue existing] = exposeHeaderValue existing := by
  -- entries are trimmed and have no comma, so the joined text is read as these entries again
  have hentry : ∀ entry ∈ merged (existing.flatMap valueEntries), IsEntry entry := by
    intro entry hentry
    rcases List.mem_append.mp hentry with hsent | hadded
    · obtain ⟨value, -, hvalue⟩ := List.mem_flatMap.mp hsent
      exact isEntry_of_mem hvalue
    · split at hadded
      · cases hadded
      · rw [List.mem_singleton.mp hadded]
        exact isEntry_upstreamHeader
  have hread : valueEntries (exposeHeaderValue existing) =
      merged (existing.flatMap valueEntries) := by
    rw [exposeHeaderValue_eq, valueEntries_join hentry]
  refine ⟨?_, ?_⟩
  · rw [hread, merged]
    simp only [List.any_eq_true]
  · calc exposeHeaderValue [exposeHeaderValue existing]
        = ", ".intercalate (merged (merged (existing.flatMap valueEntries))) := by
          rw [exposeHeaderValue_eq, List.flatMap_singleton, hread]
      _ = exposeHeaderValue existing := by rw [merged_merged, ← exposeHeaderValue_eq]

example : exposeHeaderValue [" X-Foo,, X-Bar ", "x-antelope-upstream"] =
    "X-Foo, X-Bar, x-antelope-upstream" := by decide

end AntelopeFirewall
