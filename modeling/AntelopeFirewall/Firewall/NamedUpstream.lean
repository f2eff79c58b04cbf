import AntelopeFirewall.Config.Basic
import AntelopeFirewall.Library.CommaList

/-!
# When a Response Names Its Upstream

`relayHeaders` takes away what the upstream calls itself and names the chosen node when it
may: the request was a read, the node is pinnable, and the answer came from its origin. The
name has to be exposed to scripts, so the header that lists the exposed ones is rewritten.

- `HeaderMap.listed` are the entries of a header that carries a list, byte for byte,
- `listed_nameUpstream` says what the rewritten header lists, whether or not the values that
  the upstream sent can be read,
- `relayHeaders_names` is the result for a node of an accepted list.
-/

namespace AntelopeFirewall

open Library

/-! ## Headers that are read and written as text -/

/-- Visible ASCII and tabs. -/
def isTextByte (b : UInt8) : Bool := (32 ≤ b ∧ b < 127) ∨ b = 9

/-- `to_str` reads values of visible ASCII and tabs only, and `from_str` makes them of texts. -/
structure Crates.ReadsHeaders (crates : Crates) : Prop where
  toStr : ∀ value text, crates.headerToStr value = some text →
    (∀ b ∈ value, isTextByte b = true) ∧ Text.utf8 text = value
  fromStr : ∀ text, (∀ b ∈ Text.utf8 text, isTextByte b = true) →
    crates.headerFromStr text = some (Text.utf8 text)

/-- The white space around an entry. -/
def isListBlank (b : UInt8) : Bool := b = 0x20 ∨ b = 0x09

/-- The entries of a header value, between its commas. -/
def listEntries (value : HeaderValue) : List HeaderValue :=
  CommaList.entries 0x2c isListBlank value

/-- The entries of all values of a header. -/
def HeaderMap.listed (headers : HeaderMap) (name : String) : List HeaderValue :=
  (headers.getAll name).flatMap listEntries

/-- An entry is the upstream header, in any case. -/
def isUpstreamHeader (entry : HeaderValue) : Bool :=
  Text.eqIgnoreAsciiCase (Text.ascii entry) upstreamHeader

theorem isTextByte_lt {b : UInt8} (h : isTextByte b = true) : b < 128 := by
  unfold isTextByte at h
  rw [decide_eq_true_eq] at h
  rcases h with ⟨-, hlt⟩ | rfl
  · exact UInt8.lt_trans hlt (by decide)
  · decide

/-- A value that is read is the text of its bytes. -/
theorem headerToStr_eq {crates : Crates} (hcrates : crates.ReadsHeaders) {value : HeaderValue}
    {text : String} (h : crates.headerToStr value = some text) :
    (∀ b ∈ value, isTextByte b = true) ∧ text = Text.ascii value := by
  obtain ⟨hbytes, hutf8⟩ := hcrates.toStr value text h
  refine ⟨hbytes, Text.utf8_inj.mp ?_⟩
  rw [hutf8, Text.utf8_ascii fun b hb => isTextByte_lt (hbytes b hb)]

/-- Values are read one by one. -/
theorem readValues_eq {crates : Crates} (hcrates : crates.ReadsHeaders)
    {values : List HeaderValue} {texts : List String} (h : readValues crates values = some texts) :
    (∀ value ∈ values, ∀ b ∈ value, isTextByte b = true) ∧ texts = values.map Text.ascii := by
  induction values generalizing texts with
  | nil =>
    cases h
    simp
  | cons value rest ih =>
    simp only [readValues, Option.bind_eq_some_iff, Option.map_eq_some_iff] at h
    obtain ⟨text, hread, others, hrest, rfl⟩ := h
    obtain ⟨hbytes, rfl⟩ := headerToStr_eq hcrates hread
    obtain ⟨hothers, rfl⟩ := ih hrest
    exact ⟨List.forall_mem_cons.mpr ⟨hbytes, hothers⟩, rfl⟩

/-- A name that a pinnable node can have is a header value. -/
theorem headerFromStr_of_valid {crates : Crates} (hcrates : crates.ReadsHeaders) {name : String}
    (h : isValidPinnableName name = true) :
    crates.headerFromStr name = some (Text.utf8 name) := by
  have hrange : ∀ {c low high : Char}, 32 ≤ low.toNat → high.toNat < 127 → low.val ≤ c.val →
      c.val ≤ high.val → 32 ≤ c.toNat ∧ c.toNat < 127 := by
    intro c low high hlow hhigh hle hge
    exact ⟨hlow.trans (UInt32.le_iff_toNat_le.mp hle),
      (UInt32.le_iff_toNat_le.mp hge).trans_lt hhigh⟩
  -- the characters that are allowed are all visible ASCII
  have hvisible : ∀ c ∈ name.toList, 32 ≤ c.toNat ∧ c.toNat < 127 := by
    intro c hc
    simp only [isValidPinnableName, Bool.and_eq_true, List.all_eq_true] at h
    have hallowed := h.2 c hc
    simp only [Text.isAsciiAlphanumeric, Char.isAlphanum, Bool.or_eq_true, decide_eq_true_eq,
      or_assoc] at hallowed
    rcases hallowed with halpha | hdigit | rfl | rfl | rfl
    · rcases (Bool.or_eq_true _ _).mp halpha with hupper | hlower
      · have hcode : 'A'.val ≤ c.val ∧ c.val ≤ 'Z'.val := of_decide_eq_true hupper
        exact hrange (by decide) (by decide) hcode.1 hcode.2
      · obtain ⟨hlow, hhigh⟩ := (Bool.and_eq_true _ _).mp hlower
        exact hrange (by decide) (by decide) (of_decide_eq_true hlow) (of_decide_eq_true hhigh)
    · obtain ⟨hlow, hhigh⟩ := (Bool.and_eq_true _ _).mp hdigit
      exact hrange (by decide) (by decide) (of_decide_eq_true hlow) (of_decide_eq_true hhigh)
    · decide
    · decide
    · decide
  apply hcrates.fromStr
  rw [Text.utf8_of_ascii fun c hc => (hvisible c hc).2.trans (by decide)]
  intro b hb
  obtain ⟨c, hc, rfl⟩ := List.mem_map.mp hb
  obtain ⟨hlow, hhigh⟩ := hvisible c hc
  have hcode : (UInt8.ofNat c.toNat).toNat = c.toNat := by
    rw [UInt8.toNat_ofNat']
    omega
  simp only [isTextByte, UInt8.le_iff_toNat_le, UInt8.lt_iff_toNat_lt, hcode, decide_eq_true_eq]
  exact .inl ⟨hlow, hhigh⟩

/-! ## What is exposed -/

/-- The exposed entries, with the upstream header among them. -/
def exposed (entries : List HeaderValue) : List HeaderValue :=
  if entries.any isUpstreamHeader then entries else entries ++ [Text.utf8 upstreamHeader]

/-- Splitting a text, trimming the parts and dropping the empty ones reads its entries. -/
theorem split_trim_filter (sep : Char) (text : String) :
    ((Text.split sep text).map Text.trim).filter (· ≠ "") =
      (CommaList.entries sep Text.isWhitespace text.toList).map String.ofList := by
  have htrim : Text.trim ∘ String.ofList = String.ofList ∘ CommaList.trim Text.isWhitespace := by
    funext cs
    simp [Text.trim, CommaList.trim]
  have hempty : (fun part : String => decide (part ≠ "")) ∘ String.ofList =
      fun cs => decide (cs ≠ []) := by
    funext cs
    simp
  unfold Text.split CommaList.entries
  rw [List.map_map, htrim, ← List.map_map, List.filter_map, hempty]

/-- The entries of a readable value are those of its text. -/
theorem entries_ascii {value : HeaderValue} (h : ∀ b ∈ value, isTextByte b = true) :
    ((Text.split ',' (Text.ascii value)).map Text.trim).filter (· ≠ "") =
      (listEntries value).map Text.ascii := by
  -- among the characters of such a value only space and tab are white space
  have hcodes : ∀ n < 128, isTextByte (UInt8.ofNat n) = true →
      (Char.ofNat n = ',' ↔ UInt8.ofNat n = 0x2c) ∧
        Text.isWhitespace (Char.ofNat n) = isListBlank (UInt8.ofNat n) := by decide +kernel
  have hbyte : ∀ b ∈ value, (Char.ofNat b.toNat = ',' ↔ b = 0x2c) ∧
      Text.isWhitespace (Char.ofNat b.toNat) = isListBlank b := by
    intro b hb
    have hcode := hcodes b.toNat (isTextByte_lt (h b hb))
    rw [UInt8.ofNat_toNat] at hcode
    exact hcode (h b hb)
  have hentries := CommaList.entries_map (fun b hb => (hbyte b hb).1) fun b hb => (hbyte b hb).2
  rw [split_trim_filter, Text.ascii, String.toList_ofList, hentries, List.map_map]
  rfl

/-- The value that is written lists what the readable values list, and the upstream header. -/
theorem exposeHeaderValue_ascii {values : List HeaderValue}
    (h : ∀ value ∈ values, ∀ b ∈ value, isTextByte b = true) :
    exposeHeaderValue (values.map Text.ascii) =
      Text.ascii (CommaList.join 0x2c 0x20 (exposed (values.flatMap listEntries))) := by
  have hentries : (((values.map Text.ascii).flatMap (Text.split ',')).map Text.trim).filter
      (· ≠ "") = (values.flatMap listEntries).map Text.ascii := by
    rw [List.map_flatMap, List.filter_flatMap, List.flatMap_map, List.map_flatMap]
    apply List.flatMap_congr
    intro value hvalue
    exact entries_ascii (h value hvalue)
  -- the header is appended to the texts exactly when it is appended to the entries
  have hheader : Text.ascii (Text.utf8 upstreamHeader) = upstreamHeader := by decide
  have hexposed : (if ((values.flatMap listEntries).map Text.ascii).any
        (Text.eqIgnoreAsciiCase · upstreamHeader) then (values.flatMap listEntries).map Text.ascii
      else (values.flatMap listEntries).map Text.ascii ++ [upstreamHeader]) =
        (exposed (values.flatMap listEntries)).map Text.ascii := by
    have hany : ((values.flatMap listEntries).map Text.ascii).any
        (Text.eqIgnoreAsciiCase · upstreamHeader) =
          (values.flatMap listEntries).any isUpstreamHeader := List.any_map
    unfold exposed
    rw [hany]
    split
    · rfl
    · rw [List.map_append, List.map_singleton, hheader]
  unfold exposeHeaderValue
  rw [hentries]
  dsimp only
  rw [hexposed]
  -- joining the texts joins their bytes
  have htexts : String.toList ∘ Text.ascii = List.map fun b => Char.ofNat b.toNat := by
    funext e
    simp [Text.ascii]
  have hjoin := CommaList.join_map (fun b : UInt8 => Char.ofNat b.toNat) 0x2c 0x20
    (exposed (values.flatMap listEntries))
  apply String.toList_inj.mp
  calc (", ".intercalate ((exposed (values.flatMap listEntries)).map Text.ascii)).toList
      = CommaList.join ',' ' ' ((exposed (values.flatMap listEntries)).map
          (List.map fun b => Char.ofNat b.toNat)) := by
        rw [String.toList_intercalate, List.map_map, htexts]
        rfl
    _ = (CommaList.join 0x2c 0x20 (exposed (values.flatMap listEntries))).map
          fun b => Char.ofNat b.toNat := hjoin
    _ = _ := String.toList_ofList.symm

theorem entry_upstreamHeader :
    CommaList.Entry 0x2c isListBlank (Text.utf8 upstreamHeader) where
  nonempty := by decide
  unbroken := by decide
  trimmed := by decide

/-- Every entry that a readable value lists, and the upstream header, can be read as one. -/
theorem entry_of_mem_exposed {values : List HeaderValue}
    (h : ∀ value ∈ values, ∀ b ∈ value, isTextByte b = true) {entry : HeaderValue}
    (hentry : entry ∈ exposed (values.flatMap listEntries)) :
    CommaList.Entry 0x2c isListBlank entry ∧ ∀ b ∈ entry, isTextByte b = true := by
  have hsent : entry ∈ values.flatMap listEntries →
      CommaList.Entry 0x2c isListBlank entry ∧ ∀ b ∈ entry, isTextByte b = true := by
    intro hmem
    obtain ⟨value, hvalue, hlisted⟩ := List.mem_flatMap.mp hmem
    refine ⟨CommaList.entry_of_mem_entries hlisted, ?_⟩
    intro b hb
    exact h value hvalue b (CommaList.mem_of_mem_entries hlisted hb)
  unfold exposed at hentry
  split at hentry
  · exact hsent hentry
  · rcases List.mem_append.mp hentry with hmem | hmem
    · exact hsent hmem
    · rw [List.mem_singleton.mp hmem]
      exact ⟨entry_upstreamHeader, List.all_eq_true.mp (by decide)⟩

/-- The value that is written is a header value, and lists what it was written from. -/
theorem exposeHeaderValue_written {crates : Crates} (hcrates : crates.ReadsHeaders)
    {values : List HeaderValue} (h : ∀ value ∈ values, ∀ b ∈ value, isTextByte b = true) :
    ∃ value, crates.headerFromStr (exposeHeaderValue (values.map Text.ascii)) = some value ∧
      listEntries value = exposed (values.flatMap listEntries) := by
  let written := CommaList.join 0x2c 0x20 (exposed (values.flatMap listEntries))
  have hbytes : ∀ b ∈ written, isTextByte b = true := by
    intro b hb
    rcases CommaList.mem_of_mem_join hb with rfl | rfl | ⟨entry, hentry, hmem⟩
    · decide
    · decide
    · exact (entry_of_mem_exposed h hentry).2 b hmem
  have hutf8 : Text.utf8 (Text.ascii written) = written :=
    Text.utf8_ascii fun b hb => isTextByte_lt (hbytes b hb)
  refine ⟨written, ?_, ?_⟩
  · rw [exposeHeaderValue_ascii h]
    show crates.headerFromStr (Text.ascii written) = some written
    rw [hcrates.fromStr, hutf8]
    rwa [hutf8]
  · apply CommaList.entries_join (by decide) (by decide)
    intro entry hentry
    exact (entry_of_mem_exposed h hentry).1

/-! ## The headers of a response that names its upstream -/

section Naming

variable {crates : Crates} {node : NodeEntry} {name : HeaderValue}

/-- **Exposing**: a named response lists what the upstream listed and then, if that is not
among it, the upstream header. Where a value cannot be read, all of them are left in place. -/
theorem listed_nameUpstream (hcrates : crates.ReadsHeaders)
    (hname : crates.headerFromStr node.name = some name) (headers : HeaderMap) :
    (nameUpstream crates node headers).listed exposeHeadersKey =
        exposed (headers.listed exposeHeadersKey) ∨
      (nameUpstream crates node headers).listed exposeHeadersKey =
        headers.listed exposeHeadersKey ++ [Text.utf8 upstreamHeader] := by
  have hother := exposeHeadersKey_ne.symm
  unfold nameUpstream HeaderMap.listed
  simp only [hname]
  cases hread : readValues crates (headers.getAll exposeHeadersKey) with
  | some texts =>
    obtain ⟨hbytes, rfl⟩ := readValues_eq hcrates hread
    obtain ⟨value, hvalue, hlisted⟩ := exposeHeaderValue_written hcrates hbytes
    rw [Option.getD_some, hvalue, List.length_map]
    left
    simp only [if_true, HeaderMap.getAll_insert_self, List.flatMap_singleton, hlisted]
  | none =>
    -- nothing is taken over from the values, and the header is appended to them
    have hnone : ∀ value ∈ ([] : List HeaderValue), ∀ b ∈ value, isTextByte b = true := by simp
    obtain ⟨value, hvalue, -⟩ := exposeHeaderValue_written hcrates hnone
    have hunread : ¬ 0 = (headers.getAll exposeHeadersKey).length := by
      intro hlength
      rw [List.length_eq_zero_iff.mp hlength.symm] at hread
      cases hread
    rw [List.map_nil] at hvalue
    right
    simp only [Option.getD_none, hvalue, List.length_nil, if_neg hunread,
      HeaderMap.getAll_append_self, HeaderMap.getAll_insert_ne _ hother, List.flatMap_append,
      List.flatMap_singleton]
    unfold listEntries
    rw [CommaList.entries_entry entry_upstreamHeader]

/-- The list of exposed headers does not depend on the name that was sent. -/
theorem listed_remove_upstream (headers : HeaderMap) :
    (headers.remove upstreamHeaderKey).listed exposeHeadersKey =
      headers.listed exposeHeadersKey := by
  unfold HeaderMap.listed
  rw [HeaderMap.getAll_remove_ne _ exposeHeadersKey_ne.symm]

/-- Naming a node concerns two headers. -/
theorem getAll_nameUpstream_other (crates : Crates) (node : NodeEntry) (headers : HeaderMap)
    {key : String} (hname : key ≠ upstreamHeaderKey) (hexpose : key ≠ exposeHeadersKey) :
    (nameUpstream crates node headers).getAll key = headers.getAll key := by
  unfold nameUpstream
  cases crates.headerFromStr node.name with
  | none => rfl
  | some name =>
    dsimp only
    split
    · exact HeaderMap.getAll_insert_ne _ hname _
    · split
      · rw [HeaderMap.getAll_insert_ne _ hexpose, HeaderMap.getAll_remove_ne _ hexpose,
          HeaderMap.getAll_insert_ne _ hname]
      · rw [HeaderMap.getAll_append_ne _ hexpose, HeaderMap.getAll_insert_ne _ hname]

/-- The upstream header is among the exposed entries. -/
theorem any_isUpstreamHeader_exposed (entries : List HeaderValue) :
    ∃ entry ∈ exposed entries, isUpstreamHeader entry = true := by
  unfold exposed
  split
  · next hany => exact List.any_eq_true.mp hany
  · exact ⟨_, List.mem_append_right _ (List.mem_singleton_self _), by decide⟩

/-- Nothing that was listed is lost. -/
theorem mem_exposed {entries : List HeaderValue} {entry : HeaderValue} (h : entry ∈ entries) :
    entry ∈ exposed entries := by
  unfold exposed
  split
  · exact h
  · exact List.mem_append_left _ h

/-- A named response exposes the upstream header and everything that the upstream exposes. -/
theorem nameUpstream_exposes (hcrates : crates.ReadsHeaders)
    (hname : crates.headerFromStr node.name = some name) (headers : HeaderMap) :
    (∃ entry ∈ (nameUpstream crates node headers).listed exposeHeadersKey,
        isUpstreamHeader entry = true) ∧
      ∀ entry ∈ headers.listed exposeHeadersKey,
        entry ∈ (nameUpstream crates node headers).listed exposeHeadersKey := by
  rcases listed_nameUpstream hcrates hname headers with hlisted | hlisted
  · rw [hlisted]
    exact ⟨any_isUpstreamHeader_exposed _, fun entry hentry => mem_exposed hentry⟩
  · rw [hlisted]
    refine ⟨⟨_, List.mem_append_right _ (List.mem_singleton_self _), ?_⟩, ?_⟩
    · decide
    · intro entry hentry
      exact List.mem_append_left _ hentry

end Naming

/-! ## When a response names its upstream -/

/-- **Naming the upstream**: the relayed answer of a node of an accepted list names its upstream
exactly when the request was a read, the node is pinnable and the answer came from its origin.
The name is then that of the node, which no other one of the list shares the origin with, and
it is exposed beside everything that the upstream exposes. All other headers are relayed as
they were sent. -/
theorem relayHeaders_names {crates : Crates} (hcrates : crates.ReadsHeaders) {set : NodeSet}
    {node : NodeEntry} (hnode : node ∈ set.entries) (path : String) (answeredBy : Url)
    (headers : HeaderMap) :
    let relayed := relayHeaders crates (some node) path answeredBy headers
    let named := relayed.getAll upstreamHeaderKey ≠ []
    (named ↔ path ∈ getEndpoints ∧ node.pinnable = true ∧
      node.url.scheme = answeredBy.scheme ∧ node.url.hostStr = answeredBy.hostStr ∧
      node.url.portOrKnownDefault = answeredBy.portOrKnownDefault) ∧
    (named → relayed.getAll upstreamHeaderKey = [Text.utf8 node.name] ∧
      (∀ other ∈ set.entries, other.url.origin = node.url.origin → other = node) ∧
      (∃ entry ∈ relayed.listed exposeHeadersKey, isUpstreamHeader entry = true) ∧
      (∀ entry ∈ headers.listed exposeHeadersKey, entry ∈ relayed.listed exposeHeadersKey) ∧
      ∀ key, key ≠ upstreamHeaderKey → key ≠ exposeHeadersKey →
        relayed.getAll key = headers.getAll key) ∧
    (¬ named → ∀ key, key ≠ upstreamHeaderKey → relayed.getAll key = headers.getAll key) := by
  intro relayed named
  by_cases hnames : node.pinnable = true ∧ path ∈ getEndpoints ∧
      sameOrigin node.url answeredBy = true
  · obtain ⟨hpinnable, hread, horigin⟩ := hnames
    have hrelayed : relayed = nameUpstream crates node (headers.remove upstreamHeaderKey) :=
      if_pos ⟨hpinnable, hread, horigin⟩
    -- a pinnable name was validated, so it can be sent as it is
    have hvalid := set.valid_name _ (set.name_mem node hnode hpinnable)
    have hname := headerFromStr_of_valid hcrates hvalid
    have hvalue : relayed.getAll upstreamHeaderKey = [Text.utf8 node.name] := by
      rw [hrelayed, getAll_nameUpstream, hname]
    have hnamed : named := by
      show relayed.getAll upstreamHeaderKey ≠ []
      rw [hvalue]
      exact List.cons_ne_nil _ _
    have hexposes := nameUpstream_exposes hcrates hname (headers.remove upstreamHeaderKey)
    rw [← hrelayed, listed_remove_upstream] at hexposes
    simp only [sameOrigin, decide_eq_true_eq] at horigin
    refine ⟨iff_of_true hnamed ⟨hread, hpinnable, horigin⟩,
      fun _ => ⟨hvalue, ?_, hexposes.1, hexposes.2, ?_⟩, fun hunnamed => absurd hnamed hunnamed⟩
    · intro other hother hsame
      exact set.origin_inj other hother node hnode hsame
    · intro key hname hexpose
      rw [hrelayed, getAll_nameUpstream_other crates node _ hname hexpose,
        HeaderMap.getAll_remove_ne _ hname]
  · -- the header that the upstream sent is removed, and nothing else happens
    have hrelayed : relayed = headers.remove upstreamHeaderKey := if_neg hnames
    have hnone : relayed.getAll upstreamHeaderKey = [] := by
      rw [hrelayed, HeaderMap.getAll_remove_self]
    refine ⟨iff_of_false (absurd hnone) ?_, fun hnamed => absurd hnone hnamed, ?_⟩
    · rintro ⟨hread, hpinnable, horigin⟩
      exact hnames ⟨hpinnable, hread, decide_eq_true horigin⟩
    · intro _ key hname
      rw [hrelayed, HeaderMap.getAll_remove_ne _ hname]

/-! ## A node that names another one -/

theorem Crates.small_readsHeaders (documents : List (String × Json)) :
    (small documents).ReadsHeaders where
  toStr := by
    intro value text h
    have hread : ∀ b ∈ value, isTextByte b = true := by
      intro b hb
      simp only [small, List.all_eq_true, decide_eq_true_eq] at h
      split at h
      · next hall =>
        obtain ⟨hlt, hbyte⟩ := hall b hb
        simp only [isHeaderByte, decide_eq_true_eq] at hbyte
        simp only [isTextByte, decide_eq_true_eq]
        exact hbyte.imp_left fun hvisible => ⟨hvisible.1, hlt⟩
      · cases h
    refine ⟨hread, ?_⟩
    -- below 128 the text is made of the bytes themselves
    have htext : Text.ascii value = text := by
      simp only [small] at h
      split at h
      · exact Option.some.inj h
      · cases h
    rw [← htext]
    exact Text.utf8_ascii fun b hb => isTextByte_lt (hread b hb)
  fromStr := by
    intro text h
    have hall : (Text.utf8 text).all isHeaderByte = true := by
      rw [List.all_eq_true]
      intro b hb
      have htext := h b hb
      simp only [isTextByte, decide_eq_true_eq] at htext
      simp only [isHeaderByte, decide_eq_true_eq]
      -- a text has no delete character
      refine htext.imp_left fun hvisible => ⟨hvisible.1, ?_⟩
      rintro rfl
      exact absurd hvisible.2 (by decide)
    exact if_pos hall

/-- The node calls itself by two other names, and exposes a header in one value and nothing in
another, which is not text. -/
def spoofing : HeaderMap :=
  ⟨[("x-antelope-upstream", Text.utf8 "get_two"), ("x-antelope-upstream", Text.utf8 "get_three"),
    ("access-control-expose-headers", Text.utf8 "Date,,"),
    ("access-control-expose-headers", [0xff])]⟩

/-- It is named by the name that it is configured with. -/
theorem relayHeaders_names_getOne :
    ∃ set, buildNodeSet (.small []) (oneGetNode []).getNodes = .ok set ∧ getOne ∈ set.entries ∧
      (relayHeaders (.small []) (some getOne) "/v1/chain/get_info" (Crates.loopback 5001)
        spoofing).getAll upstreamHeaderKey = [Text.utf8 "get_one"] := by
  have hentries : (buildNodeSet (.small []) (oneGetNode []).getNodes).toOption.map
      NodeSet.entries = some {getOne} := oneGetNode_entries rfl
  obtain ⟨set, hset, hset'⟩ := buildNodeSet_entries hentries
  have hmem : getOne ∈ set.entries := by
    rw [hset']
    exact Finset.mem_singleton_self _
  obtain ⟨hnamed, hthen, -⟩ := relayHeaders_names (Crates.small_readsHeaders []) hmem
    "/v1/chain/get_info" (Crates.loopback 5001) spoofing
  refine ⟨set, hset, hmem, (hthen (hnamed.mpr ⟨?_, rfl, rfl, rfl, rfl⟩)).1⟩
  simp [getEndpoints]

end AntelopeFirewall
