import AntelopeFirewall.Config.Basic

/-!
# Where the Transaction View Comes From

Filters and limiters read the accounts of a transaction under `unpacked_trx`. The firewall
puts the rendering of the transaction it decoded there, but it takes nothing away: when it
decodes none, what the client sent under that name stays.

- `get_unpackTransaction` is the member after decoding, whatever the client sent,
- `view_iff` says for which bodies it comes from the decoder.
-/

namespace AntelopeFirewall

open Library De

/-- A packed transaction of the posted value was hex-decoded and accepted by the decoder. -/
def Decoded (crates : Crates) (posted : Json) (trx : Transaction) : Prop :=
  ∃ root text hex, posted.asObject = some root ∧ packedTrx root = some (.string text) ∧
    crates.hexDecode text = some hex ∧ fromBytes hex = .ok trx

/-- The view, if there is one, is the rendering of a decoded transaction. -/
def ViewFromDecoder (crates : Crates) (posted body : Json) : Prop :=
  ∀ view, body.get "unpacked_trx" = some view →
    ∃ trx, Decoded crates posted trx ∧ view = trx.toValue

variable {crates : Crates} {posted : Json}

theorem decoded_iff {trx : Transaction} :
    Decoded crates posted trx ↔ decodeTransaction crates posted = some trx := by
  unfold Decoded decodeTransaction decodeHex
  constructor
  · intro h
    obtain ⟨root, text, hex, hroot, hpacked, hhex, hbytes⟩ := h
    have htext : (Json.string text).asStr = some text := rfl
    have hdecoded : (fromBytes hex).toOption = some trx := by
      rw [hbytes]
      rfl
    rw [hroot, Option.bind_some, hpacked, Option.bind_some, htext, Option.bind_some, hhex,
      Option.bind_some, hdecoded]
  · intro h
    -- the steps of the chain, from the last one to the first
    obtain ⟨text, htext, hdecoded⟩ := Option.bind_eq_some_iff.mp h
    obtain ⟨packed, hpacked, hstr⟩ := Option.bind_eq_some_iff.mp htext
    obtain ⟨root, hroot, hmember⟩ := Option.bind_eq_some_iff.mp hpacked
    obtain ⟨hex, hhex, hbytes⟩ := Option.bind_eq_some_iff.mp hdecoded
    rw [Json.asStr_eq_some] at hstr
    subst hstr
    refine ⟨root, text, hex, hroot, hmember, hhex, ?_⟩
    cases hresult : fromBytes hex with
    | error error => simp [hresult, Except.toOption] at hbytes
    | ok result =>
      simp only [hresult, Except.toOption, Option.some.injEq] at hbytes
      rw [hbytes]

/-- The view after decoding: the rendering of the decoded transaction or, when none was
decoded, what the client sent. -/
theorem get_unpackTransaction (crates : Crates) (posted : Json) :
    (unpackTransaction crates posted).get "unpacked_trx" =
      match decodeTransaction crates posted with
      | some trx => some trx.toValue
      | none => posted.get "unpacked_trx" := by
  cases hdecoded : decodeTransaction crates posted with
  | none => rw [unpackTransaction_none hdecoded]
  | some trx =>
    obtain ⟨root, hroot⟩ := asObject_of_decodeTransaction hdecoded
    unfold unpackTransaction
    simp only [hroot, hdecoded]
    exact Json.Members.get_insert_self ..

/-- **Transaction view**: the view that filters and limiters get comes from the decoder,
exactly when a transaction was decoded or the client sent nothing under its name. -/
theorem view_iff {bytes : List UInt8} (hposted : postedJson crates bytes = some posted) :
    (∀ body, readBody crates .post bytes = some body → ViewFromDecoder crates posted body) ↔
      (∃ trx, Decoded crates posted trx) ∨ posted.get "unpacked_trx" = none := by
  have hread : readBody crates .post bytes = some (unpackTransaction crates posted) := by
    rw [readBody_post, hposted, Option.map_some]
  unfold ViewFromDecoder
  rw [hread]
  simp only [Option.some.injEq, forall_eq', get_unpackTransaction, decoded_iff]
  cases decodeTransaction crates posted with
  | none =>
    -- whatever is there is the client's
    simp [Option.eq_none_iff_forall_ne_some]
  | some trx => simp

/-! ## A view of the client's own -/

/-- A transaction nobody packed, sent to `victim`. -/
def claimedView : Json := .object [("actions", .array [.object [("account", .string "victim")]])]

def claimedBody : Json := .object [("unpacked_trx", claimedView)]

def claimedText : String :=
  "\x7b\"unpacked_trx\":\x7b\"actions\":[\x7b\"account\":\"victim\"\x7d]\x7d\x7d"

theorem postedJson_claimed :
    postedJson (.small [(claimedText, claimedBody)]) (Text.utf8 claimedText) =
      some claimedBody := by
  have hne : (Text.utf8 claimedText).length ≠ 0 := by decide
  exact Crates.postedJson_small hne

/-- No transaction is decoded, and the limiters get the client's own view: a limiter with
`bucket_type = "contract"` takes the buckets that are charged from it. -/
theorem claimedBody_survives :
    let crates := Crates.small [(claimedText, claimedBody)]
    ∃ body, readBody crates .post (Text.utf8 claimedText) = some body ∧
      body.get "unpacked_trx" = some claimedView ∧
      ¬ ViewFromDecoder crates claimedBody body ∧
      RatelimitBucket.contract.getBuckets crates ∅ "base"
        ⟨.empty, ⟨"/v1/chain/push_transaction", none⟩, .v4 0⟩ body .null = {"victim"} := by
  intro crates
  have hnone : decodeTransaction crates claimedBody = none := rfl
  have hposted : postedJson crates (Text.utf8 claimedText) = some claimedBody := postedJson_claimed
  refine ⟨claimedBody, ?_, rfl, ?_, ?_⟩
  · rw [readBody_post, hposted, Option.map_some, unpackTransaction_none hnone]
  · intro hview
    obtain ⟨trx, hdecoded, -⟩ := hview claimedView rfl
    rw [decoded_iff, hnone] at hdecoded
    cases hdecoded
  · decide

/-- The law at that body, where both sides fail. -/
theorem view_iff_claimedBody :
    let crates := Crates.small [(claimedText, claimedBody)]
    (∀ body, readBody crates .post (Text.utf8 claimedText) = some body →
        ViewFromDecoder crates claimedBody body) ↔
      (∃ trx, Decoded crates claimedBody trx) ∨ claimedBody.get "unpacked_trx" = none :=
  view_iff postedJson_claimed

end AntelopeFirewall
