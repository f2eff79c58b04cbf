import AntelopeFirewall.Crates
import AntelopeFirewall.De

/-!
# The Request Body

The body of a POST request is read as JSON. If it carries a packed transaction, the
firewall decodes it and puts its rendering under `unpacked_trx`, where the filter and the
rate limiters look for the accounts of its actions.

- `packedTrx` is the one place the firewall looks for a packed transaction,
- `unpackTransaction` is the body after decoding,
- `mem_accounts_unpackTransaction` says which accounts are then found in it.
-/

namespace AntelopeFirewall

open Library De

/-! ## Decoding -/

/-- The packed transaction of a body: of its `transaction` member when there is one, which
must then be an object, and of the body itself otherwise. -/
def packedTrx (root : Json.Members) : Option Json :=
  match root.get "transaction" with
  | some m => m.asObject.bind (Json.Members.get "packed_trx")
  | none => root.get "packed_trx"

/-- The transaction that some hex text decodes to. -/
def decodeHex (crates : Crates) (text : String) : Option Transaction :=
  (crates.hexDecode text).bind fun hex => (fromBytes hex).toOption

/-- The transaction that the firewall reads out of a body. -/
def decodeTransaction (crates : Crates) (body : Json) : Option Transaction :=
  ((body.asObject.bind packedTrx).bind Json.asStr).bind (decodeHex crates)

/-- Put the transaction that was read under `unpacked_trx`. Without one the body stays as
the client sent it. -/
def unpackTransaction (crates : Crates) (parsed : Json) : Json :=
  match parsed.asObject, decodeTransaction crates parsed with
  | some root, some trx => .object (root.insert "unpacked_trx" trx.toValue)
  | _, _ => parsed

/-- The body as the filters and the limiters see it; none when it is not JSON. -/
def readBody (crates : Crates) (method : Method) (bytes : List UInt8) : Option Json :=
  match method with
  | .post =>
    if bytes.length = 0 then some .null
    else (crates.fromSlice bytes).map (unpackTransaction crates)
  -- the body of any other request is not read
  | _ => some .null

/-- The JSON value that a client posts; an empty body counts as null. -/
def postedJson (crates : Crates) (bytes : List UInt8) : Option Json :=
  if bytes.length = 0 then some .null else crates.fromSlice bytes

/-- The body of a POST request is the posted value with its transaction unpacked. -/
theorem readBody_post (crates : Crates) (bytes : List UInt8) :
    readBody crates .post bytes = (postedJson crates bytes).map (unpackTransaction crates) := by
  show (if bytes.length = 0 then _ else _) = _
  unfold postedJson
  split
  · -- nothing is read out of null
    rfl
  · rfl

/-! ## The accounts of a body -/

/-- The selector of the filter and of the contract limiters. -/
def accountsSelector : String := "$.unpacked_trx.actions.*.account"

/-- The path that the selector stands for. -/
def accountsPath : List Json.PathStep :=
  [.child "unpacked_trx", .child "actions", .wildcard, .child "account"]

/-- The selector of the authorizer limiters. -/
def actorsSelector : String := "$.unpacked_trx.actions.*.authorization.*.actor"

/-- The texts that a selector finds in a body. -/
def foundTexts (crates : Crates) (selector : String) (body : Json) : List String :=
  Json.strings (crates.find selector body)

/-- A selector finds what its path leads to, in some order. -/
def Crates.Follows (crates : Crates) (selector : String) (path : List Json.PathStep) : Prop :=
  ∀ body found, found ∈ crates.find selector body ↔ found ∈ Json.select path body

/-- The accounts that a client's own `unpacked_trx` lists. -/
def claimedAccounts (body : Json) : List String := Json.strings (Json.select accountsPath body)

section Accounts

variable {crates : Crates}

theorem mem_foundTexts (hfind : crates.Follows accountsSelector accountsPath) {body : Json}
    {account : String} :
    account ∈ foundTexts crates accountsSelector body ↔ account ∈ claimedAccounts body := by
  unfold foundTexts claimedAccounts
  rw [Json.mem_strings, Json.mem_strings]
  exact hfind body (.string account)

theorem unpackTransaction_none {body : Json} (h : decodeTransaction crates body = none) :
    unpackTransaction crates body = body := by
  unfold unpackTransaction
  rw [h]
  cases body.asObject <;> rfl

/-- A body that a transaction was read out of is an object. -/
theorem asObject_of_decodeTransaction {body : Json} {trx : Transaction}
    (h : decodeTransaction crates body = some trx) : ∃ root, body.asObject = some root := by
  unfold decodeTransaction at h
  cases hroot : body.asObject with
  | none => simp [hroot] at h
  | some root => exact ⟨root, rfl⟩

/-- After decoding, the accounts that are listed are those of the actions, whatever the
client sent. -/
theorem claimedAccounts_unpackTransaction {body : Json} {trx : Transaction}
    (h : decodeTransaction crates body = some trx) :
    claimedAccounts (unpackTransaction crates body) =
      trx.actions.map fun action => action.account.value := by
  obtain ⟨root, hroot⟩ := asObject_of_decodeTransaction h
  unfold unpackTransaction claimedAccounts accountsPath
  simp only [hroot, h]
  -- the rendering takes the place of a member the client sent under the same name
  have hmember : (Json.object (root.insert "unpacked_trx" trx.toValue)).get "unpacked_trx" =
      some trx.toValue := Json.Members.get_insert_self ..
  rw [Json.select_child_of_get hmember]
  exact strings_select_toValue trx

/-- The accounts found in a decoded body: those of the transaction's actions, or, when no
transaction was decoded, those the client itself listed. -/
theorem mem_accounts_unpackTransaction (hfind : crates.Follows accountsSelector accountsPath)
    {body : Json} {account : String} :
    account ∈ foundTexts crates accountsSelector (unpackTransaction crates body) ↔
      match decodeTransaction crates body with
      | some trx => ∃ action ∈ trx.actions, action.account.value = account
      | none => account ∈ claimedAccounts body := by
  rw [mem_foundTexts hfind]
  cases hdecoded : decodeTransaction crates body with
  | none => rw [unpackTransaction_none hdecoded]
  | some trx => rw [claimedAccounts_unpackTransaction hdecoded, List.mem_map]

end Accounts

end AntelopeFirewall
