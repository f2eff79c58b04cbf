import AntelopeFirewall.Library.Json
import Mathlib.Data.List.DropRight

/-!
# The Transaction Decoder

A transaction travels as hex text of the chain's binary format. `fromBytes` reads it:
little-endian integers, base-128 varuints, vectors with a varuint length, structures as
their fields in order. Bytes after the transaction are left alone.

- `parseVaruint` and `nameToString` are the two loops of the decoder,
- `Transaction`, `Action` and `Authorization` are what it produces,
- `toValue` is their JSON rendering, which the filter and the rate limiters read.

Integers are machine integers. A shift amount is reduced to its low five bits and the count
of shifted bits wraps, as in a release build.
-/

namespace AntelopeFirewall.De

open Library

/-- The one error that decoding a transaction can end in. -/
inductive Error where
  | eof
  deriving DecidableEq, Repr

/-- A parser consumes bytes from the front of the input. -/
abbrev Deserializer := StateT (List UInt8) (Except Error)

/-! ## Bytes and integers -/

/-- Consume one byte. -/
def nextByte : Deserializer UInt8
  | consumed :: left => .ok (consumed, left)
  | [] => .error .eof

/-- Consume `n` bytes. -/
def nextBytes (n : Nat) : Deserializer (List UInt8) := fun input =>
  if input.length < n then .error .eof else .ok (input.splitAt n)

/-- The number that some bytes encode, least significant byte first. -/
def fromLeBytes (bytes : List UInt8) : Nat := bytes.foldr (fun b n => b.toNat + 256 * n) 0

/-- The eight bytes of a number, least significant byte first. -/
def toLeBytes (n : UInt64) : List UInt8 :=
  (List.range 8).map fun i => (n >>> (8 * i).toUInt64).toUInt8

def parseU8 : Deserializer UInt8 := nextByte

def parseU16 : Deserializer UInt16 := do
  return UInt16.ofNat (fromLeBytes (← nextBytes 2))

def parseU32 : Deserializer UInt32 := do
  return UInt32.ofNat (fromLeBytes (← nextBytes 4))

def parseU64 : Deserializer UInt64 := do
  return UInt64.ofNat (fromLeBytes (← nextBytes 8))

/-- The loop of `parse_varuint`, with the value and the shift reached so far. -/
def parseVaruintFrom (value bit : UInt32) : List UInt8 → Except Error (UInt32 × List UInt8)
  | [] => .error .eof
  | x :: left =>
    let value := value ||| ((x &&& 0x7f).toUInt32 <<< bit)
    -- the high bit says that more bytes follow
    if x &&& 0x80 = 0 then .ok (value, left) else parseVaruintFrom value (bit + 7) left

def parseVaruint : Deserializer UInt32 := fun input => parseVaruintFrom 0 0 input

/-- Parse `n` elements. -/
def parseElements {α : Type} (element : Deserializer α) : Nat → Deserializer (List α)
  | 0 => return []
  | n + 1 => do
    let first ← element
    return first :: (← parseElements element n)

/-- A vector: its length and its elements. -/
def parseVec {α : Type} (element : Deserializer α) : Deserializer (List α) := do
  let len ← parseVaruint
  parseElements element len.toNat

/-! ## Names -/

/-- An account or action name. -/
structure Name where
  value : String
  deriving DecidableEq, Repr

/-- One bit of a number given by its bytes. -/
def bitAt (bytes : List UInt8) (bit : Nat) : UInt32 :=
  ((bytes.getD (bit / 8) 0).toUInt32 >>> (bit % 8).toUInt32) &&& 1

/-- The inner loop of `name_to_string`: up to five of the bits that are left, from the top,
appended to the digit. The bit index of the source is one less than `left`. -/
def nextDigit (bytes : List UInt8) : Nat → Nat → UInt32 → UInt32 × Nat
  | 0, left, c => (c, left)
  | _ + 1, 0, c => (c, 0)
  | turns + 1, left + 1, c => nextDigit bytes turns left ((c <<< 1) ||| bitAt bytes left)

/-- The character of a digit. -/
def digitChar (c : UInt32) : Char :=
  -- the digits are the dot, the numerals from one to five and the letters
  if c ≥ 6 then Char.ofNat (c.toNat + 97 - 6)
  else if c ≥ 1 then Char.ofNat (c.toNat + 49 - 1)
  else '.'

/-- The outer loop of `name_to_string`. Every turn takes at least one bit, so as many turns
as there are bits are enough. -/
def nameDigits (bytes : List UInt8) : Nat → Nat → List Char
  | 0, _ => []
  | _ + 1, 0 => []
  | turns + 1, left + 1 =>
    let (c, left) := nextDigit bytes 5 (left + 1) 0
    digitChar c :: nameDigits bytes turns left

/-- The text of a 64-bit name: thirteen digits without the dots at the end. -/
def nameToString (n : UInt64) : String :=
  String.ofList ((nameDigits (toLeBytes n) 64 64).rdropWhile (· = '.'))

def parseName : Deserializer Name := do
  return ⟨nameToString (← parseU64)⟩

/-! ## Transactions -/

structure Authorization where
  actor : Name
  permission : Name
  deriving DecidableEq, Repr

structure Action where
  account : Name
  name : Name
  authorization : List Authorization
  data : List UInt8
  deriving DecidableEq, Repr

/-- A transaction; `maxNetUsageWords` and `delaySec` are the two `Varuint` fields. -/
structure Transaction where
  expiration : UInt32
  refBlockNum : UInt16
  refBlockPrefix : UInt32
  maxNetUsageWords : UInt32
  maxCpuUsageMs : UInt8
  delaySec : UInt32
  ctxFreeActions : List Action
  actions : List Action
  deriving DecidableEq, Repr

def parseAuthorization : Deserializer Authorization := do
  let actor ← parseName
  let permission ← parseName
  return ⟨actor, permission⟩

def parseAction : Deserializer Action := do
  let account ← parseName
  let name ← parseName
  let authorization ← parseVec parseAuthorization
  let data ← parseVec parseU8
  return ⟨account, name, authorization, data⟩

def parseTransaction : Deserializer Transaction := do
  let expiration ← parseU32
  let refBlockNum ← parseU16
  let refBlockPrefix ← parseU32
  let maxNetUsageWords ← parseVaruint
  let maxCpuUsageMs ← parseU8
  let delaySec ← parseVaruint
  let ctxFreeActions ← parseVec parseAction
  let actions ← parseVec parseAction
  return ⟨expiration, refBlockNum, refBlockPrefix, maxNetUsageWords, maxCpuUsageMs, delaySec,
    ctxFreeActions, actions⟩

/-- Decode a transaction from the start of some bytes. -/
def fromBytes (bytes : List UInt8) : Except Error Transaction := do
  let (transaction, _) ← parseTransaction bytes
  return transaction

/-! ## JSON rendering -/

def Name.toValue (name : Name) : Json := .string name.value

def uintToValue (n : Nat) : Json := .number (.posInt n)

def Authorization.toValue (authorization : Authorization) : Json :=
  .object [("actor", authorization.actor.toValue),
    ("permission", authorization.permission.toValue)]

def Action.toValue (action : Action) : Json :=
  .object [("account", action.account.toValue), ("name", action.name.toValue),
    ("authorization", .array (action.authorization.map Authorization.toValue)),
    ("data", .array (action.data.map fun b => uintToValue b.toNat))]

def Transaction.toValue (transaction : Transaction) : Json :=
  .object [("expiration", uintToValue transaction.expiration.toNat),
    ("ref_block_num", uintToValue transaction.refBlockNum.toNat),
    ("ref_block_prefix", uintToValue transaction.refBlockPrefix.toNat),
    ("max_net_usage_words", uintToValue transaction.maxNetUsageWords.toNat),
    ("max_cpu_usage_ms", uintToValue transaction.maxCpuUsageMs.toNat),
    ("delay_sec", uintToValue transaction.delaySec.toNat),
    ("ctx_free_actions", .array (transaction.ctxFreeActions.map Action.toValue)),
    ("actions", .array (transaction.actions.map Action.toValue))]

/-- The accounts that the path of the filter reads off a rendered transaction are those of
its actions, in order. -/
theorem strings_select_toValue (transaction : Transaction) :
    Json.strings (Json.select [.child "actions", .wildcard, .child "account"]
      transaction.toValue) = transaction.actions.map fun action => action.account.value := by
  have hactions : transaction.toValue.get "actions" =
      some (.array (transaction.actions.map Action.toValue)) := rfl
  rw [Json.select_child_of_get hactions, Json.select_cons]
  -- what is left is the path of one action, for each of them
  show Json.strings (List.flatMap _ (transaction.actions.map Action.toValue)) = _
  induction transaction.actions with
  | nil => rfl
  | cons action actions ih =>
    have haccount : action.toValue.get "account" = some (.string action.account.value) := rfl
    rw [List.map_cons, List.flatMap_cons, Json.select_child_of_get haccount, List.map_cons, ← ih]
    rfl

end AntelopeFirewall.De
