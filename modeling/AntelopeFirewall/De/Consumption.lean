import AntelopeFirewall.De.Varuint

/-!
# What Length Prefixes Can Ask For

A vector travels with its length, and a client can claim any length below 2^32, three levels
deep. The loop over the elements ends at the first one that the input does not hold, so what the
decoder does is bounded by the input and not by what it claims.

- `countedTransaction` is the decoder with a log of the inputs that the elements of its vectors
  begin at,
- `paid_countedElements` says that the elements of a vector are paid for by bytes, if one
  element is,
- `decoding_bounded` puts the bounds together for a whole transaction.
-/

namespace AntelopeFirewall.De

open Library Library.Wire

/-! ## The parsers consume -/

theorem consumes_nextBytes (n : Nat) : Consumes n (nextBytes n) := by
  intro input bytes left h
  unfold nextBytes at h
  split at h
  · cases h
  · next henough =>
    rw [List.splitAt_eq] at h
    cases h
    refine ⟨List.drop_suffix n input, ?_⟩
    rw [List.length_drop]
    omega

theorem consumes_parseU8 : Consumes 1 parseU8 := by
  intro input b left h
  cases input with
  | nil => cases h
  | cons b' rest =>
    cases h
    exact ⟨List.suffix_cons _ _, le_rfl⟩

theorem consumes_parseU16 : Consumes 2 parseU16 :=
  (consumes_nextBytes 2).map fun bytes => UInt16.ofNat (fromLeBytes bytes)

theorem consumes_parseU32 : Consumes 4 parseU32 :=
  (consumes_nextBytes 4).map fun bytes => UInt32.ofNat (fromLeBytes bytes)

theorem consumes_parseName : Consumes 8 parseName :=
  ((consumes_nextBytes 8).map fun bytes => UInt64.ofNat (fromLeBytes bytes)).map
    fun n => (⟨nameToString n⟩ : Name)

/-- A varuint may be malformed, but it does not read beyond the input. -/
theorem consumes_parseVaruint : Consumes 0 parseVaruint := by
  intro input n left h
  obtain ⟨consumed, rfl⟩ := parseVaruintFrom_consumes h
  refine ⟨List.suffix_append _ _, ?_⟩
  rw [List.length_append]
  omega

theorem consumes_parseAuthorization : Consumes 16 parseAuthorization :=
  consumes_parseName.bind fun actor => consumes_parseName.map fun permission =>
    (⟨actor, permission⟩ : Authorization)

/-! ## The decoder with a log of the elements -/

def countedVec {α : Type} (element : Logged UInt8 Error α) : Logged UInt8 Error (List α) := do
  let len ← .lift parseVaruint
  loggedElements element.mark len.toNat

def countedAction : Logged UInt8 Error Action := do
  let account ← .lift parseName
  let name ← .lift parseName
  let authorization ← countedVec (.lift parseAuthorization)
  let data ← countedVec (.lift parseU8)
  return ⟨account, name, authorization, data⟩

def countedTransaction : Logged UInt8 Error Transaction := do
  let expiration ← .lift parseU32
  let refBlockNum ← .lift parseU16
  let refBlockPrefix ← .lift parseU32
  let maxNetUsageWords ← .lift parseVaruint
  let maxCpuUsageMs ← .lift parseU8
  let delaySec ← .lift parseVaruint
  let ctxFreeActions ← countedVec countedAction
  let actions ← countedVec countedAction
  return ⟨expiration, refBlockNum, refBlockPrefix, maxNetUsageWords, maxCpuUsageMs, delaySec,
    ctxFreeActions, actions⟩

theorem logs_countedVec {α : Type} {m : Logged UInt8 Error α} {element : Deserializer α}
    (h : Logs m element) : Logs (countedVec m) (parseVec element) :=
  (logs_lift parseVaruint).bind fun len => logs_loggedElements h.mark len.toNat

theorem logs_countedAction : Logs countedAction parseAction :=
  (logs_lift parseName).bind fun _ => (logs_lift parseName).bind fun _ =>
    (logs_countedVec (logs_lift parseAuthorization)).bind fun _ =>
      (logs_countedVec (logs_lift parseU8)).bind fun _ => logs_pure _

/-- The log changes nothing. -/
theorem logs_countedTransaction : Logs countedTransaction parseTransaction :=
  (logs_lift parseU32).bind fun _ => (logs_lift parseU16).bind fun _ =>
    (logs_lift parseU32).bind fun _ => (logs_lift parseVaruint).bind fun _ =>
      (logs_lift parseU8).bind fun _ => (logs_lift parseVaruint).bind fun _ =>
        (logs_countedVec logs_countedAction).bind fun _ =>
          (logs_countedVec logs_countedAction).bind fun _ => logs_pure _

/-! ## The elements are paid for -/

/-- Elements one after the other count together. -/
theorem paid_loggedElements {α : Type} {m : Logged UInt8 Error α} {count : α → Nat}
    {spare extra : Nat} (h : Paid m count spare extra) (n : Nat) :
    Paid (loggedElements m n) (fun xs => (xs.map count).sum) 0 extra := by
  induction n with
  | zero => exact paid_pure (fun xs : List α => (xs.map count).sum) rfl extra
  | succ n ih =>
    have hall : Paid (loggedElements m (n + 1)) (fun xs => (xs.map count).sum) (spare + 0)
        extra :=
      h.bind fun first => ih.map fun rest => by
        rw [List.map_cons, List.sum_cons, Nat.add_sub_cancel_left]
    exact hall.weaken (Nat.zero_le _) le_rfl

/-- **A vector**: whatever length it claims, each element counts one more and takes a byte for
it, and the one that the input does not hold is the last that is begun. -/
theorem paid_countedVec {α : Type} {m : Logged UInt8 Error α} {count : α → Nat}
    {spare extra : Nat} (h : Paid m count (spare + 1) extra) :
    Paid (countedVec m) (fun xs => (xs.map fun x => count x + 1).sum) 0 (extra + 1) := by
  have hvec : Paid (countedVec m) (fun xs => (xs.map fun x => count x + 1).sum) (0 + 0)
      (extra + 1) :=
    (paid_lift consumes_parseVaruint (extra + 1)).bind fun len =>
      paid_loggedElements h.mark len.toNat
  exact hvec

/-- The elements of an action: its authorizations and its data bytes. -/
def actionElements (action : Action) : Nat := action.authorization.length + action.data.length

/-- The elements of a transaction: its actions and theirs. -/
def transactionElements (transaction : Transaction) : Nat :=
  ((transaction.ctxFreeActions ++ transaction.actions).map fun action =>
    actionElements action + 1).sum

/-- A vector of elements without elements of their own counts as many as it has. -/
theorem paid_countedVec_flat {α : Type} {element : Deserializer α} {least : Nat}
    (h : Consumes (least + 1) element) :
    Paid (countedVec (.lift element)) List.length 0 1 := by
  have hvec := paid_countedVec (paid_lift h 0)
  simpa using hvec

theorem paid_countedAction : Paid countedAction actionElements 16 1 := by
  have hpaid : Paid countedAction actionElements (8 + (8 + (0 + 0))) 1 :=
    (paid_lift consumes_parseName 1).bind fun account =>
      (paid_lift consumes_parseName 1).bind fun name =>
        (paid_countedVec_flat consumes_parseAuthorization).bind fun authorization =>
          (paid_countedVec_flat consumes_parseU8).map fun data => by
            simp [actionElements]
  exact hpaid

theorem paid_countedTransaction : Paid countedTransaction transactionElements 11 2 := by
  have hactions := paid_countedVec paid_countedAction
  have hpaid : Paid countedTransaction transactionElements
      (4 + (2 + (4 + (0 + (1 + (0 + (0 + 0))))))) 2 :=
    (paid_lift consumes_parseU32 2).bind fun _ => (paid_lift consumes_parseU16 2).bind fun _ =>
      (paid_lift consumes_parseU32 2).bind fun _ =>
        (paid_lift consumes_parseVaruint 2).bind fun _ =>
          (paid_lift consumes_parseU8 2).bind fun _ =>
            (paid_lift consumes_parseVaruint 2).bind fun _ =>
              hactions.bind fun ctxFreeActions => hactions.map fun actions => by
                simp [transactionElements]
  exact hpaid

/-! ## The bounds -/

/-- The inputs that the elements of all vectors are read from while some bytes are decoded,
those that cannot be read included. -/
def elementReads (bytes : List UInt8) : List (List UInt8) := (countedTransaction.run bytes).1

/-- **Length prefixes** cannot make the decoder do more than the input holds. It leaves an end of
the input, an accepted transaction has no more actions, authorizations and data bytes than were
consumed, and every element takes at least one byte. Whether or not the bytes are accepted, no
more than two reads of elements are begun beyond one for each byte, all within the input. -/
theorem decoding_bounded (bytes : List UInt8) :
    (∀ transaction left, parseTransaction bytes = .ok (transaction, left) →
      left <:+ bytes ∧ transactionElements transaction + left.length ≤ bytes.length) ∧
    (∀ transaction, fromBytes bytes = .ok transaction →
      transactionElements transaction ≤ bytes.length) ∧
    (Consumes 1 parseAction ∧ Consumes 1 parseAuthorization ∧ Consumes 1 parseU8) ∧
    (countedTransaction.run bytes).2 = parseTransaction bytes ∧
    (elementReads bytes).length ≤ bytes.length + 2 ∧
    ∀ place ∈ elementReads bytes, place <:+ bytes := by
  have hpaid := paid_countedTransaction
  have hread : ∀ transaction left, parseTransaction bytes = .ok (transaction, left) →
      left <:+ bytes ∧ transactionElements transaction + left.length ≤ bytes.length := by
    intro transaction left h
    -- the counted decoder returns what the decoder returns
    rw [← logs_countedTransaction bytes] at h
    obtain ⟨hsuffix, hcount, hle⟩ := hpaid.ok (Prod.ext rfl h)
    exact ⟨hsuffix, by omega⟩
  refine ⟨hread, ?_, ⟨?_, ?_, consumes_parseU8⟩, logs_countedTransaction bytes,
    hpaid.length_le bytes, hpaid.places⟩
  · intro transaction h
    unfold fromBytes at h
    cases hparsed : parseTransaction bytes with
    | error error =>
      rw [hparsed] at h
      cases h
    | ok parsed =>
      rw [hparsed] at h
      cases h
      obtain ⟨-, hle⟩ := hread parsed.1 parsed.2 hparsed
      omega
  · exact (paid_countedAction.consumes logs_countedAction).weaken (by decide)
  · exact consumes_parseAuthorization.weaken (by decide)

/-- A vector that claims four billion actions and has none. -/
example : (elementReads [0, 0, 0, 0, 0, 0, 0, 0, 0, 0, 0, 0, 0, 0xff, 0xff, 0xff, 0xff,
    0x0f]).length = 1 := by decide

end AntelopeFirewall.De
