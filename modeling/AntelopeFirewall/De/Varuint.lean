import AntelopeFirewall.De.Encoding

/-!
# Malformed Varuints

The loop of `parse_varuint` goes on as long as the input sets the continuation bit, and its
shift grows by seven in every turn. A varuint of 32 bits has at most five bytes, and the fifth
carries four bits.

- `ReadsSafely` is what one call owes: no shift past the word, and a value that is the base-128
  number of at most five bytes,
- `endsInTime` is what it asks of its input, and `readsSafely_iff` compares the two,
- `loggedTransaction` is the decoder with a log of the inputs of these calls, and
  `decodesSafely_iff` is the comparison for all of them.
-/

namespace AntelopeFirewall.De

open Library Library.Wire

/-! ## One call -/

/-- The number in groups of seven bits, lowest first. -/
def base128 (bytes : List UInt8) : Nat := bytes.foldr (fun b n => b.toNat % 128 + 128 * n) 0

@[simp] theorem base128_cons (b : UInt8) (bytes : List UInt8) :
    base128 (b :: bytes) = b.toNat % 128 + 128 * base128 bytes := rfl

@[simp] theorem base128_nil : base128 [] = 0 := rfl

/-- The shift amounts that the loop uses, from the one it has reached. -/
def shifts (bit : UInt32) : List UInt8 → List UInt32
  | [] => []
  | x :: left => bit :: if x &&& 0x80 = 0 then [] else shifts (bit + 7) left

/-- What a call owes from a turn on: the shifts stay below 32, and a value that it returns is
the one so far with the base-128 number of the bytes it consumes above it. Five bytes are the
most a varuint has, and five times seven bits are 35. -/
structure SafeFrom (value bit : UInt32) (input : List UInt8) : Prop where
  shifts_lt : ∀ shift ∈ shifts bit input, shift.toNat < 32
  value_eq : ∀ read left, parseVaruintFrom value bit input = .ok (read, left) →
    ∃ consumed, input = consumed ++ left ∧ bit.toNat + 7 * consumed.length ≤ 35 ∧
      value.toNat + base128 consumed * 2 ^ bit.toNat < 2 ^ 32 ∧
      read.toNat = value.toNat + base128 consumed * 2 ^ bit.toNat

/-- One call of `parse_varuint` is safe: every shift is by less than 32 bits, and a value that
it returns is the base-128 number of the bytes it has consumed, at most five, and fits. -/
structure ReadsSafely (input : List UInt8) : Prop where
  shifts_lt : ∀ shift ∈ shifts 0 input, shift.toNat < 32
  value_eq : ∀ read left, parseVaruint input = .ok (read, left) →
    ∃ consumed, input = consumed ++ left ∧ consumed.length ≤ 5 ∧
      base128 consumed < 2 ^ 32 ∧ read.toNat = base128 consumed

/-- From the byte with an index on, the varuint or the input ends before a sixth byte, and a
fifth byte that ends it is below 16. -/
def endsInTime : Nat → List UInt8 → Bool
  | _, [] => true
  | i, x :: left =>
    i < 5 && if x &&& 0x80 = 0 then i < 4 || x < 16 else endsInTime (i + 1) left

/-! ### One turn -/

/-- The low bits of a byte go above the value so far, when there is room for them. -/
theorem toNat_turn {x : UInt8} {value bit : UInt32} (hbit : bit.toNat < 32)
    (hvalue : value.toNat < 2 ^ bit.toNat)
    (hfits : x.toNat % 128 * 2 ^ bit.toNat + value.toNat < 2 ^ 32) :
    (value ||| ((x &&& 0x7f).toUInt32 <<< bit)).toNat =
      x.toNat % 128 * 2 ^ bit.toNat + value.toNat := by
  have hstep := toNat_or_shift (m := x.toNat) hbit hvalue hfits
  rwa [UInt8.ofNat_toNat] at hstep

theorem toNat_add_seven {bit : UInt32} (hbit : bit.toNat ≤ 28) :
    (bit + 7).toNat = bit.toNat + 7 := by
  have hroom : bit.toNat + 7 < 2 ^ 32 := by omega
  rw [UInt32.toNat_add]
  exact Nat.mod_eq_of_lt hroom

/-- A byte without the continuation bit carries all its bits. -/
theorem toNat_lt_of_last {x : UInt8} (h : x &&& 0x80 = 0) : x.toNat < 128 := by
  rw [← UInt8.ofNat_toNat (x := x), and_high_eq_zero_iff x.toNat_lt] at h
  exact h

/-- What the loop consumes is the front of its input. -/
theorem parseVaruintFrom_consumes {value bit read : UInt32} {input left : List UInt8}
    (h : parseVaruintFrom value bit input = .ok (read, left)) :
    ∃ consumed, input = consumed ++ left := by
  induction input generalizing value bit with
  | nil => cases h
  | cons x rest ih =>
    by_cases hlast : x &&& 0x80 = 0
    · rw [parseVaruintFrom_last hlast] at h
      cases h
      exact ⟨[x], rfl⟩
    · rw [parseVaruintFrom_more hlast] at h
      obtain ⟨consumed, rfl⟩ := ih h
      exact ⟨x :: consumed, rfl⟩

/-- At the last byte, safety is a matter of its bits. -/
theorem safeFrom_last {x : UInt8} (hlast : x &&& 0x80 = 0) {value bit : UInt32}
    (hbit : bit.toNat ≤ 28) (hvalue : value.toNat < 2 ^ bit.toNat) (left : List UInt8) :
    SafeFrom value bit (x :: left) ↔ x.toNat * 2 ^ bit.toNat + value.toNat < 2 ^ 32 := by
  have hsmall := Nat.mod_eq_of_lt (toNat_lt_of_last hlast)
  have hone : base128 [x] = x.toNat := by rw [base128_cons, base128_nil, hsmall, Nat.add_zero]
  constructor
  · -- the loop returns after this byte, so its value has to fit
    intro h
    obtain ⟨consumed, hinput, -, hfits, -⟩ :=
      h.value_eq _ left (parseVaruintFrom_last hlast value bit left)
    have hconsumed : consumed = [x] := List.append_cancel_right (hinput.symm.trans rfl)
    rw [hconsumed, hone] at hfits
    omega
  · intro hfits
    -- the only shift is that of this byte, and its value is what the loop returns
    refine ⟨?_, ?_⟩
    · intro shift hshift
      rw [shifts, if_pos hlast, List.mem_singleton] at hshift
      rw [hshift]
      omega
    · intro read rest hread
      rw [parseVaruintFrom_last hlast] at hread
      cases hread
      refine ⟨[x], rfl, by simp; omega, ?_, ?_⟩
      · rw [hone]
        omega
      · rw [toNat_turn (by omega) hvalue (by rwa [hsmall]), hsmall, hone]
        omega

/-- At any other byte it is a matter of what follows. -/
theorem safeFrom_more {x : UInt8} (hmore : ¬ x &&& 0x80 = 0) {value bit value' : UInt32}
    (hbit : bit.toNat ≤ 28)
    (hstep : value' = value ||| ((x &&& 0x7f).toUInt32 <<< bit))
    (hvalue : value'.toNat = x.toNat % 128 * 2 ^ bit.toNat + value.toNat) (left : List UInt8) :
    SafeFrom value bit (x :: left) ↔ SafeFrom value' (bit + 7) left := by
  have hnext := toNat_add_seven hbit
  have hshifts : shifts bit (x :: left) = bit :: shifts (bit + 7) left := by
    rw [shifts, if_neg hmore]
  have hparse : parseVaruintFrom value bit (x :: left) =
      parseVaruintFrom value' (bit + 7) left := by
    rw [parseVaruintFrom_more hmore, hstep]
  -- the sum is the same, whichever of the two the byte is counted to
  have hsum : ∀ consumed, value'.toNat + base128 consumed * 2 ^ (bit + 7).toNat =
      value.toNat + base128 (x :: consumed) * 2 ^ bit.toNat := by
    intro consumed
    rw [hvalue, hnext, base128_cons, pow_add]
    ring
  constructor
  · intro h
    refine ⟨?_, ?_⟩
    · intro shift hshift
      apply h.shifts_lt
      rw [hshifts]
      exact List.mem_cons_of_mem _ hshift
    · intro read rest hread
      obtain ⟨consumed, hinput, hlength, hfits, hvalue⟩ :=
        h.value_eq read rest (hparse.trans hread)
      obtain ⟨later, rfl⟩ := parseVaruintFrom_consumes hread
      have hconsumed : consumed = x :: later :=
        List.append_cancel_right (hinput.symm.trans rfl)
      subst hconsumed
      refine ⟨later, rfl, ?_, ?_, ?_⟩
      · rw [hnext]
        rw [List.length_cons] at hlength
        omega
      · rwa [hsum]
      · rwa [hsum]
  · intro h
    refine ⟨?_, ?_⟩
    · intro shift hshift
      rw [hshifts] at hshift
      rcases List.mem_cons.mp hshift with rfl | hshift
      · omega
      · exact h.shifts_lt shift hshift
    · intro read rest hread
      obtain ⟨consumed, rfl, hlength, hfits, hread'⟩ := h.value_eq read rest (hparse ▸ hread)
      refine ⟨x :: consumed, rfl, ?_, ?_, ?_⟩
      · rw [hnext] at hlength
        rw [List.length_cons]
        omega
      · rwa [← hsum]
      · rwa [← hsum]

/-- A varuint of which more is to come is not read. -/
theorem safeFrom_unfinished {x : UInt8} (hmore : ¬ x &&& 0x80 = 0) {bit : UInt32}
    (hbit : bit.toNat ≤ 28) (value : UInt32) : SafeFrom value bit [x] := by
  refine ⟨?_, ?_⟩
  · intro shift hshift
    have hbit' : shift = bit := by simpa [shifts, hmore] using hshift
    rw [hbit']
    omega
  · intro read left hread
    rw [parseVaruintFrom_more hmore] at hread
    cases hread

/-- **The loop**, from the turn with an index on: it is safe exactly when the varuint or the
input ends in time. -/
theorem safeFrom_iff {i : Nat} (hi : i ≤ 5) {value bit : UInt32} (hbit : bit.toNat = 7 * i)
    (hvalue : value.toNat < 2 ^ bit.toNat) (input : List UInt8) :
    SafeFrom value bit input ↔ endsInTime i input = true := by
  -- Induction on the input; at byte `i` the value has `7 * i` bits, and a sixth byte is too late.
  induction input generalizing i value bit with
  | nil =>
    -- an input that ends early returns nothing and shifts nothing too far
    refine ⟨fun _ => rfl, fun _ => ⟨by simp [shifts], ?_⟩⟩
    intro read left hread
    cases hread
  | cons x left ih =>
    rcases Nat.lt_or_eq_of_le hi with hlt | rfl
    · have hsmall : bit.toNat ≤ 28 := by omega
      by_cases hlast : x &&& 0x80 = 0
      · rw [safeFrom_last hlast hsmall hvalue]
        have hx := toNat_lt_of_last hlast
        simp only [endsInTime, hlt, hlast, decide_true, Bool.true_and, if_true, Bool.or_eq_true,
          decide_eq_true_eq]
        rcases Nat.lt_or_eq_of_le (Nat.le_of_lt_succ hlt) with hearly | rfl
        · -- there is room for seven bits
          refine iff_of_true ?_ (.inl hearly)
          have hroom : 2 ^ (bit.toNat + 7) ≤ 2 ^ 28 := Nat.pow_le_pow_right (by simp) (by omega)
          have hle : x.toNat * 2 ^ bit.toNat ≤ 127 * 2 ^ bit.toNat :=
            Nat.mul_le_mul_right _ (by omega)
          rw [pow_add] at hroom
          omega
        · -- the fifth byte has four bits left
          rw [hbit] at hvalue ⊢
          rw [UInt8.lt_iff_toNat_lt]
          simp
          omega
      -- the byte asks for another one
      · have hend : endsInTime i (x :: left) = endsInTime (i + 1) left := by
          simp [endsInTime, hlt, hlast]
        rw [hend]
        rcases Nat.lt_or_eq_of_le (Nat.le_of_lt_succ hlt) with hearly | rfl
        · have hroom : 2 ^ (bit.toNat + 7) ≤ 2 ^ 28 := Nat.pow_le_pow_right (by simp) (by omega)
          have hlow : x.toNat % 128 * 2 ^ bit.toNat ≤ 127 * 2 ^ bit.toNat :=
            Nat.mul_le_mul_right _ (by omega)
          rw [pow_add] at hroom
          have hturn := toNat_turn (x := x) (by omega) hvalue (by omega)
          have hnext := toNat_add_seven hsmall
          rw [safeFrom_more hlast hsmall rfl hturn]
          apply ih (by omega)
          · omega
          · rw [hturn, hnext, pow_add]
            omega
        · -- whatever follows the fifth byte is shifted too far
          cases left with
          | nil => exact iff_of_true (safeFrom_unfinished hlast hsmall value) rfl
          | cons sixth rest =>
            refine iff_of_false ?_ (by simp [endsInTime])
            intro h
            have hsixth := h.shifts_lt (bit + 7) (by simp [shifts, hlast])
            rw [toNat_add_seven hsmall] at hsixth
            omega
    -- the shift of the sixth byte is 35
    · refine iff_of_false ?_ (by simp [endsInTime])
      intro h
      have hsixth := h.shifts_lt bit (List.mem_cons_self ..)
      omega

/-- A call is safe exactly when its varuint, or its input, ends in time. -/
theorem readsSafely_iff (input : List UInt8) :
    ReadsSafely input ↔ endsInTime 0 input = true := by
  have hloop : SafeFrom 0 0 input ↔ endsInTime 0 input = true :=
    safeFrom_iff (Nat.zero_le 5) rfl (by simp) input
  rw [← hloop]
  have hzero : (0 : UInt32).toNat = 0 := rfl
  -- The value that has been read is 0 at the first byte, and nothing else differs.
  constructor
  · intro h
    refine ⟨h.shifts_lt, ?_⟩
    intro read left hread
    obtain ⟨consumed, hinput, hlength, hfits, hvalue⟩ := h.value_eq read left hread
    refine ⟨consumed, hinput, by omega, ?_, ?_⟩
    · rwa [hzero, pow_zero, Nat.zero_add, Nat.mul_one]
    · rwa [hzero, pow_zero, Nat.zero_add, Nat.mul_one]
  · intro h
    refine ⟨h.shifts_lt, ?_⟩
    intro read left hread
    obtain ⟨consumed, hinput, hlength, hfits, hvalue⟩ := h.value_eq read left hread
    rw [hzero, pow_zero, Nat.zero_add, Nat.mul_one] at hfits hvalue
    exact ⟨consumed, hinput, by omega, hfits, hvalue⟩

/-! ## All calls of a decoding -/

/-- The varuint of a length or of a field, with its input in the log. -/
def loggedVaruint : Logged UInt8 Error UInt32 := .logging parseVaruint

def loggedElements {α : Type} (element : Logged UInt8 Error α) :
    Nat → Logged UInt8 Error (List α)
  | 0 => return []
  | n + 1 => do
    let first ← element
    return first :: (← loggedElements element n)

def loggedVec {α : Type} (element : Logged UInt8 Error α) : Logged UInt8 Error (List α) := do
  let len ← loggedVaruint
  loggedElements element len.toNat

def loggedAction : Logged UInt8 Error Action := do
  let account ← .lift parseName
  let name ← .lift parseName
  let authorization ← loggedVec (.lift parseAuthorization)
  let data ← loggedVec (.lift parseU8)
  return ⟨account, name, authorization, data⟩

def loggedTransaction : Logged UInt8 Error Transaction := do
  let expiration ← .lift parseU32
  let refBlockNum ← .lift parseU16
  let refBlockPrefix ← .lift parseU32
  let maxNetUsageWords ← loggedVaruint
  let maxCpuUsageMs ← .lift parseU8
  let delaySec ← loggedVaruint
  let ctxFreeActions ← loggedVec loggedAction
  let actions ← loggedVec loggedAction
  return ⟨expiration, refBlockNum, refBlockPrefix, maxNetUsageWords, maxCpuUsageMs, delaySec,
    ctxFreeActions, actions⟩

theorem logs_loggedElements {α : Type} {m : Logged UInt8 Error α} {element : Deserializer α}
    (h : Logs m element) (n : Nat) : Logs (loggedElements m n) (parseElements element n) := by
  induction n with
  | zero => exact logs_pure []
  | succ n ih => exact h.bind fun first => ih.bind fun rest => logs_pure (first :: rest)

theorem logs_loggedVec {α : Type} {m : Logged UInt8 Error α} {element : Deserializer α}
    (h : Logs m element) : Logs (loggedVec m) (parseVec element) :=
  (logs_logging parseVaruint).bind fun len => logs_loggedElements h len.toNat

theorem logs_loggedAction : Logs loggedAction parseAction :=
  (logs_lift parseName).bind fun _ => (logs_lift parseName).bind fun _ =>
    (logs_loggedVec (logs_lift parseAuthorization)).bind fun _ =>
      (logs_loggedVec (logs_lift parseU8)).bind fun _ => logs_pure _

/-- **The log changes nothing**: the decoder with the log decodes what the decoder does. -/
theorem logs_loggedTransaction : Logs loggedTransaction parseTransaction :=
  (logs_lift parseU32).bind fun _ => (logs_lift parseU16).bind fun _ =>
    (logs_lift parseU32).bind fun _ => (logs_logging parseVaruint).bind fun _ =>
      (logs_lift parseU8).bind fun _ => (logs_logging parseVaruint).bind fun _ =>
        (logs_loggedVec logs_loggedAction).bind fun _ =>
          (logs_loggedVec logs_loggedAction).bind fun _ => logs_pure _

/-- The inputs that decoding some bytes calls `parse_varuint` on. -/
def varuintInputs (bytes : List UInt8) : List (List UInt8) := (loggedTransaction.run bytes).1

/-- Every call that decoding some bytes makes is safe. -/
def DecodesSafely (bytes : List UInt8) : Prop := ∀ input ∈ varuintInputs bytes, ReadsSafely input

/-- **Decoding** any bytes is safe exactly when each varuint that it comes to, or the input,
ends within five bytes, the fifth of them below 16. -/
theorem decodesSafely_iff (bytes : List UInt8) :
    DecodesSafely bytes ↔ ∀ input ∈ varuintInputs bytes, endsInTime 0 input = true := by
  unfold DecodesSafely
  simp only [readsSafely_iff]

/-- A transaction without actions, whose first varuint has six bytes and is `2 ^ 35`. -/
def overlong : List UInt8 :=
  List.replicate 10 0 ++ [0x80, 0x80, 0x80, 0x80, 0x80, 0x01] ++ [0, 0, 0, 0]

/-- The same with a first varuint of five bytes, the last one of them too large. -/
def overflowing : List UInt8 :=
  List.replicate 10 0 ++ [0xff, 0xff, 0xff, 0xff, 0x7f] ++ [0, 0, 0, 0]

/-- Both are decoded. The shift by 35 bits is one by three, so that the first number is read as
eight, and the bits of the second that do not fit are lost. -/
theorem malformed_decoded :
    ((fromBytes overlong).toOption.map Transaction.maxNetUsageWords = some 8 ∧
      35 ∈ shifts 0 (overlong.drop 10) ∧ ¬ DecodesSafely overlong) ∧
    ((fromBytes overflowing).toOption.map Transaction.maxNetUsageWords = some 0xffffffff ∧
      base128 [0xff, 0xff, 0xff, 0xff, 0x7f] = 2 ^ 35 - 1 ∧ ¬ DecodesSafely overflowing) := by
  have hlong : overlong.drop 10 ∈ varuintInputs overlong := by decide
  have hover : overflowing.drop 10 ∈ varuintInputs overflowing := by decide
  refine ⟨⟨by decide, by decide +kernel, ?_⟩, by decide +kernel, by decide +kernel, ?_⟩
  · intro h
    have hends := (readsSafely_iff _).mp (h _ hlong)
    revert hends
    decide
  · intro h
    have hends := (readsSafely_iff _).mp (h _ hover)
    revert hends
    decide

end AntelopeFirewall.De
