import AntelopeFirewall.De
import AntelopeFirewall.Library.Wire

/-!
# The Wire Format of Transactions

What the decoder reads is written here the other way round: a transaction with its names as
the numbers they are on the chain, its encoding field by field, and the law that decoding
undoes encoding and takes nothing but the encoding.

- `RawTransaction` and its parts are what travels; a vector is no longer than its length field
  can say,
- `encode` is the encoding of each part, `decoded` what the decoder makes of it,
- `fromBytes_encode` is the law, one `reads_…` lemma for each reader leads to it.
-/

namespace AntelopeFirewall.De

open Library Library.Wire

/-! ## What travels -/

/-- A vector with a length of 32 bits. -/
abbrev Counted (α : Type) := { xs : List α // xs.length < 2 ^ 32 }

structure RawAuthorization where
  actor : UInt64
  permission : UInt64

structure RawAction where
  account : UInt64
  name : UInt64
  authorization : Counted RawAuthorization
  data : Counted UInt8

structure RawTransaction where
  expiration : UInt32
  refBlockNum : UInt16
  refBlockPrefix : UInt32
  maxNetUsageWords : UInt32
  maxCpuUsageMs : UInt8
  delaySec : UInt32
  ctxFreeActions : Counted RawAction
  actions : Counted RawAction

/-! ## Encoding -/

/-- A name is a 64-bit number. -/
def encodeName (n : UInt64) : List UInt8 := leBytes 8 n.toNat

/-- A vector is its length and its elements. -/
def encodeVec {α : Type} (encode : α → List UInt8) (xs : Counted α) : List UInt8 :=
  varuint xs.val.length ++ xs.val.flatMap encode

def RawAuthorization.encode (raw : RawAuthorization) : List UInt8 :=
  encodeName raw.actor ++ encodeName raw.permission

def RawAction.encode (raw : RawAction) : List UInt8 :=
  encodeName raw.account ++ (encodeName raw.name ++
    (encodeVec RawAuthorization.encode raw.authorization ++ encodeVec (fun b => [b]) raw.data))

def RawTransaction.encode (raw : RawTransaction) : List UInt8 :=
  leBytes 4 raw.expiration.toNat ++ (leBytes 2 raw.refBlockNum.toNat ++
    (leBytes 4 raw.refBlockPrefix.toNat ++ (varuint raw.maxNetUsageWords.toNat ++
      ([raw.maxCpuUsageMs] ++ (varuint raw.delaySec.toNat ++
        (encodeVec RawAction.encode raw.ctxFreeActions ++
          encodeVec RawAction.encode raw.actions))))))

/-! ## What is decoded -/

def decodedName (n : UInt64) : Name := ⟨nameToString n⟩

def RawAuthorization.decoded (raw : RawAuthorization) : Authorization :=
  ⟨decodedName raw.actor, decodedName raw.permission⟩

def RawAction.decoded (raw : RawAction) : Action :=
  ⟨decodedName raw.account, decodedName raw.name,
    raw.authorization.val.map RawAuthorization.decoded, raw.data.val⟩

def RawTransaction.decoded (raw : RawTransaction) : Transaction :=
  ⟨raw.expiration, raw.refBlockNum, raw.refBlockPrefix, raw.maxNetUsageWords,
    raw.maxCpuUsageMs, raw.delaySec, raw.ctxFreeActions.val.map RawAction.decoded,
    raw.actions.val.map RawAction.decoded⟩

/-! ## Integers -/

theorem fromLeBytes_leBytes (width n : Nat) : fromLeBytes (leBytes width n) = n % 256 ^ width := by
  induction width generalizing n with
  | zero => simp [leBytes, fromLeBytes, Nat.mod_one]
  | succ width ih =>
    have hbyte : (UInt8.ofNat (n % 256)).toNat = n % 256 := by simp
    have hstep : fromLeBytes (leBytes (width + 1) n) =
        (UInt8.ofNat (n % 256)).toNat + 256 * fromLeBytes (leBytes width (n / 256)) := rfl
    rw [hstep, ih, hbyte, pow_succ', Nat.mod_mul]

/-- A number that fits its width is read back. -/
theorem fromLeBytes_of_lt {width n : Nat} (h : n < 256 ^ width) :
    fromLeBytes (leBytes width n) = n := by
  rw [fromLeBytes_leBytes, Nat.mod_eq_of_lt h]

theorem reads_parseU8 (b : UInt8) : Reads parseU8 [b] b where
  complete := fun _ => rfl
  truncated := fun cut hpre hne => by
    rcases List.prefix_cons_iff.mp hpre with rfl | ⟨rest, rfl, hrest⟩
    · exact ⟨.eof, rfl⟩
    · rw [List.prefix_nil.mp hrest] at hne
      exact absurd rfl hne

theorem reads_nextBytes {n : Nat} {bytes : List UInt8} (hlength : bytes.length = n) :
    Reads (nextBytes n) bytes bytes where
  complete := fun rest => by
    unfold nextBytes
    rw [if_neg (by simp [hlength]), List.splitAt_eq, List.take_left' hlength,
      List.drop_left' hlength]
  truncated := fun cut hpre hne => by
    have hshort : cut.length < n := by
      have hle := hpre.length_le
      have hlt : cut.length ≠ bytes.length := fun hsame => hne (hpre.eq_of_length hsame)
      omega
    refine ⟨.eof, ?_⟩
    unfold nextBytes
    exact if_pos hshort

theorem reads_parseU16 (n : UInt16) : Reads parseU16 (leBytes 2 n.toNat) n := by
  have hread := (reads_nextBytes (length_leBytes 2 n.toNat)).map
    fun bytes => UInt16.ofNat (fromLeBytes bytes)
  rw [fromLeBytes_of_lt (by simpa using n.toNat_lt), UInt16.ofNat_toNat] at hread
  exact hread

theorem reads_parseU32 (n : UInt32) : Reads parseU32 (leBytes 4 n.toNat) n := by
  have hread := (reads_nextBytes (length_leBytes 4 n.toNat)).map
    fun bytes => UInt32.ofNat (fromLeBytes bytes)
  rw [fromLeBytes_of_lt (by simpa using n.toNat_lt), UInt32.ofNat_toNat] at hread
  exact hread

theorem reads_parseU64 (n : UInt64) : Reads parseU64 (leBytes 8 n.toNat) n := by
  have hread := (reads_nextBytes (length_leBytes 8 n.toNat)).map
    fun bytes => UInt64.ofNat (fromLeBytes bytes)
  rw [fromLeBytes_of_lt (by simpa using n.toNat_lt), UInt64.ofNat_toNat] at hread
  exact hread

theorem reads_parseName (n : UInt64) : Reads parseName (encodeName n) (decodedName n) :=
  (reads_parseU64 n).map fun n => (⟨nameToString n⟩ : Name)

/-! ## Varuints -/

/-- The seven bits that a byte carries. -/
theorem toNat_and_low (m : Nat) : (UInt8.ofNat m &&& 0x7f).toNat = m % 128 := by
  have hmask := Nat.and_two_pow_sub_one_eq_mod (m % 256) 7
  simp only [UInt8.toNat_and, UInt8.toNat_ofNat']
  show m % 256 &&& 2 ^ 7 - 1 = _
  rw [hmask]
  omega

/-- The bit that says that more follows. -/
theorem and_high_eq_zero_iff {m : Nat} (h : m < 256) :
    UInt8.ofNat m &&& 0x80 = 0 ↔ m < 128 := by
  rw [← UInt8.toNat_inj]
  simp only [UInt8.toNat_and, UInt8.toNat_ofNat', Nat.mod_eq_of_lt h]
  show m &&& 2 ^ 7 = 0 ↔ _
  rw [Nat.and_two_pow, Nat.testBit_eq_decide_div_mod_eq]
  simp
  omega

/-- One turn of the loop puts the bits of a byte above those of the value so far. -/
theorem toNat_or_shift {value bit : UInt32} {m : Nat} (hbit : bit.toNat < 32)
    (hvalue : value.toNat < 2 ^ bit.toNat)
    (hfits : m % 128 * 2 ^ bit.toNat + value.toNat < 2 ^ 32) :
    (value ||| ((UInt8.ofNat m &&& 0x7f).toUInt32 <<< bit)).toNat =
      m % 128 * 2 ^ bit.toNat + value.toNat := by
  have hlow : (UInt8.ofNat m &&& 0x7f).toUInt32.toNat = m % 128 := by
    rw [UInt8.toNat_toUInt32, toNat_and_low]
  have hshift : ((UInt8.ofNat m &&& 0x7f).toUInt32 <<< bit).toNat = m % 128 * 2 ^ bit.toNat := by
    rw [UInt32.toNat_shiftLeft, hlow, Nat.mod_eq_of_lt hbit, Nat.shiftLeft_eq,
      Nat.mod_eq_of_lt (by omega)]
  rw [UInt32.toNat_or, hshift, Nat.or_comm, Nat.mul_comm,
    Nat.two_pow_add_eq_or_of_lt hvalue]

theorem parseVaruintFrom_last {x : UInt8} (h : x &&& 0x80 = 0) (value bit : UInt32)
    (left : List UInt8) :
    parseVaruintFrom value bit (x :: left) =
      .ok (value ||| ((x &&& 0x7f).toUInt32 <<< bit), left) := if_pos h

theorem parseVaruintFrom_more {x : UInt8} (h : ¬ x &&& 0x80 = 0) (value bit : UInt32)
    (left : List UInt8) :
    parseVaruintFrom value bit (x :: left) =
      parseVaruintFrom (value ||| ((x &&& 0x7f).toUInt32 <<< bit)) (bit + 7) left := if_neg h

/-- The loop adds the number it reads above the value so far. -/
theorem parseVaruintFrom_varuint {n : Nat} {value bit : UInt32} (hbit : bit.toNat < 32)
    (hvalue : value.toNat < 2 ^ bit.toNat) (hfits : n * 2 ^ bit.toNat + value.toNat < 2 ^ 32)
    (rest : List UInt8) :
    ∃ read, parseVaruintFrom value bit (varuint n ++ rest) = .ok (read, rest) ∧
      read.toNat = n * 2 ^ bit.toNat + value.toNat := by
  induction n using Nat.strongRecOn generalizing value bit with
  | ind n ih =>
    by_cases hsmall : n < 128
    · -- the last byte
      have hlast := (and_high_eq_zero_iff (m := n) (by omega)).mpr hsmall
      have hmod : n % 128 = n := Nat.mod_eq_of_lt hsmall
      rw [varuint_small hsmall]
      refine ⟨_, parseVaruintFrom_last hlast value bit rest, ?_⟩
      rw [toNat_or_shift hbit hvalue (by rwa [hmod]), hmod]
    · obtain ⟨high, low, hlow, rfl⟩ : ∃ high low, low < 128 ∧ n = 128 * high + low :=
        ⟨n / 128, n % 128, Nat.mod_lt _ (by simp), (Nat.div_add_mod n 128).symm⟩
      have hdiv : (128 * high + low) / 128 = high := by omega
      have hmod : (128 + (128 * high + low) % 128) % 128 = low := by omega
      have hmore : ¬ UInt8.ofNat (128 + (128 * high + low) % 128) &&& 0x80 = 0 := by
        rw [and_high_eq_zero_iff (by omega)]
        omega
      -- there is room for seven more bits, since the number reaches beyond them
      have hhigh : 1 ≤ high := by omega
      have hpow : 2 ^ (bit.toNat + 7) = 128 * 2 ^ bit.toNat := by rw [pow_add, mul_comm]; rfl
      have htotal : (128 * high + low) * 2 ^ bit.toNat =
          high * 2 ^ (bit.toNat + 7) + low * 2 ^ bit.toNat := by rw [hpow]; ring
      rw [htotal] at hfits
      have hreach : 2 ^ (bit.toNat + 7) ≤ high * 2 ^ (bit.toNat + 7) :=
        Nat.le_mul_of_pos_left _ hhigh
      have hroom : bit.toNat + 7 < 32 := by
        rw [← Nat.pow_lt_pow_iff_right (a := 2) (by simp)]
        omega
      have hbit' : (bit + 7).toNat = bit.toNat + 7 := by
        rw [UInt32.toNat_add]
        exact Nat.mod_eq_of_lt (by
          show bit.toNat + 7 < 2 ^ 32
          omega)
      have hstep := toNat_or_shift (m := 128 + (128 * high + low) % 128) hbit hvalue
        (by rw [hmod]; omega)
      rw [hmod] at hstep
      have hlowest : low * 2 ^ bit.toNat ≤ 127 * 2 ^ bit.toNat :=
        Nat.mul_le_mul_right _ (by omega)
      have hvalue' : (value ||| ((UInt8.ofNat (128 + (128 * high + low) % 128) &&&
          0x7f).toUInt32 <<< bit)).toNat < 2 ^ (bit + 7).toNat := by
        rw [hbit', hstep, hpow]
        omega
      obtain ⟨read, hread, hsum⟩ := ih high (by omega) (by rwa [hbit']) hvalue'
        (by rw [hbit', hstep]; omega)
      refine ⟨read, ?_, ?_⟩
      · rw [varuint_large (by omega), hdiv, List.cons_append, parseVaruintFrom_more hmore]
        exact hread
      · rw [hsum, hbit', hstep, htotal]
        omega

/-- A number that ends early is not read. -/
theorem parseVaruintFrom_truncated {n : Nat} (value bit : UInt32) {cut : List UInt8}
    (hpre : cut <+: varuint n) (hne : cut ≠ varuint n) :
    parseVaruintFrom value bit cut = .error .eof := by
  induction n using Nat.strongRecOn generalizing value bit cut with
  | ind n ih =>
    by_cases hsmall : n < 128
    · rw [varuint_small hsmall] at hpre hne
      rcases List.prefix_cons_iff.mp hpre with rfl | ⟨rest, rfl, hrest⟩
      · rfl
      · rw [List.prefix_nil.mp hrest] at hne
        exact absurd rfl hne
    · have hlarge : 128 ≤ n := Nat.le_of_not_lt hsmall
      rw [varuint_large hlarge] at hpre hne
      have hmore : ¬ UInt8.ofNat (128 + n % 128) &&& 0x80 = 0 := by
        rw [and_high_eq_zero_iff (by omega)]
        omega
      rcases List.prefix_cons_iff.mp hpre with rfl | ⟨rest, rfl, hrest⟩
      · rfl
      · -- the first byte asks for more, and what is left of the rest is cut as well
        rw [parseVaruintFrom_more hmore]
        apply ih (n / 128) (by omega) _ _ hrest
        intro hsame
        rw [hsame] at hne
        exact hne rfl

theorem reads_parseVaruint {n : Nat} (h : n < 2 ^ 32) :
    Reads parseVaruint (varuint n) (UInt32.ofNat n) where
  complete := fun rest => by
    have hbit : (0 : UInt32).toNat < 32 := by simp
    have hzero : (0 : UInt32).toNat < 2 ^ (0 : UInt32).toNat := by simp
    obtain ⟨read, hread, hvalue⟩ := parseVaruintFrom_varuint (n := n) hbit hzero
      (by simpa using h) rest
    have hsame : read = UInt32.ofNat n := by
      rw [← UInt32.toNat_inj, hvalue, UInt32.toNat_ofNat_of_lt' h]
      simp
    unfold parseVaruint
    rw [hread, hsame]
  truncated := fun _ hpre hne => ⟨.eof, parseVaruintFrom_truncated 0 0 hpre hne⟩

/-! ## Vectors and structures -/

theorem parseElements_eq {α : Type} (element : Deserializer α) (n : Nat) :
    parseElements element n = elements element n := by
  induction n with
  | zero => rfl
  | succ n ih =>
    unfold parseElements elements
    rw [ih]

theorem reads_parseVec {α γ : Type} {element : Deserializer α} {encode : γ → List UInt8}
    {value : γ → α} (h : ∀ x, Reads element (encode x) (value x)) (xs : Counted γ) :
    Reads (parseVec element) (encodeVec encode xs) (xs.val.map value) := by
  refine (reads_parseVaruint xs.property).bind ?_
  rw [UInt32.toNat_ofNat_of_lt' xs.property, parseElements_eq]
  exact Reads.elements fun x _ => h x

theorem reads_parseAuthorization (raw : RawAuthorization) :
    Reads parseAuthorization raw.encode raw.decoded :=
  (reads_parseName raw.actor).bind
    ((reads_parseName raw.permission).map (Authorization.mk (decodedName raw.actor)))

theorem reads_parseAction (raw : RawAction) : Reads parseAction raw.encode raw.decoded := by
  have hdata := reads_parseVec reads_parseU8 raw.data
  rw [List.map_id''] at hdata
  · exact (reads_parseName raw.account).bind ((reads_parseName raw.name).bind
      ((reads_parseVec reads_parseAuthorization raw.authorization).bind (hdata.map _)))
  · exact fun _ => rfl

/-- **Transactions** are read as they are encoded. -/
theorem reads_parseTransaction (raw : RawTransaction) :
    Reads parseTransaction raw.encode raw.decoded := by
  have hwords := reads_parseVaruint raw.maxNetUsageWords.toNat_lt
  have hdelay := reads_parseVaruint raw.delaySec.toNat_lt
  rw [UInt32.ofNat_toNat] at hwords hdelay
  refine (reads_parseU32 raw.expiration).bind ((reads_parseU16 raw.refBlockNum).bind
    ((reads_parseU32 raw.refBlockPrefix).bind (hwords.bind
      ((reads_parseU8 raw.maxCpuUsageMs).bind (hdelay.bind
        ((reads_parseVec reads_parseAction raw.ctxFreeActions).bind
          ((reads_parseVec reads_parseAction raw.actions).map _)))))))

/-- **Decoding undoes encoding**: whatever follows the encoding of a transaction, decoding
returns the transaction and has consumed exactly the encoding; and no part of the encoding
that ends early is decoded. -/
theorem fromBytes_encode (raw : RawTransaction) :
    (∀ rest, parseTransaction (raw.encode ++ rest) = .ok (raw.decoded, rest) ∧
      fromBytes (raw.encode ++ rest) = .ok raw.decoded) ∧
    ∀ cut, cut <+: raw.encode → cut ≠ raw.encode → ∃ error, fromBytes cut = .error error := by
  have hreads := reads_parseTransaction raw
  constructor
  · intro rest
    have hparsed := hreads.complete rest
    refine ⟨hparsed, ?_⟩
    unfold fromBytes
    rw [hparsed]
    rfl
  · intro cut hpre hne
    obtain ⟨error, herror⟩ := hreads.truncated cut hpre hne
    refine ⟨error, ?_⟩
    unfold fromBytes
    rw [herror]
    rfl

end AntelopeFirewall.De
