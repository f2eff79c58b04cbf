import AntelopeFirewall.De
import AntelopeFirewall.Library.BitGroups
import AntelopeFirewall.Library.CommaList

/-!
# Account Names as Numbers and as Text

The chain has account names as 64-bit numbers, the configuration and the filter have them as
text. `name_to_string` writes a number in digits of five bits from its top down, the last one
of four bits, and leaves out the dots at the end.

- `nextDigit_eq` is what the inner loop takes off the number, and `nameDigits_eq` says that the
  outer loop cuts the number into digits,
- `charDigit` reads a character back,
- `nameToString_readsBack` says that the text stands for the number, so that two numbers never
  have the same text.
-/

namespace AntelopeFirewall.De

open Library Library.BitGroups

/-! ## The alphabet -/

/-- The characters of the digits from zero on. -/
def alphabet : List Char := ".12345abcdefghijklmnopqrstuvwxyz".toList

/-- The characters of the digits that have four bits. -/
def shortAlphabet : List Char := ".12345abcdefghij".toList

/-- The digit of a character. -/
def charDigit (c : Char) : Nat := alphabet.idxOf c

/-- The number that a text stands for: its characters are the digits of 64 bits from the top,
twelve of five bits and one of the four that are left, and those that are missing are zero. -/
def readName (text : String) : Nat := paste 5 64 (text.toList.map charDigit)

/-- The character of a digit of at most five bits is in its place in the alphabet. -/
theorem charDigit_digitChar : ∀ d < 32, charDigit (digitChar (UInt32.ofNat d)) = d := by
  decide

theorem digitChar_mem_alphabet : ∀ d < 32, digitChar (UInt32.ofNat d) ∈ alphabet := by
  decide

theorem digitChar_mem_shortAlphabet : ∀ d < 16, digitChar (UInt32.ofNat d) ∈ shortAlphabet := by
  decide

/-- The dot is the digit zero. -/
theorem digitChar_eq_dot : ∀ d < 32, digitChar (UInt32.ofNat d) = '.' ↔ d = 0 := by
  decide

/-! ## The loops -/

/-- A byte of a number. -/
theorem getD_toLeBytes (n : UInt64) {i : Nat} (hi : i < 8) :
    ((toLeBytes n).getD i 0).toNat = n.toNat / 2 ^ (8 * i) % 256 := by
  have hshift : (8 * i).toUInt64.toNat = 8 * i := by
    show (UInt64.ofNat (8 * i)).toNat = 8 * i
    exact UInt64.toNat_ofNat_of_lt' (by show 8 * i < 2 ^ 64; omega)
  have hget : (toLeBytes n).getD i 0 = (n >>> (8 * i).toUInt64).toUInt8 := by
    unfold toLeBytes
    simp [List.getD_eq_getElem?_getD, List.getElem?_range hi]
  rw [hget, UInt64.toNat_toUInt8, UInt64.toNat_shiftRight, hshift,
    Nat.mod_eq_of_lt (by omega : 8 * i < 64), Nat.shiftRight_eq_div_pow]

/-- A bit of a number. -/
theorem bitAt_toLeBytes (n : UInt64) {bit : Nat} (hbit : bit < 64) :
    (bitAt (toLeBytes n) bit).toNat = n.toNat / 2 ^ bit % 2 := by
  have hshift : (bit % 8).toUInt32.toNat % 32 = bit % 8 := by
    show (UInt32.ofNat (bit % 8)).toNat % 32 = bit % 8
    rw [UInt32.toNat_ofNat_of_lt' (by show bit % 8 < 2 ^ 32; omega)]
    omega
  have hbyte : (bitAt (toLeBytes n) bit).toNat =
      n.toNat / 2 ^ (8 * (bit / 8)) % 2 ^ 8 / 2 ^ (bit % 8) % 2 := by
    unfold bitAt
    rw [UInt32.toNat_and, UInt32.toNat_shiftRight, hshift, UInt8.toNat_toUInt32,
      getD_toLeBytes n (by omega), Nat.shiftRight_eq_div_pow]
    exact Nat.and_one_is_mod _
  -- the bits of the byte from this one on are the number of a power of two
  have hsplit : 2 ^ 8 = 2 ^ (bit % 8) * (2 ^ (7 - bit % 8) * 2) := by
    rw [← pow_succ, ← pow_add]
    congr 1
    omega
  calc (bitAt (toLeBytes n) bit).toNat
      = n.toNat / 2 ^ (8 * (bit / 8)) / 2 ^ (bit % 8) % (2 ^ (7 - bit % 8) * 2) % 2 := by
        rw [hbyte, hsplit, Nat.mod_mul_right_div_self]
    _ = n.toNat / 2 ^ (8 * (bit / 8)) / 2 ^ (bit % 8) % 2 := Nat.mod_mul_left_mod ..
    _ = n.toNat / 2 ^ bit % 2 := by
        rw [Nat.div_div_eq_div_mul, ← pow_add, Nat.div_add_mod]

/-- A bit goes below those of the digit, when there is room for one more. -/
theorem toNat_shift_or {c bit : UInt32} (hc : c.toNat < 2 ^ 31) (hbit : bit.toNat < 2) :
    ((c <<< 1) ||| bit).toNat = 2 * c.toNat + bit.toNat := by
  have hshift : (c <<< 1).toNat = 2 ^ 1 * c.toNat := by
    rw [UInt32.toNat_shiftLeft, Nat.shiftLeft_eq, Nat.mul_comm]
    exact Nat.mod_eq_of_lt (by show 2 ^ 1 * c.toNat < 2 ^ 32; omega)
  rw [UInt32.toNat_or, hshift, ← Nat.two_pow_add_eq_or_of_lt (i := 1) (by simpa using hbit),
    pow_one]

/-- **The inner loop** appends to the digit the bits of its turns, or all that are left. -/
theorem nextDigit_eq (n : UInt64) {turns left : Nat} {c : UInt32} (hleft : left ≤ 64)
    (hc : (c.toNat + 1) * 2 ^ turns ≤ 2 ^ 32) :
    (nextDigit (toLeBytes n) turns left c).1.toNat =
        c.toNat * 2 ^ min turns left +
          n.toNat / 2 ^ (left - min turns left) % 2 ^ min turns left ∧
      (nextDigit (toLeBytes n) turns left c).2 = left - min turns left := by
  induction turns generalizing left c with
  | zero => simp [nextDigit, Nat.mod_one]
  | succ turns ih =>
    cases left with
    | zero => simp [nextDigit, Nat.mod_one]
    | succ left =>
      have hleft' : left ≤ 64 := by omega
      have hbit : (bitAt (toLeBytes n) left).toNat = n.toNat / 2 ^ left % 2 :=
        bitAt_toLeBytes n (by omega)
      have htwo : n.toNat / 2 ^ left % 2 < 2 := Nat.mod_lt _ Nat.two_pos
      have hroom : (2 * c.toNat + 1 + 1) * 2 ^ turns ≤ 2 ^ 32 := by
        calc (2 * c.toNat + 1 + 1) * 2 ^ turns
            = (c.toNat + 1) * 2 ^ (turns + 1) := by ring
          _ ≤ 2 ^ 32 := hc
      have hsmall : 2 * c.toNat + 1 + 1 ≤ 2 ^ 32 :=
        le_trans (Nat.le_mul_of_pos_right _ (Nat.two_pow_pos turns)) hroom
      have hshift : ((c <<< 1) ||| bitAt (toLeBytes n) left).toNat =
          2 * c.toNat + n.toNat / 2 ^ left % 2 := by
        rw [toNat_shift_or (by omega) (by rwa [hbit]), hbit]
      have hroom' : (((c <<< 1) ||| bitAt (toLeBytes n) left).toNat + 1) * 2 ^ turns ≤ 2 ^ 32 := by
        refine le_trans (Nat.mul_le_mul_right _ ?_) hroom
        omega
      obtain ⟨hdigit, hafter⟩ := ih hleft' hroom'
      have htaken : min (turns + 1) (left + 1) = min turns left + 1 := Nat.succ_min_succ ..
      rw [nextDigit, htaken, Nat.add_sub_add_right, hdigit, hafter, hshift]
      refine ⟨?_, rfl⟩
      -- the bit that was appended is the highest of those that are taken
      have htop : n.toNat / 2 ^ (left - min turns left) / 2 ^ min turns left =
          n.toNat / 2 ^ left := by
        rw [Nat.div_div_eq_div_mul, ← pow_add, Nat.sub_add_cancel (Nat.min_le_right ..)]
      rw [Nat.mod_pow_succ, htop]
      ring

/-- The digits of a number, as numbers of at most five bits. -/
def digits (n : UInt64) : List Nat := cut 5 n.toNat 64 64

/-- **The outer loop** cuts the number into digits. -/
theorem nameDigits_eq (n : UInt64) {turns left : Nat} (hleft : left ≤ 64) :
    nameDigits (toLeBytes n) turns left =
      (cut 5 n.toNat turns left).map fun d => digitChar (UInt32.ofNat d) := by
  induction turns generalizing left with
  | zero => rfl
  | succ turns ih =>
    cases left with
    | zero => rfl
    | succ left =>
      have hroom : ((0 : UInt32).toNat + 1) * 2 ^ 5 ≤ 2 ^ 32 := by decide
      obtain ⟨hdigit, hafter⟩ := nextDigit_eq n hleft hroom
      have hzero : (0 : UInt32).toNat = 0 := rfl
      rw [hzero, Nat.zero_mul, Nat.zero_add] at hdigit
      have hchar : (nextDigit (toLeBytes n) 5 (left + 1) 0).1 =
          UInt32.ofNat (n.toNat / 2 ^ (left + 1 - min 5 (left + 1)) % 2 ^ min 5 (left + 1)) := by
        rw [← hdigit, UInt32.ofNat_toNat]
      rw [nameDigits, cut, List.map_cons]
      show digitChar (nextDigit (toLeBytes n) 5 (left + 1) 0).1 ::
        nameDigits (toLeBytes n) turns (nextDigit (toLeBytes n) 5 (left + 1) 0).2 = _
      rw [hafter, hchar, ih (by omega)]

/-! ## The text -/

/-- A digit has at most five bits. -/
theorem digits_lt {n : UInt64} {d : Nat} (hd : d ∈ digits n) : d < 32 := by
  obtain ⟨i, hi⟩ := List.mem_iff_getElem?.mp hd
  obtain ⟨-, hlt⟩ := lt_of_getElem?_cut hi
  calc d < 2 ^ min 5 (64 - 5 * i) := hlt
    _ ≤ 2 ^ 5 := Nat.pow_le_pow_right Nat.two_pos (Nat.min_le_left ..)

/-- The text is that of the digits up to the last one that is not zero. -/
theorem toList_nameToString (n : UInt64) :
    (nameToString n).toList =
      ((digits n).rdropWhile (· = 0)).map fun d => digitChar (UInt32.ofNat d) := by
  unfold nameToString
  rw [String.toList_ofList, nameDigits_eq n le_rfl]
  apply CommaList.rdropWhile_map_of
  intro d hd
  exact decide_eq_decide.mpr (digitChar_eq_dot d (digits_lt hd))

/-- Read back, the text gives the digits up to the last one that is not zero. -/
theorem map_charDigit_nameToString (n : UInt64) :
    (nameToString n).toList.map charDigit = (digits n).rdropWhile (· = 0) := by
  rw [toList_nameToString, List.map_map]
  conv_rhs => rw [← List.map_id ((digits n).rdropWhile (· = 0))]
  apply List.map_congr_left
  intro d hd
  exact charDigit_digitChar d (digits_lt ((List.rdropWhile_prefix _ _).mem hd))

/-- The text stands for its number. -/
theorem readName_nameToString (n : UInt64) : readName (nameToString n) = n.toNat := by
  have hwhole : paste 5 64 (digits n) = n.toNat % 2 ^ 64 := paste_cut (by decide) le_rfl
  unfold readName
  rw [map_charDigit_nameToString, paste_rdropWhile, hwhole, Nat.mod_eq_of_lt n.toNat_lt]

/-- Each character of the text is that of the digit in its place. -/
theorem digit_of_getElem? {n : UInt64} {i : Nat} {c : Char}
    (h : (nameToString n).toList[i]? = some c) :
    ∃ d, 5 * i < 64 ∧ d < 2 ^ min 5 (64 - 5 * i) ∧ digitChar (UInt32.ofNat d) = c := by
  rw [toList_nameToString, List.getElem?_map, Option.map_eq_some_iff] at h
  obtain ⟨d, hd, rfl⟩ := h
  obtain ⟨hi, rfl⟩ := List.getElem?_eq_some_iff.mp hd
  have hwhole := List.prefix_iff_getElem?.mp (List.rdropWhile_prefix _ (digits n)) i hi
  obtain ⟨hplace, hlt⟩ := lt_of_getElem?_cut hwhole
  exact ⟨_, hplace, hlt, rfl⟩

theorem getLast?_nameToString (n : UInt64) : (nameToString n).toList.getLast? ≠ some '.' := by
  intro hlast
  unfold nameToString at hlast
  rw [String.toList_ofList] at hlast
  have hne := List.ne_nil_of_mem (List.mem_of_getLast? hlast)
  rw [List.getLast?_eq_some_getLast hne, Option.some.injEq] at hlast
  exact List.rdropWhile_last_not _ _ hne (decide_eq_true hlast)

/-- **Account names render without collision**: the text of a number has at most thirteen
characters of the alphabet, it does not end in a dot and it stands for the number, so no other
number has it. -/
theorem nameToString_readsBack (n : UInt64) :
    (nameToString n).toList.length ≤ 13 ∧
      (∀ c ∈ (nameToString n).toList, c ∈ alphabet) ∧
      (∀ c, (nameToString n).toList[12]? = some c → c ∈ shortAlphabet) ∧
      (nameToString n).toList.getLast? ≠ some '.' ∧
      readName (nameToString n) = n.toNat ∧
      ∀ m, nameToString m = nameToString n → m = n := by
  refine ⟨?_, ?_, ?_, getLast?_nameToString n, readName_nameToString n, ?_⟩
  · -- a fourteenth digit would have no bits
    by_contra hlong
    obtain ⟨d, hplace, -, -⟩ := digit_of_getElem? (n := n) (i := 13)
      (List.getElem?_eq_getElem (by omega))
    omega
  · intro c hc
    obtain ⟨i, hi⟩ := List.mem_iff_getElem?.mp hc
    obtain ⟨d, -, hd, rfl⟩ := digit_of_getElem? hi
    exact digitChar_mem_alphabet d
      (lt_of_lt_of_le hd (Nat.pow_le_pow_right Nat.two_pos (Nat.min_le_left ..)))
  · intro c hc
    obtain ⟨d, -, hd, rfl⟩ := digit_of_getElem? hc
    exact digitChar_mem_shortAlphabet d hd
  · intro m hm
    apply UInt64.toNat.inj
    rw [← readName_nameToString m, hm, readName_nameToString]

/-- The last of thirteen digits has four bits. -/
example : nameToString 0xffffffffffffffff = "zzzzzzzzzzzzj" := by decide

end AntelopeFirewall.De
