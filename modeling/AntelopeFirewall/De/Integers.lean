import AntelopeFirewall.De.Encoding
import Mathlib.Tactic.NormNum

/-!
# The Integer Parsers

The decoder has a parser for every fixed-width integer. All but the two for single bytes are
copies of one routine: take as many bytes as an integer type has, copy them into a buffer of
zeros and read the buffer. Each copy names its own type and writes out its own buffer, and a
copy between slices of different lengths panics.

- `parseWord` is the routine with the two sizes as parameters, `parseU8` to `parseI128` are the
  parsers of the source,
- `parse_eq` is what each of them computes,
- `parse_inverts_iff` says which of them invert the encoding of `encode`.
-/

namespace AntelopeFirewall.De.Integers

open Library Library.Wire

/-! ## The integer types -/

inductive IntType where
  | u8 | u16 | u32 | u64 | u128
  | i8 | i16 | i32 | i64 | i128
  deriving DecidableEq, Repr

namespace IntType

/-- The number of bytes. -/
def size : IntType → Nat
  | u8 | i8 => 1
  | u16 | i16 => 2
  | u32 | i32 => 4
  | u64 | i64 => 8
  | u128 | i128 => 16

def signed : IntType → Bool
  | u8 | u16 | u32 | u64 | u128 => false
  | i8 | i16 | i32 | i64 | i128 => true

/-- The values of a type. -/
def Contains (ty : IntType) (v : Int) : Prop :=
  if ty.signed then -2 ^ (8 * ty.size - 1) ≤ v ∧ v < 2 ^ (8 * ty.size - 1)
  else 0 ≤ v ∧ v < 2 ^ (8 * ty.size)

instance (ty : IntType) (v : Int) : Decidable (ty.Contains v) :=
  inferInstanceAs (Decidable (if ty.signed = true then _ ∧ _ else _ ∧ _))

/-- The little-endian bytes of a value, in two's complement. -/
def encode (ty : IntType) (v : Int) : List UInt8 := leBytes ty.size (v % 256 ^ ty.size).toNat

end IntType

/-! ## The parsers -/

/-- A call ends in an error of the decoder or in a panic. -/
inductive Failure where
  | error (error : Error)
  | panic
  deriving DecidableEq, Repr

abbrev Parser := StateT (List UInt8) (Except Failure)

/-- A step that never panics. -/
def calm {α : Type} (reader : Deserializer α) : Parser α := fun input =>
  match reader input with
  | .ok read => .ok read
  | .error error => .error (.error error)

/-- The value of some bytes without a sign. -/
def unsignedFromLeBytes (bytes : List UInt8) : Int := fromLeBytes bytes

/-- The value of some bytes in two's complement. -/
def signedFromLeBytes (bytes : List UInt8) : Int :=
  Int.bmod (fromLeBytes bytes) (256 ^ bytes.length)

/-- Overwrite a buffer with a slice of the same length. -/
def copyFromSlice (buffer slice : List UInt8) : Parser (List UInt8) :=
  if buffer.length = slice.length then return slice else throw .panic

/-- The routine: the bytes of an integer type, copied into a buffer. -/
def parseWord (typeSize bufferSize : Nat) (fromLeBytes : List UInt8 → Int) : Parser Int := do
  let bytes ← calm (nextBytes typeSize)
  let leBytes ← copyFromSlice (List.replicate bufferSize 0) bytes
  return fromLeBytes leBytes

def parseU8 : Parser Int := do return unsignedFromLeBytes [← calm nextByte]

def parseU16 : Parser Int := parseWord IntType.u16.size 2 unsignedFromLeBytes

def parseU32 : Parser Int := parseWord IntType.u32.size 4 unsignedFromLeBytes

def parseU64 : Parser Int := parseWord IntType.u64.size 8 unsignedFromLeBytes

def parseU128 : Parser Int := parseWord IntType.u128.size 16 unsignedFromLeBytes

def parseI8 : Parser Int := do return signedFromLeBytes [← calm nextByte]

def parseI16 : Parser Int := parseWord IntType.i16.size 2 signedFromLeBytes

def parseI32 : Parser Int := parseWord IntType.i32.size 4 signedFromLeBytes

-- the last two take the bytes of an `i32`

def parseI64 : Parser Int := parseWord IntType.i32.size 8 signedFromLeBytes

def parseI128 : Parser Int := parseWord IntType.i32.size 16 signedFromLeBytes

/-- The parser of a type. -/
def parse : IntType → Parser Int
  | .u8 => parseU8
  | .u16 => parseU16
  | .u32 => parseU32
  | .u64 => parseU64
  | .u128 => parseU128
  | .i8 => parseI8
  | .i16 => parseI16
  | .i32 => parseI32
  | .i64 => parseI64
  | .i128 => parseI128

/-! ## What a parser computes -/

theorem nextBytes_short {n : Nat} {input : List UInt8} (h : input.length < n) :
    nextBytes n input = .error .eof := if_pos h

theorem nextBytes_enough {n : Nat} {input : List UInt8} (h : ¬ input.length < n) :
    nextBytes n input = .ok (input.take n, input.drop n) := by
  rw [nextBytes, if_neg h, List.splitAt_eq]

section Calm

variable {α : Type} {reader : Deserializer α} {input : List UInt8}

theorem calm_error {error : Error} (h : reader input = .error error) :
    calm reader input = .error (.error error) := by
  rw [calm, h]

theorem calm_ok {read : α × List UInt8} (h : reader input = .ok read) :
    calm reader input = .ok read := by
  rw [calm, h]

end Calm

/-- The routine fails on fewer bytes than the type has, and panics on more if the buffer has
another length. -/
theorem parseWord_eq (typeSize bufferSize : Nat) (fromLeBytes : List UInt8 → Int)
    (input : List UInt8) :
    parseWord typeSize bufferSize fromLeBytes input =
      if input.length < typeSize then .error (.error .eof)
      else if bufferSize = typeSize then
        .ok (fromLeBytes (input.take typeSize), input.drop typeSize)
      else .error .panic := by
  by_cases hshort : input.length < typeSize
  · have hread := calm_error (nextBytes_short hshort)
    rw [if_pos hshort, parseWord, bind_error hread]
  · have hread := calm_ok (nextBytes_enough hshort)
    have hlength : (input.take typeSize).length = typeSize := by
      rw [List.length_take]
      omega
    rw [if_neg hshort, parseWord, bind_ok hread, copyFromSlice, List.length_replicate, hlength]
    split
    · rfl
    · rfl

/-- A single byte is read like a word of one byte. -/
theorem parseByte_eq (fromLeBytes : List UInt8 → Int) :
    (do return fromLeBytes [← calm nextByte] : Parser Int) = parseWord 1 1 fromLeBytes := by
  funext input
  rw [parseWord_eq]
  cases input with
  | nil => rfl
  | cons b rest => rfl

namespace IntType

/-- The value of some bytes for a type. -/
def fromLeBytes (ty : IntType) : List UInt8 → Int :=
  if ty.signed then signedFromLeBytes else unsignedFromLeBytes

/-- The bytes that the parser of a type asks for. -/
def asked : IntType → Nat
  | i64 | i128 => i32.size
  | ty => ty.size

/-- The types whose parser asks for as many bytes as they have. -/
theorem size_eq_asked_iff {ty : IntType} : ty.size = ty.asked ↔ ty ≠ .i64 ∧ ty ≠ .i128 := by
  cases ty <;> decide

/-- The others ask for four bytes, which are less than they have. -/
theorem asked_of_ne {ty : IntType} (h : ty.size ≠ ty.asked) : ty.asked = 4 ∧ 4 ≤ ty.size := by
  cases ty <;> revert h <;> decide

end IntType

/-- **Each parser** is the routine with its own two sizes. -/
theorem parse_eq (ty : IntType) : parse ty = parseWord ty.asked ty.size ty.fromLeBytes := by
  cases ty with
  | u8 => exact parseByte_eq unsignedFromLeBytes
  | i8 => exact parseByte_eq signedFromLeBytes
  | _ => rfl

/-- On fewer bytes than it asks for, a parser ends in the error of the decoder. -/
theorem parse_short {ty : IntType} {input : List UInt8} (h : input.length < ty.asked) :
    parse ty input = .error (.error .eof) := by
  rw [parse_eq, parseWord_eq, if_pos h]

/-- A parser that asks for the wrong number of bytes panics on all inputs with as many. -/
theorem parse_panics {ty : IntType} {input : List UInt8} (hasked : ty.size ≠ ty.asked)
    (h : ty.asked ≤ input.length) : parse ty input = .error .panic := by
  rw [parse_eq, parseWord_eq, if_neg (Nat.not_lt.mpr h), if_neg hasked]

/-- A parser that asks for the right number reads them. -/
theorem parse_append {ty : IntType} (hasked : ty.size = ty.asked) {bytes : List UInt8}
    (hlength : bytes.length = ty.size) (rest : List UInt8) :
    parse ty (bytes ++ rest) = .ok (ty.fromLeBytes bytes, rest) := by
  have henough : ¬ (bytes ++ rest).length < ty.size := by
    rw [List.length_append, hlength]
    omega
  rw [parse_eq, ← hasked, parseWord_eq, if_neg henough, if_pos rfl, List.take_left' hlength,
    List.drop_left' hlength]

theorem fromLeBytes_lt (bytes : List UInt8) : fromLeBytes bytes < 256 ^ bytes.length := by
  induction bytes with
  | nil => exact Nat.one_pos
  | cons b rest ih =>
    have hb := b.toNat_lt
    have hcons : fromLeBytes (b :: rest) = b.toNat + 256 * fromLeBytes rest := rfl
    rw [hcons, List.length_cons, pow_succ']
    omega

/-- A parser of the transaction format reads a machine word of the same bytes. -/
theorem parseWord_eq_calm {α : Type} {ofNat : Nat → α} {toNat : α → Nat} {size : Nat}
    (h : ∀ n < 256 ^ size, toNat (ofNat n) = n) :
    parseWord size size unsignedFromLeBytes =
      (do return (toNat (← calm (do return ofNat (fromLeBytes (← nextBytes size)))) : Int)) := by
  funext input
  rw [parseWord_eq]
  by_cases hshort : input.length < size
  · have hcalm : calm (do return ofNat (fromLeBytes (← nextBytes size))) input =
        .error (.error .eof) := calm_error (bind_error (nextBytes_short hshort))
    rw [if_pos hshort, bind_error hcalm]
  · have hcalm : calm (do return ofNat (fromLeBytes (← nextBytes size))) input =
        .ok (ofNat (fromLeBytes (input.take size)), input.drop size) :=
      calm_ok (bind_ok (nextBytes_enough hshort))
    have hlength : (input.take size).length = size := by
      rw [List.length_take]
      omega
    have hlt := fromLeBytes_lt (input.take size)
    rw [hlength] at hlt
    rw [if_neg hshort, if_pos rfl, bind_ok hcalm, h _ hlt]
    rfl

/-- The words of the transaction format are read by the same parsers. -/
theorem parse_eq_calm :
    parse .u16 = (do return ((← calm De.parseU16).toNat : Int)) ∧
      parse .u32 = (do return ((← calm De.parseU32).toNat : Int)) ∧
      parse .u64 = (do return ((← calm De.parseU64).toNat : Int)) := by
  refine ⟨parseWord_eq_calm ?_, parseWord_eq_calm ?_, parseWord_eq_calm ?_⟩
  · intro n hn
    exact UInt16.toNat_ofNat_of_lt' hn
  · intro n hn
    exact UInt32.toNat_ofNat_of_lt' hn
  · intro n hn
    exact UInt64.toNat_ofNat_of_lt' hn

/-! ## Encoding -/

namespace IntType

theorem length_encode (ty : IntType) (v : Int) : (ty.encode v).length = ty.size :=
  length_leBytes _ _

/-- **Round trip of the bytes**: a value of a type is the value of its bytes. -/
theorem fromLeBytes_encode {ty : IntType} {v : Int} (h : ty.Contains v) :
    ty.fromLeBytes (ty.encode v) = v := by
  have hpos : (0 : Int) < 256 ^ ty.size := pow_pos (by decide) _
  have hcast : ((256 ^ ty.size : Nat) : Int) = 256 ^ ty.size := by norm_cast
  have hbytes : (De.fromLeBytes (ty.encode v) : Int) = v % 256 ^ ty.size := by
    have hnonneg : 0 ≤ v % 256 ^ ty.size := Int.emod_nonneg v hpos.ne'
    have hlt : (v % 256 ^ ty.size).toNat < 256 ^ ty.size := by
      rw [Int.toNat_lt hnonneg, hcast]
      exact Int.emod_lt_of_pos v hpos
    rw [encode, fromLeBytes_of_lt hlt, Int.toNat_of_nonneg hnonneg]
  unfold Contains at h
  unfold fromLeBytes
  split at h
  · next hsigned =>
    -- half of the range is below zero
    have hhalf : (256 : Int) ^ ty.size = 2 * 2 ^ (8 * ty.size - 1) := by
      cases ty <;> norm_num [size]
    rw [if_pos hsigned, signedFromLeBytes, hbytes, length_encode, ← hcast, Int.emod_bmod]
    apply Int.bmod_eq_of_le_mul_two
    · rw [hcast, hhalf]
      omega
    · rw [hcast, hhalf]
      omega
  · next hunsigned =>
    have hwhole : (256 : Int) ^ ty.size = 2 ^ (8 * ty.size) := by
      rw [pow_mul]
      norm_num
    rw [if_neg hunsigned, unsignedFromLeBytes, hbytes, hwhole]
    exact Int.emod_eq_of_lt h.1 h.2

end IntType

/-! ## Which parsers invert the encoding -/

/-- **Which parsers invert the encoding**: all but those of `i64` and `i128`. These two ask for
four bytes, so of all inputs they handle those with less as they should. -/
theorem parse_inverts_iff (ty : IntType) :
    (∀ v, ty.Contains v → ∀ rest,
      (parse ty (ty.encode v ++ rest) = .ok (v, rest) ↔ ty ≠ .i64 ∧ ty ≠ .i128)) ∧
    ∀ input : List UInt8, input.length < ty.size →
      (parse ty input = .error (.error .eof) ↔
        (ty ≠ .i64 ∧ ty ≠ .i128) ∨ input.length < 4) := by
  rw [← IntType.size_eq_asked_iff]
  by_cases hasked : ty.size = ty.asked
  · refine ⟨?_, ?_⟩
    · intro v hv rest
      rw [parse_append hasked (ty.length_encode v), IntType.fromLeBytes_encode hv]
      exact iff_of_true rfl hasked
    · intro input hshort
      rw [hasked] at hshort
      exact iff_of_true (parse_short hshort) (.inl hasked)
  · obtain ⟨hfour, hsize⟩ := IntType.asked_of_ne hasked
    refine ⟨?_, ?_⟩
    · intro v hv rest
      -- the four bytes are there, so the copy into the longer buffer panics
      have hlong : ty.asked ≤ (ty.encode v ++ rest).length := by
        rw [List.length_append, ty.length_encode]
        omega
      rw [parse_panics hasked hlong]
      refine iff_of_false ?_ hasked
      intro hread
      cases hread
    · intro input _
      by_cases hfew : input.length < 4
      · rw [← hfour] at hfew
        exact iff_of_true (parse_short hfew) (.inr (by omega))
      · rw [parse_panics hasked (by omega)]
        refine iff_of_false ?_ (by omega)
        intro herror
        cases herror

/-- The eight bytes of one as an `i64`. -/
theorem parseI64_panics :
    IntType.i64.Contains 1 ∧ IntType.i64.encode 1 = [1, 0, 0, 0, 0, 0, 0, 0] ∧
      parseI64 [1, 0, 0, 0, 0, 0, 0, 0] = .error .panic ∧
      parseI64 [1, 0, 0, 0] = .error .panic :=
  ⟨by decide, by decide, rfl, rfl⟩

/-- The law for a type whose parser is right and for one whose parser is not. -/
theorem parse_inverts_iff_words :
    parse .i32 (IntType.i32.encode (-2) ++ [7]) = .ok (-2, [7]) ∧
      ¬ parse .i64 (IntType.i64.encode (-2) ++ [7]) = .ok (-2, [7]) := by
  have hi32 : IntType.i32.Contains (-2) := by decide
  have hi64 : IntType.i64.Contains (-2) := by decide
  refine ⟨((parse_inverts_iff .i32).1 (-2) hi32 [7]).mpr (by decide), ?_⟩
  rw [(parse_inverts_iff .i64).1 (-2) hi64 [7]]
  decide

end AntelopeFirewall.De.Integers
