import AntelopeFirewall.De.Schema

/-!
# What Decoding a Type Can End In

Decoding never looks ahead. Whether a type can be decoded at all, and whether some input makes the
process panic on the way, can therefore be read off the type.

- `Schema.accepts` and `Schema.panics` read it off,
- `Schema.local_decode` says that nothing behind the bytes of a value matters,
- `decode_ends_iff` has the two answers, `decode_encode` the round trip with them,
- `transactionSchema` is the type that the firewall decodes, `decode_transaction` says that the
  transaction decoder is the deserializer at this type.
-/

namespace AntelopeFirewall.De

open Library Library.Wire Integers

/-! ## Answers from the type -/

mutual

/-- Some input is decoded. -/
def Schema.accepts : Schema → Bool
  | .int ty => ty ≠ .i64 ∧ ty ≠ .i128
  | .char => false
  | .unimplemented _ => false
  | .newtype inner => inner.accepts
  -- an empty vector has no element
  | .vec _ => true
  | .tuple _ fields => fields.accepts
  | .struct _ fields => fields.accepts
  | _ => true

def Fields.accepts : ∀ {n : Nat}, Fields n → Bool
  | _, .nil => true
  | _, .cons first rest => first.accepts && rest.accepts

end

mutual

/-- Some input makes the process panic. -/
def Schema.panics : Schema → Bool
  | .int ty => ty = .i64 ∨ ty = .i128
  | .unimplemented _ => true
  | .newtype inner => inner.panics
  | .vec element => element.panics
  | .tuple _ fields => fields.panics
  | .struct _ fields => fields.panics
  | _ => false

def Fields.panics : ∀ {n : Nat}, Fields n → Bool
  | _, .nil => false
  -- a field is come to if those before it can be decoded
  | _, .cons first rest => first.panics || (first.accepts && rest.panics)

end

/-! ## The readers of the parts -/

theorem calm_eq {α : Type} (reader : Deserializer α) :
    calm reader = mapError Failure.error reader := by
  funext input
  cases hread : reader input with
  | error error => rw [calm_error hread, mapError_of_error hread]
  | ok read => rw [calm_ok hread, mapError_of_ok hread]

theorem local_nextByte : Local nextByte := by
  intro input b left h
  cases input with
  | nil => cases h
  | cons first rest =>
    cases h
    exact ⟨[b], rfl, fun _ => rfl⟩

theorem local_nextBytes (n : Nat) : Local (nextBytes n) := by
  intro input bytes left h
  by_cases hshort : input.length < n
  · rw [nextBytes_short hshort] at h
    cases h
  · rw [nextBytes_enough hshort] at h
    cases h
    have hlength : (input.take n).length = n := by
      rw [List.length_take]
      omega
    exact ⟨input.take n, (List.take_append_drop n input).symm, (reads_nextBytes hlength).complete⟩

theorem local_parseVaruint : Local parseVaruint := by
  -- For the induction: from any value and bit at which the loop can stand.
  suffices h : ∀ input (value bit : UInt32) read left,
      parseVaruintFrom value bit input = .ok (read, left) → ∃ taken, input = taken ++ left ∧
        ∀ rest, parseVaruintFrom value bit (taken ++ rest) = .ok (read, rest) from
    fun input read left hread => h input 0 0 read left hread
  intro input
  induction input with
  | nil =>
    intro value bit read left h
    cases h
  | cons x input ih =>
    intro value bit read left h
    -- a byte without the high bit is the last one taken
    by_cases hlast : x &&& 0x80 = 0
    · rw [parseVaruintFrom_last hlast] at h
      cases h
      exact ⟨[x], rfl, fun rest => parseVaruintFrom_last hlast value bit rest⟩
    -- and one with it is followed by what the rest of the loop takes
    · rw [parseVaruintFrom_more hlast] at h
      obtain ⟨taken, rfl, hcomplete⟩ := ih _ _ _ _ h
      refine ⟨x :: taken, rfl, fun rest => ?_⟩
      rw [List.cons_append, parseVaruintFrom_more hlast]
      exact hcomplete rest

theorem local_parseName : Local parseName :=
  ((local_nextBytes 8).bind fun _ => local_pure _).bind fun _ => local_pure _

theorem local_parse (ty : IntType) : Local (parse ty) := by
  rw [parse_eq]
  refine Local.bind ?_ fun bytes => Local.bind ?_ fun leBytes => local_pure _
  · rw [calm_eq]
    exact (local_nextBytes _).mapError _
  · unfold copyFromSlice
    split
    · exact local_pure _
    · exact local_throw _

theorem local_ofParser {α : Type} {reader : Deserializer α} (h : Local reader) :
    Local (ofParser (calm reader)) := by
  rw [calm_eq]
  exact (h.mapError _).mapError _

theorem local_parseBool : Local parseBool := by
  refine (local_ofParser local_nextByte).bind fun b => ?_
  split
  · exact local_pure _
  · split
    · exact local_pure _
    · exact local_throw _

mutual

/-- **Locality**: what a type is decoded to, and what of the input is taken for it, depends on
what is taken only. -/
theorem Schema.local_decode : ∀ s : Schema, Local s.decode
  | .bool => local_parseBool
  | .int ty => (local_parse ty).mapError _
  | .varuint => local_ofParser local_parseVaruint
  | .char => (local_ofParser local_parseVaruint).bind fun _ => local_throw _
  | .name => local_ofParser local_parseName
  | .unimplemented _ => local_throw _
  | .newtype inner => Schema.local_decode inner
  | .vec element => (local_ofParser local_parseVaruint).bind fun len =>
      (Schema.local_decode element).elements len.toNat
  | .tuple _ fields => (local_ofParser local_parseVaruint).bind fun len =>
      Fields.local_decode fields len.toNat 0
  | .struct (n := n) _ fields => Fields.local_decode fields n 0

theorem Fields.local_decode : ∀ {n : Nat} (fields : Fields n) (len index : Nat),
    Local (fields.decode len index)
  | _, .nil, _, _ => local_pure ()
  | _, .cons first rest, len, index => by
    unfold Fields.decode
    split
    · exact local_throw _
    · exact (Schema.local_decode first).bind fun value =>
        (Fields.local_decode rest (len - 1) (index + 1)).bind fun values => local_pure _

end

/-! ## What can be decoded -/

theorem yields_ofParser {α : Type} {reader : Deserializer α} {bytes : List UInt8} {a : α}
    (h : Reads reader bytes a) : Yields (ofParser (calm reader)) a := (reads_ofParser h).yields

/-- The parser of an integer type returns if it asks for as many bytes as the type has. -/
theorem yields_parse_iff {ty : IntType} :
    (∃ v, Yields (parse ty) v) ↔ ty ≠ .i64 ∧ ty ≠ .i128 := by
  rw [← IntType.size_eq_asked_iff]
  constructor
  · rintro ⟨v, input, left, h⟩
    by_contra hasked
    by_cases hshort : input.length < ty.asked
    · rw [parse_short hshort] at h
      cases h
    · rw [parse_panics hasked (Nat.le_of_not_lt hshort)] at h
      cases h
  · intro hasked
    exact ⟨_, _, _, parse_append hasked (ty.length_encode 0) []⟩

theorem throws_parse_panic_iff {ty : IntType} :
    Throws (parse ty) .panic ↔ ty = .i64 ∨ ty = .i128 := by
  have hneg : (ty = .i64 ∨ ty = .i128) ↔ ¬ ty.size = ty.asked := by
    rw [IntType.size_eq_asked_iff]
    tauto
  -- The parts that panic are those whose size is not the number of bytes that is asked for.
  rw [hneg]
  constructor
  -- enough bytes of another type would be read as an integer
  · rintro ⟨input, h⟩ hasked
    by_cases hshort : input.length < ty.asked
    · rw [parse_short hshort] at h
      cases h
    · obtain ⟨bytes, rest, rfl, hlength⟩ : ∃ bytes rest, input = bytes ++ rest ∧
          bytes.length = ty.size := by
        refine ⟨input.take ty.size, input.drop ty.size, (List.take_append_drop _ _).symm, ?_⟩
        rw [List.length_take]
        omega
      rw [parse_append hasked hlength] at h
      cases h
  -- and any bytes do for one of these
  · intro hasked
    refine ⟨List.replicate ty.asked 0, parse_panics hasked ?_⟩
    rw [List.length_replicate]

/-- A step that never panics does not. -/
theorem not_throws_ofParser {α : Type} {reader : Deserializer α} :
    ¬ Throws (ofParser (calm reader)) .panic := by
  rw [calm_eq]
  intro h
  obtain ⟨failure, hfailure, hpanic⟩ := throws_mapError_iff.mp h
  obtain ⟨error, -, rfl⟩ := throws_mapError_iff.mp hfailure
  cases error
  cases hpanic

theorem exists_yields_fields {n : Nat} (first : Schema) (rest : Fields n) {len index : Nat}
    (hlen : len ≠ 0) :
    (∃ values, Yields ((Fields.cons first rest).decode len index) values) ↔
      (∃ value, Yields first.decode value) ∧
        ∃ values, Yields (rest.decode (len - 1) (index + 1)) values := by
  rw [Fields.decode_cons first rest hlen]
  constructor
  · rintro ⟨values, hyields⟩
    obtain ⟨value, hvalue, hrest⟩ := (yields_bind_iff first.local_decode).mp hyields
    obtain ⟨others, hothers, -⟩ := (yields_bind_iff (rest.local_decode _ _)).mp hrest
    exact ⟨⟨value, hvalue⟩, others, hothers⟩
  · rintro ⟨⟨value, hvalue⟩, others, hothers⟩
    refine ⟨(value, others), (yields_bind_iff first.local_decode).mpr ⟨value, hvalue, ?_⟩⟩
    exact (yields_bind_iff (rest.local_decode _ _)).mpr ⟨others, hothers, yields_pure_iff.mpr rfl⟩

mutual

theorem Schema.exists_yields_iff : ∀ s : Schema,
    (∃ value, Yields s.decode value) ↔ s.accepts = true
  | .bool => iff_of_true ⟨true, (reads_parseBool true).yields⟩ rfl
  -- an integer is read from its own bytes, if the conversion takes them
  | .int ty => by
    refine Iff.trans ?_ (yields_parse_iff.trans (decide_eq_true_iff).symm)
    constructor
    · rintro ⟨v, input, left, h⟩
      exact ⟨v, input, left, mapError_eq_ok h⟩
    · rintro ⟨v, input, left, h⟩
      exact ⟨v, input, left, mapError_of_ok h⟩
  | .varuint => iff_of_true ⟨(0 : UInt32), (reads_varuint 0).yields⟩ rfl
  -- a length is read, and then the character is refused
  | .char => by
    refine iff_of_false ?_ Bool.false_ne_true
    rintro ⟨value, hyields⟩
    obtain ⟨len, -, hthrow⟩ := (yields_bind_iff (local_ofParser local_parseVaruint)).mp hyields
    exact not_yields_throw hthrow
  | .name => iff_of_true ⟨_, yields_ofParser (reads_parseName 0)⟩ rfl
  | .unimplemented _ => by
    refine iff_of_false ?_ Bool.false_ne_true
    rintro ⟨value, hyields⟩
    exact not_yields_throw hyields
  | .newtype inner => Schema.exists_yields_iff inner
  -- the empty vector decodes whatever the element is
  | .vec element => by
    refine iff_of_true ⟨([] : List element.Value), ?_⟩ rfl
    exact (yields_bind_iff (local_ofParser local_parseVaruint)).mpr
      ⟨0, (reads_varuint 0).yields, yields_pure_iff.mpr rfl⟩
  -- a tuple takes its length, and then its fields, at least as many as there are
  | .tuple (n := n) few fields => by
    refine Iff.trans ?_ (and_iff_right (Nat.le_refl n))
    refine Iff.trans ?_ (Fields.exists_yields_iff fields n 0)
    constructor
    · rintro ⟨values, hyields⟩
      obtain ⟨len, -, hfields⟩ :=
        (yields_bind_iff (local_ofParser local_parseVaruint)).mp hyields
      have hboth := (Fields.exists_yields_iff fields len.toNat 0).mp ⟨values, hfields⟩
      exact (Fields.exists_yields_iff fields n 0).mpr ⟨Nat.le_refl n, hboth.2⟩
    · rintro ⟨values, hfields⟩
      refine ⟨values, (yields_bind_iff (local_ofParser local_parseVaruint)).mpr
        ⟨UInt32.ofNat n, yields_ofParser (reads_parseVaruint few), ?_⟩⟩
      rwa [UInt32.toNat_ofNat_of_lt' few]
  | .struct (n := n) _ fields =>
    (Fields.exists_yields_iff fields n 0).trans (and_iff_right (Nat.le_refl n))

theorem Fields.exists_yields_iff : ∀ {n : Nat} (fields : Fields n) (len index : Nat),
    (∃ values, Yields (fields.decode len index) values) ↔ n ≤ len ∧ fields.accepts = true
  | _, .nil, len, index =>
    iff_of_true ⟨(), yields_pure_iff.mpr rfl⟩ ⟨Nat.zero_le len, rfl⟩
  | _, .cons (n := n) first rest, len, index => by
    -- By the length that is left: at none, the next field is refused.
    by_cases hlen : len = 0
    · refine iff_of_false ?_ (by omega)
      rintro ⟨values, hyields⟩
      rw [hlen, Fields.decode_short] at hyields
      exact not_yields_throw hyields
    · rw [exists_yields_fields first rest hlen, Schema.exists_yields_iff first,
        Fields.exists_yields_iff rest (len - 1) (index + 1)]
      have hcons : (Fields.cons first rest).accepts = (first.accepts && rest.accepts) := rfl
      rw [hcons, Bool.and_eq_true]
      constructor
      · exact fun h => ⟨by omega, h.1, h.2.2⟩
      · exact fun h => ⟨h.2.1, by omega, h.2.2⟩

end

/-! ## What can panic -/

theorem throws_fields_iff {n : Nat} (first : Schema) (rest : Fields n) {len index : Nat}
    (hlen : len ≠ 0) :
    Throws ((Fields.cons first rest).decode len index) .panic ↔
      Throws first.decode .panic ∨
        first.accepts = true ∧ Throws (rest.decode (len - 1) (index + 1)) .panic := by
  rw [Fields.decode_cons first rest hlen, ← first.exists_yields_iff]
  refine (throws_bind_iff first.local_decode).trans (or_congr_right ⟨?_, ?_⟩)
  · rintro ⟨value, hvalue, hthrows⟩
    rcases (throws_bind_iff (rest.local_decode _ _)).mp hthrows with hrest | ⟨values, -, hpure⟩
    · exact ⟨⟨value, hvalue⟩, hrest⟩
    · exact absurd hpure not_throws_pure
  · rintro ⟨⟨value, hvalue⟩, hrest⟩
    exact ⟨value, hvalue, (throws_bind_iff (rest.local_decode _ _)).mpr (.inl hrest)⟩

theorem not_throws_parseBool : ¬ Throws parseBool .panic := by
  intro h
  rcases (throws_bind_iff (local_ofParser local_nextByte)).mp h with hbyte | ⟨b, -, hthrows⟩
  · exact not_throws_ofParser hbyte
  · split at hthrows
    · exact not_throws_pure hthrows
    · split at hthrows
      · exact not_throws_pure hthrows
      · cases throws_throw_iff.mp hthrows

mutual

theorem Schema.throws_panic_iff : ∀ s : Schema, Throws s.decode .panic ↔ s.panics = true
  | .bool => iff_of_false not_throws_parseBool Bool.false_ne_true
  -- the failures of an integer are those of its bytes or of the conversion
  | .int ty => by
    refine Iff.trans ?_ (throws_parse_panic_iff.trans (decide_eq_true_iff).symm)
    refine throws_mapError_iff.trans ⟨?_, fun h => ⟨_, h, rfl⟩⟩
    rintro ⟨failure, hthrows, hpanic⟩
    cases failure with
    | panic => exact hthrows
    | error error =>
      cases error
      cases hpanic
  | .varuint => iff_of_false not_throws_ofParser Bool.false_ne_true
  -- neither the length nor the refusal panics
  | .char => by
    refine iff_of_false ?_ Bool.false_ne_true
    intro h
    rcases (throws_bind_iff (local_ofParser local_parseVaruint)).mp h with hlen | ⟨len, -, hthrow⟩
    · exact not_throws_ofParser hlen
    · cases throws_throw_iff.mp hthrow
  | .name => iff_of_false not_throws_ofParser Bool.false_ne_true
  | .unimplemented _ => iff_of_true (throws_throw_iff.mpr rfl) rfl
  | .newtype inner => Schema.throws_panic_iff inner
  -- a vector of one element panics where the element does
  | .vec element => by
    refine Iff.trans ?_ (Schema.throws_panic_iff element)
    refine (throws_bind_iff (local_ofParser local_parseVaruint)).trans ⟨?_, ?_⟩
    · rintro (hlen | ⟨len, -, helements⟩)
      · exact absurd hlen not_throws_ofParser
      · exact ((throws_elements_iff element.local_decode).mp helements).2
    · exact fun h => .inr ⟨1, (reads_varuint 1).yields,
        (throws_elements_iff element.local_decode).mpr ⟨Nat.one_pos, h⟩⟩
  -- the length of the tuple itself leads to its fields
  | .tuple (n := n) few fields => by
    refine (throws_bind_iff (local_ofParser local_parseVaruint)).trans ⟨?_, ?_⟩
    · rintro (hlen | ⟨len, -, hfields⟩)
      · exact absurd hlen not_throws_ofParser
      · exact Fields.panics_of_throws fields len.toNat 0 hfields
    · intro h
      refine .inr ⟨UInt32.ofNat n, yields_ofParser (reads_parseVaruint few), ?_⟩
      rw [UInt32.toNat_ofNat_of_lt' few]
      exact Fields.throws_of_panics fields n 0 (Nat.le_refl n) h
  | .struct (n := n) _ fields =>
    ⟨Fields.panics_of_throws fields n 0, Fields.throws_of_panics fields n 0 (Nat.le_refl n)⟩

theorem Fields.panics_of_throws : ∀ {n : Nat} (fields : Fields n) (len index : Nat),
    Throws (fields.decode len index) .panic → fields.panics = true
  | _, .nil, _, _, h => absurd h not_throws_pure
  | _, .cons first rest, len, index, h => by
    have hcons : (Fields.cons first rest).panics =
        (first.panics || (first.accepts && rest.panics)) := rfl
    rw [hcons, Bool.or_eq_true, Bool.and_eq_true]
    by_cases hlen : len = 0
    · rw [hlen, Fields.decode_short] at h
      cases throws_throw_iff.mp h
    · rcases (throws_fields_iff first rest hlen).mp h with hfirst | ⟨haccepts, hrest⟩
      · exact .inl ((Schema.throws_panic_iff first).mp hfirst)
      · exact .inr ⟨haccepts, Fields.panics_of_throws rest _ _ hrest⟩

theorem Fields.throws_of_panics : ∀ {n : Nat} (fields : Fields n) (len index : Nat), n ≤ len →
    fields.panics = true → Throws (fields.decode len index) .panic
  | _, .nil, _, _, _, h => absurd h Bool.false_ne_true
  | _, .cons first rest, len, index, hlen, h => by
    have hcons : (Fields.cons first rest).panics =
        (first.panics || (first.accepts && rest.panics)) := rfl
    rw [hcons, Bool.or_eq_true, Bool.and_eq_true] at h
    refine (throws_fields_iff first rest (by omega)).mpr ?_
    rcases h with hfirst | ⟨haccepts, hrest⟩
    · exact .inl ((Schema.throws_panic_iff first).mpr hfirst)
    · exact .inr ⟨haccepts, Fields.throws_of_panics rest (len - 1) (index + 1) (by omega) hrest⟩

end

/-- **What decoding can end in**, for any type: whether an input is decoded, and whether an input
makes the process panic, is read off the type. A value depends on the bytes taken for it only. -/
theorem decode_ends_iff (s : Schema) :
    ((∃ input value left, s.decode input = .ok (value, left)) ↔ s.accepts = true) ∧
    ((∃ input, s.decode input = .error .panic) ↔ s.panics = true) ∧
    ∀ input value left, s.decode input = .ok (value, left) →
      ∃ taken, input = taken ++ left ∧ ∀ rest, s.decode (taken ++ rest) = .ok (value, rest) := by
  refine ⟨Iff.trans ?_ s.exists_yields_iff, s.throws_panic_iff, s.local_decode⟩
  constructor
  · rintro ⟨input, value, left, h⟩
    exact ⟨value, input, left, h⟩
  · rintro ⟨value, input, left, h⟩
    exact ⟨input, value, left, h⟩

/-! ## Types that are read as they are encoded -/

mutual

theorem Schema.calm_of_supported : ∀ s : Schema, s.supported = true → s.panics = false
  | .bool, _ => rfl
  | .int ty, h => by
    have hboth : ty ≠ .i64 ∧ ty ≠ .i128 := of_decide_eq_true h
    exact decide_eq_false fun hor => hor.elim hboth.1 hboth.2
  | .varuint, _ => rfl
  | .char, _ => rfl
  | .name, _ => rfl
  | .unimplemented _, h => absurd h Bool.false_ne_true
  | .newtype inner, h => Schema.calm_of_supported inner h
  | .vec element, h => Schema.calm_of_supported element h
  | .tuple _ fields, h => Fields.calm_of_supported fields h
  | .struct _ fields, h => Fields.calm_of_supported fields h

theorem Fields.calm_of_supported : ∀ {n : Nat} (fields : Fields n), fields.supported = true →
    fields.panics = false
  | _, .nil, _ => rfl
  | _, .cons first rest, h => by
    have hboth := Bool.and_eq_true_iff.mp h
    have hcons : (Fields.cons first rest).panics =
        (first.panics || (first.accepts && rest.panics)) := rfl
    rw [hcons, Schema.calm_of_supported first hboth.1, Fields.calm_of_supported rest hboth.2,
      Bool.false_or, Bool.and_false]

end

/-- **Round trip at any type**: a type without a part that the deserializer lacks or gets wrong is
decoded from its encoding, whatever follows, and no part of the encoding that ends early is
decoded or makes the process panic (in a release build). Characters and the integers of 64 and 128
bits with a sign are not of such a type. -/
theorem decode_encode (s : Schema) (hsupported : s.supported = true) (raw : s.Raw) :
    (∀ rest, s.decode (s.encode raw ++ rest) = .ok (s.decoded raw, rest)) ∧
    ∀ cut, cut <+: s.encode raw → cut ≠ s.encode raw →
      ∃ stop, stop ≠ .panic ∧ s.decode cut = .error stop := by
  have hreads := s.reads hsupported raw
  refine ⟨hreads.complete, fun cut hpre hne => ?_⟩
  obtain ⟨stop, hstop⟩ := hreads.truncated cut hpre hne
  refine ⟨stop, ?_, hstop⟩
  rintro rfl
  have hpanics := s.throws_panic_iff.mp ⟨cut, hstop⟩
  rw [s.calm_of_supported hsupported] at hpanics
  cases hpanics

/-- A pair of a small integer and a flag. -/
def pairSchema : Schema := .tuple (by decide) (.cons (.int .i16) (.cons .bool .nil))

/-- Its length is in front of it. -/
theorem decode_encode_pair :
    pairSchema.decode [2, 0xfe, 0xff, 1, 7] = .ok (((-2 : Int), true, ()), [7]) := by
  have hread := (decode_encode pairSchema rfl (⟨-2, by decide⟩, true, ())).1 [7]
  have hbytes : pairSchema.encode (⟨-2, by decide⟩, true, ()) = [2, 0xfe, 0xff, 1] := by
    show varuint 2 ++ _ = _
    rw [varuint_small (by decide)]
    decide
  rw [hbytes] at hread
  exact hread

/-! ## The transaction type -/

/-- A type is decoded like the reader of its values does. -/
def Agrees {α γ : Type} (decode : Decoder α) (reader : Deserializer γ) (value : α → γ) : Prop :=
  (decode >>= fun a => pure (value a)) = ofParser (calm reader)

section Agrees

variable {α γ δ ζ : Type} {decode : Decoder α} {reader : Deserializer γ} {value : α → γ}

theorem agrees_pure (value : α → γ) (a : α) : Agrees (pure a) (pure (value a)) value := rfl

theorem agrees_ofParser (reader : Deserializer γ) : Agrees (ofParser (calm reader)) reader id :=
  bind_pure _

theorem Agrees.bind {decodeNext : α → Decoder δ} {next : γ → Deserializer ζ} {value' : δ → ζ}
    (h : Agrees decode reader value)
    (hnext : ∀ a, Agrees (decodeNext a) (next (value a)) value') :
    Agrees (decode >>= decodeNext) (reader >>= next) value' := by
  have hparser : ofParser (calm (reader >>= next)) =
      ofParser (calm reader) >>= fun c => ofParser (calm (next c)) := by
    simp only [ofParser, calm_eq, mapError_bind]
  unfold Agrees at h hnext ⊢
  rw [hparser, ← h, bind_assoc, bind_assoc]
  refine bind_congr fun a => ?_
  rw [pure_bind]
  exact hnext a

theorem Agrees.map {f : α → δ} {value' : δ → γ} (h : Agrees decode reader (fun a => value' (f a))) :
    Agrees (decode >>= fun a => pure (f a)) reader value' := by
  unfold Agrees
  rw [bind_assoc]
  simp only [pure_bind]
  exact h

theorem Agrees.elements (h : Agrees decode reader value) (n : Nat) :
    Agrees (elements decode n) (parseElements reader n) (List.map value) := by
  induction n with
  | zero => exact agrees_pure (List.map value) []
  | succ n ih =>
    refine h.bind fun first => ?_
    refine Agrees.map ?_
    have hcons : Agrees (Wire.elements decode n >>= fun rest => pure rest)
        (parseElements reader n >>= fun rest => pure (value first :: rest))
        (fun rest => List.map value (first :: rest)) :=
      ih.bind fun rest => agrees_pure (fun rest => List.map value (first :: rest)) rest
    rwa [bind_pure] at hcons

theorem Agrees.vec {element : Schema} {value : element.Value → γ}
    (h : Agrees element.decode reader value) :
    Agrees (Schema.vec element).decode (parseVec reader) (List.map value) :=
  (agrees_ofParser parseVaruint).bind fun len => h.elements len.toNat

/-- One field after the other. -/
theorem Agrees.cons {n : Nat} {first : Schema} {rest : Fields n} {firstValue : first.Value → γ}
    {next : γ → Deserializer δ} {value : first.Value × rest.Value → δ}
    (h : Agrees first.decode reader firstValue) {index : Nat}
    (hrest : ∀ v, Agrees (rest.decode n (index + 1)) (next (firstValue v))
      fun values => value (v, values)) :
    Agrees ((Fields.cons first rest).decode (n + 1) index) (reader >>= next) value := by
  rw [Fields.decode_cons first rest (Nat.succ_ne_zero n)]
  exact h.bind fun v => (hrest v).map

theorem agrees_name : Agrees Schema.name.decode parseName id := agrees_ofParser parseName

theorem agrees_varuint : Agrees Schema.varuint.decode parseVaruint id :=
  agrees_ofParser parseVaruint

/-- A word is made of the number that is read. -/
theorem agrees_word {ty : IntType} {ofNat : Nat → γ} (toNat : γ → Nat)
    (hparse : parse ty = calm reader >>= fun word => pure (toNat word : Int))
    (hword : ∀ word, ofNat (toNat word) = word) :
    Agrees (Schema.int ty).decode reader fun v : Int => ofNat v.toNat := by
  have hagrees : Agrees (ofParser (parse ty)) reader fun v : Int => ofNat v.toNat := by
    unfold Agrees ofParser
    rw [hparse, mapError_bind, bind_assoc]
    simp only [mapError_pure, pure_bind, Int.toNat_natCast, hword, bind_pure]
  exact hagrees

end Agrees

def authorizationSchema : Schema := .struct (by decide) (.cons .name (.cons .name .nil))

def actionSchema : Schema :=
  .struct (by decide) (.cons .name (.cons .name (.cons (.vec authorizationSchema)
    (.cons (.vec (.int .u8)) .nil))))

def transactionSchema : Schema :=
  .struct (by decide) (.cons (.int .u32) (.cons (.int .u16) (.cons (.int .u32) (.cons .varuint
    (.cons (.int .u8) (.cons .varuint (.cons (.vec actionSchema)
      (.cons (.vec actionSchema) .nil))))))))

def authorizationOf : authorizationSchema.Value → Authorization
  | (actor, permission, ()) => ⟨actor, permission⟩

def actionOf : actionSchema.Value → Action
  | (account, name, authorization, data, ()) =>
    ⟨account, name, authorization.map authorizationOf, data.map fun v => UInt8.ofNat v.toNat⟩

def transactionOf : transactionSchema.Value → Transaction
  | (expiration, refBlockNum, refBlockPrefix, maxNetUsageWords, maxCpuUsageMs, delaySec,
      ctxFreeActions, actions, ()) =>
    ⟨UInt32.ofNat expiration.toNat, UInt16.ofNat refBlockNum.toNat,
      UInt32.ofNat refBlockPrefix.toNat, maxNetUsageWords, UInt8.ofNat maxCpuUsageMs.toNat,
      delaySec, ctxFreeActions.map actionOf, actions.map actionOf⟩

theorem agrees_u8 : Agrees (Schema.int .u8).decode De.parseU8 fun v : Int => UInt8.ofNat v.toNat :=
  agrees_word UInt8.toNat rfl fun _ => UInt8.ofNat_toNat

theorem agrees_authorization :
    Agrees authorizationSchema.decode parseAuthorization authorizationOf :=
  agrees_name.cons fun _ => agrees_name.cons fun _ => agrees_pure _ ()

theorem agrees_action : Agrees actionSchema.decode parseAction actionOf :=
  agrees_name.cons fun _ => agrees_name.cons fun _ => agrees_authorization.vec.cons fun _ =>
    agrees_u8.vec.cons fun _ => agrees_pure _ ()

theorem agrees_u16 :
    Agrees (Schema.int .u16).decode De.parseU16 fun v : Int => UInt16.ofNat v.toNat :=
  agrees_word UInt16.toNat parse_eq_calm.1 fun _ => UInt16.ofNat_toNat

theorem agrees_u32 :
    Agrees (Schema.int .u32).decode De.parseU32 fun v : Int => UInt32.ofNat v.toNat :=
  agrees_word UInt32.toNat parse_eq_calm.2.1 fun _ => UInt32.ofNat_toNat

/-- **The transaction decoder** is the deserializer at the transaction type: on any input it
returns the same fields, leaves the same bytes and fails in the same way. The type is read as it is
encoded, and no input makes the process panic, in a release build, where the shifts of
`parse_varuint` wrap. -/
theorem decode_transaction :
    (transactionSchema.decode >>= fun value => pure (transactionOf value)) =
      ofParser (calm parseTransaction) ∧
    transactionSchema.supported = true ∧
    ∀ input, transactionSchema.decode input ≠ .error .panic := by
  refine ⟨?_, rfl, fun input hpanic => ?_⟩
  · have hagrees : Agrees transactionSchema.decode parseTransaction transactionOf :=
      agrees_u32.cons fun _ => agrees_u16.cons fun _ => agrees_u32.cons fun _ =>
        agrees_varuint.cons fun _ => agrees_u8.cons fun _ => agrees_varuint.cons fun _ =>
          agrees_action.vec.cons fun _ => agrees_action.vec.cons fun _ => agrees_pure _ ()
    exact hagrees
  · exact absurd (transactionSchema.throws_panic_iff.mp ⟨input, hpanic⟩) Bool.false_ne_true

end AntelopeFirewall.De
