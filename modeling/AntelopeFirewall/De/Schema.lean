import AntelopeFirewall.De.Integers
import AntelopeFirewall.Library.Outcomes

/-!
# The Deserializer at Any Type

The decoder is a serde deserializer: a type says what it is made of, and for each part the
deserializer has a method. Some methods read the chain's format, some are `unimplemented!`, and
`deserialize_tuple` reads a length in front of its elements as if they were a vector.

- `Schema` is what a type asks for, `Schema.decode` what the deserializer does then,
- `Schema.encode` is the format of a type's values, where the type has one,
- `Schema.reads` is the round trip, for the types with `Schema.supported`: those whose parts are
  all read as they are encoded.
-/

namespace AntelopeFirewall.De

open Library Library.Wire Integers

/-! ## What a type asks for -/

/-- The methods that are `unimplemented!`. -/
inductive Unimplemented where
  | any | f32 | f64 | str | string | bytes | byteBuf | option | unit | unitStruct | map | enum
  | identifier | ignoredAny
  deriving DecidableEq, Repr

mutual

/-- What the `Deserialize` implementation of a type asks for. A type has fewer than `2 ^ 32`
fields. -/
inductive Schema where
  | bool
  | int (ty : IntType)
  | varuint
  | char
  | name
  | unimplemented (method : Unimplemented)
  | newtype (inner : Schema)
  | vec (element : Schema)
  | tuple {n : Nat} (few : n < 2 ^ 32) (fields : Fields n)
  | struct {n : Nat} (few : n < 2 ^ 32) (fields : Fields n)

inductive Fields : Nat → Type where
  | nil : Fields 0
  | cons {n : Nat} (first : Schema) (rest : Fields n) : Fields (n + 1)

end

mutual

/-- The values of a type. -/
def Schema.Value : Schema → Type
  | .bool => Bool
  | .int _ => Int
  | .varuint => UInt32
  | .char => Char
  | .name => Name
  | .unimplemented _ => Unit
  | .newtype inner => inner.Value
  | .vec element => List element.Value
  | .tuple _ fields => fields.Value
  | .struct _ fields => fields.Value

def Fields.Value : ∀ {n : Nat}, Fields n → Type
  | _, .nil => Unit
  | _, .cons first rest => first.Value × rest.Value

end

/-! ## Decoding -/

/-- How decoding ends without a value. An invalid length or type is reported by the visitor of
the type, through serde. -/
inductive Stop where
  | eof
  | expectedBoolean
  | invalidLength (index : Nat)
  | invalidType
  | panic
  deriving DecidableEq, Repr

def Stop.ofFailure : Failure → Stop
  | .error .eof => .eof
  | .panic => .panic

abbrev Decoder := StateT (List UInt8) (Except Stop)

def ofParser {α : Type} (parser : Parser α) : Decoder α := mapError Stop.ofFailure parser

def parseBool : Decoder Bool := do
  let b ← ofParser (calm nextByte)
  if b = 1 then return true else if b = 0 then return false else throw .expectedBoolean

mutual

def Schema.decode : (s : Schema) → Decoder s.Value
  | .bool => parseBool
  | .int ty => ofParser (parse ty)
  | .varuint => ofParser (calm parseVaruint)
  -- a number is read, which the visitor of a character does not take
  | .char => ofParser (calm parseVaruint) >>= fun _ => throw .invalidType
  | .name => ofParser (calm parseName)
  | .unimplemented _ => throw .panic
  | .newtype inner => inner.decode
  | .vec element =>
    ofParser (calm parseVaruint) >>= fun len => elements element.decode len.toNat
  -- the elements of a longer tuple are left in the input
  | .tuple _ fields => ofParser (calm parseVaruint) >>= fun len => fields.decode len.toNat 0
  | .struct (n := n) _ fields => fields.decode n 0

/-- The fields of a type, of a sequence that has `len` elements left from an index on. -/
def Fields.decode : ∀ {n : Nat} (fields : Fields n), (len index : Nat) → Decoder fields.Value
  | _, .nil, _, _ => pure ()
  | _, .cons first rest, len, index =>
    if len = 0 then throw (.invalidLength index)
    else
      first.decode >>= fun value =>
        rest.decode (len - 1) (index + 1) >>= fun values => pure (value, values)

end

/-- A sequence without an element for the next field is refused. -/
theorem Fields.decode_short {n : Nat} (first : Schema) (rest : Fields n) (index : Nat) :
    (Fields.cons first rest).decode 0 index = throw (.invalidLength index) := rfl

theorem Fields.decode_cons {n : Nat} (first : Schema) (rest : Fields n) {len : Nat}
    (hlen : len ≠ 0) (index : Nat) :
    (Fields.cons first rest).decode len index =
      first.decode >>= fun value =>
        rest.decode (len - 1) (index + 1) >>= fun values => pure (value, values) := if_neg hlen

/-! ## Encoding -/

mutual

/-- What travels for a value of a type. Nothing does for a type that is never decoded. -/
def Schema.Raw : Schema → Type
  | .bool => Bool
  | .int ty => { v : Int // ty.Contains v }
  | .varuint => UInt32
  | .char => Empty
  | .name => UInt64
  | .unimplemented _ => Empty
  | .newtype inner => inner.Raw
  | .vec element => Counted element.Raw
  | .tuple _ fields => fields.Raw
  | .struct _ fields => fields.Raw

def Fields.Raw : ∀ {n : Nat}, Fields n → Type
  | _, .nil => Unit
  | _, .cons first rest => first.Raw × rest.Raw

end

def encodeBool (b : Bool) : List UInt8 := [if b then 1 else 0]

mutual

def Schema.encode : (s : Schema) → s.Raw → List UInt8
  | .bool, b => encodeBool b
  | .int ty, v => ty.encode v.val
  | .varuint, n => varuint n.toNat
  | .name, n => encodeName n
  | .newtype inner, raw => inner.encode raw
  | .vec element, raws => encodeVec element.encode raws
  | .tuple (n := n) _ fields, raws => varuint n ++ fields.encode raws
  | .struct _ fields, raws => fields.encode raws

def Fields.encode : ∀ {n : Nat} (fields : Fields n), fields.Raw → List UInt8
  | _, .nil, _ => []
  | _, .cons first rest, raws => first.encode raws.1 ++ rest.encode raws.2

end

mutual

/-- The value that travels. -/
def Schema.decoded : (s : Schema) → s.Raw → s.Value
  | .bool, b => b
  | .int _, v => v.val
  | .varuint, n => n
  | .name, n => decodedName n
  | .newtype inner, raw => inner.decoded raw
  | .vec element, raws => raws.val.map element.decoded
  | .tuple _ fields, raws => fields.decoded raws
  | .struct _ fields, raws => fields.decoded raws

def Fields.decoded : ∀ {n : Nat} (fields : Fields n), fields.Raw → fields.Value
  | _, .nil, _ => ()
  | _, .cons first rest, raws => (first.decoded raws.1, rest.decoded raws.2)

end

mutual

/-- The parts of a type are all read as they are encoded. -/
def Schema.supported : Schema → Bool
  | .int ty => ty ≠ .i64 ∧ ty ≠ .i128
  | .char => false
  | .unimplemented _ => false
  | .newtype inner => inner.supported
  | .vec element => element.supported
  | .tuple _ fields => fields.supported
  | .struct _ fields => fields.supported
  | _ => true

def Fields.supported : ∀ {n : Nat}, Fields n → Bool
  | _, .nil => true
  | _, .cons first rest => first.supported && rest.supported

end

/-! ## Round trip -/

theorem reads_ofParser {α : Type} {reader : Deserializer α} {bytes : List UInt8} {a : α}
    (h : Reads reader bytes a) : Reads (ofParser (calm reader)) bytes a where
  complete := fun rest => mapError_of_ok (calm_ok (h.complete rest))
  truncated := fun cut hpre hne => by
    obtain ⟨error, herror⟩ := h.truncated cut hpre hne
    exact ⟨_, mapError_of_error (calm_error herror)⟩

theorem reads_parse {ty : IntType} (hasked : ty.size = ty.asked) {v : Int} (h : ty.Contains v) :
    Reads (parse ty) (ty.encode v) v where
  complete := fun rest => by
    rw [parse_append hasked (ty.length_encode v), IntType.fromLeBytes_encode h]
  truncated := fun cut hpre hne => by
    refine ⟨_, parse_short ?_⟩
    have hle := hpre.length_le
    have hlt : cut.length ≠ (ty.encode v).length := fun hsame => hne (hpre.eq_of_length hsame)
    rw [ty.length_encode] at hle hlt
    omega

theorem reads_parseBool (b : Bool) : Reads parseBool (encodeBool b) b := by
  have hbyte := reads_ofParser (reads_parseU8 (if b then 1 else 0))
  have hread : Reads (ofParser (calm nextByte) >>= fun b : UInt8 =>
      if b = 1 then return true else if b = 0 then return false else throw Stop.expectedBoolean)
      ([if b then 1 else 0] ++ []) b := by
    refine hbyte.bind ?_
    cases b with
    | false => exact reads_pure false
    | true => exact reads_pure true
  exact hread

theorem reads_varuint (n : UInt32) :
    Reads (ofParser (calm parseVaruint)) (varuint n.toNat) n := by
  have hread := reads_ofParser (reads_parseVaruint n.toNat_lt)
  rwa [UInt32.ofNat_toNat] at hread

mutual

/-- **Round trip**: a type whose parts are read right is read as it is encoded. -/
theorem Schema.reads : ∀ (s : Schema), s.supported = true → ∀ raw : s.Raw,
    Reads s.decode (s.encode raw) (s.decoded raw)
  | .bool, _, b => reads_parseBool b
  | .int ty, h, v =>
    (reads_parse (IntType.size_eq_asked_iff.mpr (of_decide_eq_true h)) v.property).mapError _
  | .varuint, _, n => reads_varuint n
  | .name, _, n => reads_ofParser (reads_parseName n)
  | .newtype inner, h, raw => Schema.reads inner h raw
  | .vec element, h, raws => by
    refine (reads_ofParser (reads_parseVaruint raws.property)).bind ?_
    rw [UInt32.toNat_ofNat_of_lt' raws.property]
    exact Reads.elements fun raw _ => Schema.reads element h raw
  | .tuple few fields, h, raws => by
    refine (reads_ofParser (reads_parseVaruint few)).bind ?_
    rw [UInt32.toNat_ofNat_of_lt' few]
    exact Fields.reads fields h raws 0
  | .struct _ fields, h, raws => Fields.reads fields h raws 0

theorem Fields.reads : ∀ {n : Nat} (fields : Fields n), fields.supported = true →
    ∀ (raws : fields.Raw) (index : Nat),
      Reads (fields.decode n index) (fields.encode raws) (fields.decoded raws)
  | _, .nil, _, _, _ => reads_pure ()
  | _, .cons (n := n) first rest, h, raws, index => by
    have hboth := Bool.and_eq_true_iff.mp h
    rw [Fields.decode_cons first rest (Nat.succ_ne_zero n)]
    exact (Schema.reads first hboth.1 raws.1).bind
      ((Fields.reads rest hboth.2 raws.2 (index + 1)).map _)

end

end AntelopeFirewall.De
