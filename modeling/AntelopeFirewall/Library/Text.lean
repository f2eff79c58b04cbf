import Mathlib.Data.List.DropRight
import Mathlib.Data.String.Basic

/-!
# Text Operations

Operations on texts as a program uses them to read small formats: splitting at a
character, stripping a given start, trimming, joining, comparison without ASCII case. A
text is handled through its list of characters.
-/

namespace Library.Text

/-- The parts of a text between the occurrences of a character. -/
def split (sep : Char) (text : String) : List String :=
  (text.toList.splitOn sep).map String.ofList

/-- What follows a given start, if the text has it. -/
def stripPrefix (start text : String) : Option String :=
  (text.toList.dropPrefix? start.toList).map String.ofList

/-- The characters with the Unicode property `White_Space`. -/
def isWhitespace (c : Char) : Bool :=
  (0x9 ≤ c.val ∧ c.val ≤ 0xd) ∨ c.val = 0x20 ∨ c.val = 0x85 ∨ c.val = 0xa0 ∨ c.val = 0x1680 ∨
    (0x2000 ≤ c.val ∧ c.val ≤ 0x200a) ∨ c.val = 0x2028 ∨ c.val = 0x2029 ∨ c.val = 0x202f ∨
    c.val = 0x205f ∨ c.val = 0x3000

/-- The text without white space at either end. -/
def trim (text : String) : String :=
  String.ofList ((text.toList.dropWhile isWhitespace).rdropWhile isWhitespace)

/-- Equality up to the case of ASCII letters. -/
def eqIgnoreAsciiCase (a b : String) : Bool :=
  a.toList.map Char.toLower = b.toList.map Char.toLower

/-- The text with its ASCII letters in lower case. -/
def toAsciiLowercase (text : String) : String := String.ofList (text.toList.map Char.toLower)

/-- Letters and digits of ASCII. -/
def isAsciiAlphanumeric (c : Char) : Bool := c.isAlphanum

/-- The bytes of a text. -/
def utf8 (text : String) : List UInt8 := text.toByteArray.data.toList

@[simp] theorem stripPrefix_append (start text : String) :
    stripPrefix start (start ++ text) = some text := by
  unfold stripPrefix
  rw [String.toList_append, List.dropPrefix?_append_of_beq _ (BEq.rfl)]
  simp

/-- There is nothing to strip exactly when the text does not start so. -/
theorem stripPrefix_eq_none_iff {start text : String} :
    stripPrefix start text = none ↔ ¬ start.toList <+: text.toList := by
  unfold stripPrefix
  rw [Option.map_eq_none_iff]
  constructor
  · intro h hstarts
    obtain ⟨rest, hrest⟩ := hstarts
    rw [← hrest, List.dropPrefix?_append_of_beq _ (BEq.rfl)] at h
    cases h
  · intro h
    cases hdropped : text.toList.dropPrefix? start.toList with
    | none => rfl
    | some rest =>
      -- what was dropped is the start itself
      obtain ⟨front, hfront, hsame⟩ := List.dropPrefix?_eq_some_iff.mp hdropped
      rw [beq_iff_eq] at hsame
      subst hsame
      exact absurd ⟨rest, hfront.symm⟩ h

/-- The first separator of a list can be told. -/
theorem append_cons_inj_of_first {α : Type} {sep : α} {a b x y : List α} (ha : sep ∉ a)
    (hb : sep ∉ b) : a ++ sep :: x = b ++ sep :: y ↔ a = b ∧ x = y := by
  -- Induction on the first text: up to the separator both sides have the same characters.
  induction a generalizing b with
  | nil =>
    cases b with
    | nil => simp
    | cons first b =>
      have hne : sep ≠ first := fun hsame => hb (by simp [hsame])
      simp [hne]
  | cons first a ih =>
    have ha' : sep ∉ a := fun hmem => ha (List.mem_cons_of_mem _ hmem)
    cases b with
    | nil =>
      have hne : first ≠ sep := fun hsame => ha (by simp [hsame])
      simp [hne]
    | cons first' b =>
      have hb' : sep ∉ b := fun hmem => hb (List.mem_cons_of_mem _ hmem)
      rw [List.cons_append, List.cons_append, List.cons.injEq, ih ha' hb', List.cons.injEq,
        and_assoc]

/-- Different texts have different bytes. -/
theorem utf8_inj {a b : String} : utf8 a = utf8 b ↔ a = b := by
  refine ⟨fun h => ?_, fun h => by rw [h]⟩
  have hdata : a.toByteArray.data = b.toByteArray.data := Array.toList_inj.mp h
  exact String.toByteArray_inj.mp (ByteArray.ext hdata)

/-! ## ASCII -/

/-- The text whose characters have these codes. -/
def ascii (bytes : List UInt8) : String := String.ofList (bytes.map fun b => Char.ofNat b.toNat)

/-- A byte below 128 is the encoding of its character. -/
theorem utf8EncodeChar_byte {b : UInt8} (h : b < 128) :
    String.utf8EncodeChar (Char.ofNat b.toNat) = [b] := by
  have hall : ∀ n < 128, String.utf8EncodeChar (Char.ofNat n) = [UInt8.ofNat n] := by decide
  rw [hall b.toNat h, UInt8.ofNat_toNat]

/-- Bytes below 128 are the encoding of their text. -/
theorem utf8_ascii {bytes : List UInt8} (h : ∀ b ∈ bytes, b < 128) :
    utf8 (ascii bytes) = bytes := by
  unfold utf8 ascii
  rw [String.toByteArray_ofList]
  induction bytes with
  | nil => rfl
  | cons b rest ih =>
    have hrest := ih fun b' hb' => h b' (List.mem_cons_of_mem _ hb')
    rw [List.map_cons, List.utf8Encode_cons, List.utf8Encode_singleton,
      utf8EncodeChar_byte (h b (List.mem_cons_self ..)), ByteArray.data_append,
      Array.toList_append, hrest]
    rfl

/-- An ASCII text is encoded as the codes of its characters. -/
theorem utf8_of_ascii {text : String} (h : ∀ c ∈ text.toList, c.toNat < 128) :
    utf8 text = text.toList.map fun c => UInt8.ofNat c.toNat := by
  have hcode : ∀ c ∈ text.toList, (UInt8.ofNat c.toNat).toNat = c.toNat := by
    intro c hc
    have hlt := h c hc
    rw [UInt8.toNat_ofNat']
    omega
  -- the codes are read back as the characters, so the lemma about bytes applies
  have htext : ascii (text.toList.map fun c => UInt8.ofNat c.toNat) = text := by
    have hchars : ∀ c ∈ text.toList, Char.ofNat (UInt8.ofNat c.toNat).toNat = c := by
      intro c hc
      rw [hcode c hc, Char.ofNat_toNat]
    unfold ascii
    rw [List.map_map]
    calc String.ofList (text.toList.map fun c => Char.ofNat (UInt8.ofNat c.toNat).toNat)
        = String.ofList (text.toList.map id) := congrArg _ (List.map_congr_left hchars)
      _ = text := by rw [List.map_id, String.ofList_toList]
  have hbytes : ∀ b ∈ text.toList.map fun c => UInt8.ofNat c.toNat, b < 128 := by
    intro b hb
    obtain ⟨c, hc, rfl⟩ := List.mem_map.mp hb
    show (UInt8.ofNat c.toNat).toNat < 128
    rw [hcode c hc]
    exact h c hc
  have hencoded := utf8_ascii hbytes
  rwa [htext] at hencoded

end Library.Text
