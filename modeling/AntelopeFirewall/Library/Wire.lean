import Mathlib.Data.List.Basic
import Mathlib.Data.Nat.Bitwise
import Mathlib.Tactic.Ring

/-!
# Readers of Self-Delimiting Formats

A reader takes what it needs off the front of its input, or fails. In a self-delimiting
format an encoding says by itself where it ends.

- `Reads reader bytes a` says that `bytes` are an encoding of `a`: whatever follows them, the
  reader takes them, returns `a` and leaves the rest, and it fails on any part of them that
  ends early,
- `Reads.bind`, `Reads.map` and `Reads.elements` compose encodings as the readers are composed,
- `Logged` is a reader that keeps a log of inputs, and `Logs` says that it reads like another
  reader,
- `Consumes` says how much a reader takes at least, and `Paid` that the entries of a log are paid
  for by what was taken,
- `leBytes` and `varuint` are two encodings of numbers.
-/

namespace Library.Wire

/-! ## Readers -/

section Readers

variable {β ε α γ δ : Type}

/-- The bytes are an encoding of the value for the reader. -/
structure Reads (reader : StateT (List β) (Except ε) α) (bytes : List β) (a : α) : Prop where
  complete : ∀ rest, reader (bytes ++ rest) = .ok (a, rest)
  truncated : ∀ cut, cut <+: bytes → cut ≠ bytes → ∃ error, reader cut = .error error

variable {reader : StateT (List β) (Except ε) α} {bytes : List β} {a : α}

/-- A reader that needs nothing. -/
theorem reads_pure (a : α) : Reads (ε := ε) (pure a) ([] : List β) a where
  complete := fun _ => rfl
  truncated := fun _ hpre hne => absurd (List.prefix_nil.mp hpre) hne

theorem bind_ok {next : α → StateT (List β) (Except ε) γ} {input left : List β}
    (h : reader input = .ok (a, left)) : (reader >>= next) input = next a left := by
  show (reader input).bind _ = _
  rw [h]
  rfl

theorem bind_error {next : α → StateT (List β) (Except ε) γ} {input : List β} {error : ε}
    (h : reader input = .error error) : (reader >>= next) input = .error error := by
  show (reader input).bind _ = _
  rw [h]
  rfl

/-- One encoding after the other. -/
theorem Reads.bind {next : α → StateT (List β) (Except ε) γ} {bytes' : List β} {c : γ}
    (h : Reads reader bytes a) (hnext : Reads (next a) bytes' c) :
    Reads (reader >>= next) (bytes ++ bytes') c where
  complete := fun rest => by
    rw [List.append_assoc, bind_ok (h.complete (bytes' ++ rest))]
    exact hnext.complete rest
  truncated := fun cut hpre hne => by
    obtain ⟨missing, hmissing⟩ := hpre
    -- By where the input is cut: in the first encoding or in the second.
    rcases List.append_eq_append_iff.mp hmissing with ⟨later, hfirst, -⟩ | ⟨cut', rfl, hsecond⟩
    · by_cases hwhole : cut = bytes
      · -- the first encoding is all there is
        subst hwhole
        have hread := h.complete []
        rw [List.append_nil] at hread
        rw [bind_ok hread]
        apply hnext.truncated [] (List.nil_prefix)
        intro hnil
        rw [← hnil, List.append_nil] at hne
        exact hne rfl
      · obtain ⟨error, herror⟩ := h.truncated cut ⟨later, hfirst.symm⟩ hwhole
        exact ⟨error, bind_error herror⟩
    -- the first value is read in full
    · rw [bind_ok (h.complete cut')]
      apply hnext.truncated cut' ⟨missing, hsecond.symm⟩
      intro hsame
      rw [hsame] at hne
      exact hne rfl

/-- What is made of a value needs no more bytes. -/
theorem Reads.map (h : Reads reader bytes a) (f : α → γ) :
    Reads (reader >>= fun a => pure (f a)) bytes (f a) := by
  have hbind : Reads (reader >>= fun a => pure (f a)) (bytes ++ []) (f a) :=
    h.bind (reads_pure (f a))
  rwa [List.append_nil] at hbind

/-! ## Sequences -/

/-- Read `n` values. -/
def elements (reader : StateT (List β) (Except ε) α) : Nat → StateT (List β) (Except ε) (List α)
  | 0 => pure []
  | n + 1 => do
    let first ← reader
    return first :: (← elements reader n)

/-- The encodings of some values one after the other, for a reader of as many. -/
theorem Reads.elements {encode : γ → List β} {value : γ → α} {xs : List γ}
    (h : ∀ x ∈ xs, Reads reader (encode x) (value x)) :
    Reads (Wire.elements reader xs.length) (xs.flatMap encode) (xs.map value) := by
  induction xs with
  | nil => exact reads_pure []
  | cons x xs ih =>
    have hrest := ih fun y hy => h y (List.mem_cons_of_mem _ hy)
    exact (h x (List.mem_cons_self ..)).bind (hrest.map (value x :: ·))

/-! ## Readers that keep a log -/

/-- A reader that logs the inputs that some of its steps begin at. -/
structure Logged (β ε α : Type) where
  run : List β → List (List β) × Except ε (α × List β)

namespace Logged

/-- Log nothing. -/
def lift (reader : StateT (List β) (Except ε) α) : Logged β ε α := ⟨fun input => ([], reader input)⟩

/-- Log the input. -/
def logging (reader : StateT (List β) (Except ε) α) : Logged β ε α :=
  ⟨fun input => ([input], reader input)⟩

instance : Monad (Logged β ε) where
  pure a := lift (pure a)
  bind m next := ⟨fun input =>
    match m.run input with
    | (log, .ok (a, left)) => (log ++ ((next a).run left).1, ((next a).run left).2)
    | (log, .error error) => (log, .error error)⟩

end Logged

/-- Apart from its log, the one reads like the other. -/
def Logs (m : Logged β ε α) (reader : StateT (List β) (Except ε) α) : Prop :=
  ∀ input, (m.run input).2 = reader input

theorem logs_lift (reader : StateT (List β) (Except ε) α) : Logs (.lift reader) reader :=
  fun _ => rfl

theorem logs_logging (reader : StateT (List β) (Except ε) α) : Logs (.logging reader) reader :=
  fun _ => rfl

theorem logs_pure (a : α) : Logs (β := β) (ε := ε) (pure a) (pure a) := logs_lift _

theorem Logs.bind {m : Logged β ε α} {next : α → Logged β ε γ}
    {reader' : α → StateT (List β) (Except ε) γ} (h : Logs m reader)
    (hnext : ∀ a, Logs (next a) (reader' a)) : Logs (m >>= next) (reader >>= reader') := by
  intro input
  rcases hrun : m.run input with ⟨log, error | ⟨a, left⟩⟩
  · -- the second reader is not run
    have hread : reader input = .error error := by rw [← h input, hrun]
    rw [bind_error hread]
    simp [Bind.bind, hrun]
  · have hread : reader input = .ok (a, left) := by rw [← h input, hrun]
    rw [bind_ok hread, ← hnext a left]
    simp [Bind.bind, hrun]

/-! ## What a reader consumes -/

/-- What the reader leaves is the end of its input, shorter by some elements at least. -/
def Consumes (least : Nat) (reader : StateT (List β) (Except ε) α) : Prop :=
  ∀ input a left, reader input = .ok (a, left) →
    left <:+ input ∧ left.length + least ≤ input.length

theorem consumes_pure (a : α) : Consumes (β := β) (ε := ε) 0 (pure a) := by
  intro input a' left h
  cases h
  exact ⟨List.suffix_refl _, le_rfl⟩

theorem Consumes.bind {next : α → StateT (List β) (Except ε) γ} {least least' : Nat}
    (h : Consumes least reader) (hnext : ∀ a, Consumes least' (next a)) :
    Consumes (least + least') (reader >>= next) := by
  intro input c left hread
  cases hfirst : reader input with
  | error error =>
    rw [bind_error hfirst] at hread
    cases hread
  | ok first =>
    obtain ⟨a, rest⟩ := first
    rw [bind_ok hfirst] at hread
    obtain ⟨hsuffix, hle⟩ := h input a rest hfirst
    obtain ⟨hsuffix', hle'⟩ := hnext a rest c left hread
    exact ⟨hsuffix'.trans hsuffix, by omega⟩

/-- What is made of a value takes nothing back. -/
theorem Consumes.map {least : Nat} (h : Consumes least reader) (f : α → γ) :
    Consumes least (reader >>= fun a => pure (f a)) :=
  h.bind fun a => consumes_pure (f a)

/-- What takes some elements takes fewer. -/
theorem Consumes.weaken {least least' : Nat} (h : Consumes least reader) (hle : least' ≤ least) :
    Consumes least' reader := by
  intro input a left hread
  obtain ⟨hsuffix, hleast⟩ := h input a left hread
  exact ⟨hsuffix, by omega⟩

/-! ## Logs that are paid for -/

namespace Logged

/-- Log the input of a reader in front of its own log. -/
def mark (m : Logged β ε α) : Logged β ε α :=
  ⟨fun input => (input :: (m.run input).1, (m.run input).2)⟩

theorem run_mark {m : Logged β ε α} {input : List β} {log : List (List β)}
    {result : Except ε (α × List β)} (h : m.run input = (log, result)) :
    m.mark.run input = (input :: log, result) := by
  simp [mark, h]

theorem run_bind_ok {m : Logged β ε α} {next : α → Logged β ε γ} {input left : List β}
    {log : List (List β)} {a : α} (h : m.run input = (log, .ok (a, left))) :
    (m >>= next).run input = (log ++ ((next a).run left).1, ((next a).run left).2) := by
  simp [Bind.bind, h]

theorem run_bind_error {m : Logged β ε α} {next : α → Logged β ε γ} {input : List β}
    {log : List (List β)} {error : ε} (h : m.run input = (log, .error error)) :
    (m >>= next).run input = (log, .error error) := by
  simp [Bind.bind, h]

end Logged

theorem Logs.mark {m : Logged β ε α} (h : Logs m reader) : Logs m.mark reader := h

/-- The log of a reader is paid for. Every entry is an end of the input. With a value there is an
entry for everything that is counted in it, and each took an element of its own, beside those to
spare. Without one there may be some entries more than the input has elements. -/
structure Paid (m : Logged β ε α) (count : α → Nat) (spare extra : Nat) : Prop where
  places : ∀ {input}, ∀ place ∈ (m.run input).1, place <:+ input
  ok : ∀ {input log a left}, m.run input = (log, .ok (a, left)) →
    left <:+ input ∧ count a ≤ log.length ∧ log.length + spare + left.length ≤ input.length
  error : ∀ {input log error}, m.run input = (log, .error error) →
    log.length ≤ input.length + extra

section Paid

variable {m : Logged β ε α} {count : α → Nat} {least spare extra : Nat}

theorem paid_lift (h : Consumes least reader) (extra : Nat) :
    Paid (.lift reader) (fun _ => 0) least extra where
  places := by
    intro input place hplace
    cases hplace
  ok := by
    intro input log a left hrun
    obtain ⟨rfl, hread⟩ := Prod.mk.inj hrun
    obtain ⟨hsuffix, hle⟩ := h input a left hread
    exact ⟨hsuffix, le_rfl, by simpa [Nat.add_comm] using hle⟩
  error := by
    intro input log error hrun
    obtain ⟨rfl, -⟩ := Prod.mk.inj hrun
    exact Nat.zero_le _

theorem paid_pure (count : α → Nat) {a : α} (h : count a = 0) (extra : Nat) :
    Paid (β := β) (ε := ε) (pure a) count 0 extra where
  places := (paid_lift (consumes_pure a) extra).places
  ok := by
    intro input log a' left hrun
    cases hrun
    rw [h]
    exact ⟨List.suffix_refl _, le_rfl, by simp⟩
  error := (paid_lift (consumes_pure a) extra).error

/-- **One reader after the other**: what the second counts is what the first has not counted. -/
theorem Paid.bind {next : α → Logged β ε γ} {count' : γ → Nat} {spare' : Nat}
    (h : Paid m count spare extra)
    (hnext : ∀ a, Paid (next a) (fun c => count' c - count a) spare' extra) :
    Paid (m >>= next) count' (spare + spare') extra where
  places := by
    intro input place hplace
    -- an entry of the second reader is a suffix of what the first has left
    rcases hrun : m.run input with ⟨log, error | ⟨a, left⟩⟩
    · rw [Logged.run_bind_error hrun] at hplace
      apply h.places place
      rwa [hrun]
    · rw [Logged.run_bind_ok hrun] at hplace
      rcases List.mem_append.mp hplace with hfirst | hsecond
      · apply h.places place
        rwa [hrun]
      · exact ((hnext a).places place hsecond).trans (h.ok hrun).1
  ok := by
    intro input log c left hrun
    rcases hfirst : m.run input with ⟨log₁, error | ⟨a, rest⟩⟩
    · rw [Logged.run_bind_error hfirst] at hrun
      cases hrun
    · rcases hsecond : (next a).run rest with ⟨log₂, result⟩
      rw [Logged.run_bind_ok hfirst, hsecond] at hrun
      dsimp only at hrun
      obtain ⟨rfl, rfl⟩ := Prod.mk.inj hrun
      -- the two counts add up, and so do the bytes that pay for them
      obtain ⟨hsuffix, hcount, hle⟩ := h.ok hfirst
      obtain ⟨hsuffix', hcount', hle'⟩ := (hnext a).ok hsecond
      rw [List.length_append]
      exact ⟨hsuffix'.trans hsuffix, by omega, by omega⟩
  error := by
    intro input log error hrun
    rcases hfirst : m.run input with ⟨log₁, error₁ | ⟨a, rest⟩⟩
    · rw [Logged.run_bind_error hfirst] at hrun
      obtain ⟨rfl, -⟩ := Prod.mk.inj hrun
      exact h.error hfirst
    · rcases hsecond : (next a).run rest with ⟨log₂, result⟩
      rw [Logged.run_bind_ok hfirst, hsecond] at hrun
      dsimp only at hrun
      obtain ⟨rfl, rfl⟩ := Prod.mk.inj hrun
      obtain ⟨-, -, hle⟩ := h.ok hfirst
      have hle' := (hnext a).error hsecond
      rw [List.length_append]
      omega

/-- What is made of a value counts no more than it. -/
theorem Paid.map {f : α → γ} {count' : γ → Nat} (h : Paid m count spare extra)
    (hcount : ∀ a, count' (f a) ≤ count a) :
    Paid (m >>= fun a => pure (f a)) count' spare extra := by
  have hbind : Paid (m >>= fun a => pure (f a)) count' (spare + 0) extra :=
    h.bind fun a =>
      paid_pure (fun c => count' c - count a) (Nat.sub_eq_zero_of_le (hcount a)) extra
  exact hbind

/-- An entry in front of the log takes one of the elements to spare. -/
theorem Paid.mark (h : Paid m count (spare + 1) extra) :
    Paid m.mark (fun a => count a + 1) spare (extra + 1) where
  places := by
    intro input place hplace
    rcases List.mem_cons.mp hplace with rfl | hlater
    · exact List.suffix_refl _
    · exact h.places place hlater
  ok := by
    intro input log a left hrun
    rcases hinner : m.run input with ⟨log', result⟩
    rw [Logged.run_mark hinner] at hrun
    obtain ⟨rfl, rfl⟩ := Prod.mk.inj hrun
    -- the new entry is paid for by the element that is no longer to spare
    obtain ⟨hsuffix, hcount, hle⟩ := h.ok hinner
    rw [List.length_cons]
    exact ⟨hsuffix, by omega, by omega⟩
  error := by
    intro input log error hrun
    rcases hinner : m.run input with ⟨log', result⟩
    rw [Logged.run_mark hinner] at hrun
    obtain ⟨rfl, rfl⟩ := Prod.mk.inj hrun
    have hle := h.error hinner
    rw [List.length_cons]
    omega

/-- Less to spare, and more entries without a value. -/
theorem Paid.weaken {spare' extra' : Nat} (h : Paid m count spare extra) (hspare : spare' ≤ spare)
    (hextra : extra ≤ extra') : Paid m count spare' extra' where
  places := h.places
  ok := by
    intro input log a left hrun
    obtain ⟨hsuffix, hcount, hle⟩ := h.ok hrun
    exact ⟨hsuffix, hcount, by omega⟩
  error := by
    intro input log error hrun
    have hle := h.error hrun
    omega

/-- There are never more entries than that. -/
theorem Paid.length_le (h : Paid m count spare extra) (input : List β) :
    (m.run input).1.length ≤ input.length + extra := by
  rcases hrun : m.run input with ⟨log, error | ⟨a, left⟩⟩
  · exact h.error hrun
  · obtain ⟨-, -, hle⟩ := h.ok hrun
    show log.length ≤ input.length + extra
    omega

/-- A reader consumes what it has to spare. -/
theorem Paid.consumes (h : Paid m count spare extra) (hlogs : Logs m reader) :
    Consumes spare reader := by
  intro input a left hread
  rw [← hlogs input] at hread
  obtain ⟨hsuffix, -, hle⟩ := h.ok (Prod.ext rfl hread)
  exact ⟨hsuffix, by omega⟩

end Paid

end Readers

/-! ## Fixed widths -/

/-- The lowest `width` bytes of a number, least significant byte first. -/
def leBytes : Nat → Nat → List UInt8
  | 0, _ => []
  | width + 1, n => UInt8.ofNat (n % 256) :: leBytes width (n / 256)

@[simp] theorem length_leBytes (width n : Nat) : (leBytes width n).length = width := by
  induction width generalizing n with
  | zero => rfl
  | succ width ih => rw [leBytes, List.length_cons, ih]

/-! ## Variable widths -/

/-- A number in groups of seven bits, lowest first and no more than it takes; every byte but
the last one has its high bit set. -/
def varuint (n : Nat) : List UInt8 :=
  if n < 128 then [UInt8.ofNat n]
  else UInt8.ofNat (128 + n % 128) :: varuint (n / 128)

theorem varuint_small {n : Nat} (h : n < 128) : varuint n = [UInt8.ofNat n] := by
  rw [varuint, if_pos h]

theorem varuint_large {n : Nat} (h : 128 ≤ n) :
    varuint n = UInt8.ofNat (128 + n % 128) :: varuint (n / 128) := by
  rw [varuint, if_neg (Nat.not_lt.mpr h)]

end Library.Wire
