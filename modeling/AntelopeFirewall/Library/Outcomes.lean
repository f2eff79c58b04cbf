import AntelopeFirewall.Library.Wire

/-!
# What Readers Can End In

Whether a composed reader can ever return or fail with some error is settled by its parts if they
do not look ahead: an input that takes the first part to its end can be followed by any input for
the next.

- `Local` says that a reader looks at what it takes only,
- `Yields` and `Throws` say what it can end in, `yields_bind_iff` and `throws_bind_iff` how this is
  composed,
- `mapError` is a reader with other errors; it reads the same encodings.
-/

namespace Library.Wire

variable {β ε ε' α γ : Type}

/-! ## Readers with other errors -/

/-- The reader with its errors renamed. -/
def mapError (rename : ε → ε') (reader : StateT (List β) (Except ε) α) :
    StateT (List β) (Except ε') α := fun input => (reader input).mapError rename

variable {rename : ε → ε'} {reader : StateT (List β) (Except ε) α} {input left : List β} {a : α}
  {error : ε}

theorem mapError_of_ok (h : reader input = .ok (a, left)) :
    mapError rename reader input = .ok (a, left) := by
  unfold mapError
  rw [h]
  rfl

theorem mapError_of_error (h : reader input = .error error) :
    mapError rename reader input = .error (rename error) := by
  unfold mapError
  rw [h]
  rfl

@[simp] theorem mapError_pure (rename : ε → ε') (a : α) :
    mapError (β := β) rename (pure a) = pure a := rfl

@[simp] theorem mapError_bind (rename : ε → ε') (reader : StateT (List β) (Except ε) α)
    (next : α → StateT (List β) (Except ε) γ) :
    mapError rename (reader >>= next) =
      mapError rename reader >>= fun a => mapError rename (next a) := by
  funext input
  cases hread : reader input with
  | error error =>
    rw [mapError_of_error (bind_error hread), bind_error (mapError_of_error hread)]
  | ok read =>
    obtain ⟨a, left⟩ := read
    rw [bind_ok (mapError_of_ok hread)]
    show ((reader >>= next) input).mapError rename = _
    rw [bind_ok hread]
    rfl

theorem mapError_eq_ok (h : mapError rename reader input = .ok (a, left)) :
    reader input = .ok (a, left) := by
  cases hread : reader input with
  | error error =>
    rw [mapError_of_error hread] at h
    cases h
  | ok read =>
    rw [mapError_of_ok hread] at h
    exact congrArg Except.ok (Except.ok.inj h)

theorem Reads.mapError {bytes : List β} (h : Reads reader bytes a) (rename : ε → ε') :
    Reads (Wire.mapError rename reader) bytes a where
  complete := fun rest => mapError_of_ok (h.complete rest)
  truncated := fun cut hpre hne => by
    obtain ⟨error, herror⟩ := h.truncated cut hpre hne
    exact ⟨rename error, mapError_of_error herror⟩

/-! ## Readers that do not look ahead -/

/-- What a reader returns and takes depends on what it takes only. -/
def Local (reader : StateT (List β) (Except ε) α) : Prop :=
  ∀ input a left, reader input = .ok (a, left) →
    ∃ taken, input = taken ++ left ∧ ∀ rest, reader (taken ++ rest) = .ok (a, rest)

theorem local_pure (a : α) : Local (β := β) (ε := ε) (pure a) := by
  intro input a' left h
  cases h
  exact ⟨[], rfl, fun _ => rfl⟩

theorem local_throw (error : ε) : Local (throw error : StateT (List β) (Except ε) α) := by
  intro input a left h
  cases h

theorem Local.bind {next : α → StateT (List β) (Except ε) γ} (h : Local reader)
    (hnext : ∀ a, Local (next a)) : Local (reader >>= next) := by
  intro input c left hread
  cases hfirst : reader input with
  | error error =>
    rw [bind_error hfirst] at hread
    cases hread
  | ok first =>
    obtain ⟨a, middle⟩ := first
    rw [bind_ok hfirst] at hread
    obtain ⟨taken, rfl, hcomplete⟩ := h _ _ _ hfirst
    obtain ⟨taken', rfl, hcomplete'⟩ := hnext a _ _ _ hread
    refine ⟨taken ++ taken', (List.append_assoc ..).symm, fun rest => ?_⟩
    rw [List.append_assoc, bind_ok (hcomplete _), hcomplete']

theorem Local.elements (h : Local reader) (n : Nat) : Local (elements reader n) := by
  induction n with
  | zero => exact local_pure []
  | succ n ih => exact h.bind fun first => ih.bind fun rest => local_pure _

theorem Local.mapError (h : Local reader) (rename : ε → ε') :
    Local (Wire.mapError rename reader) := by
  intro input a left hread
  obtain ⟨taken, rfl, hcomplete⟩ := h _ _ _ (mapError_eq_ok hread)
  exact ⟨taken, rfl, fun rest => mapError_of_ok (hcomplete rest)⟩

/-! ## What a reader can end in -/

/-- The reader returns the value on some input. -/
def Yields (reader : StateT (List β) (Except ε) α) (a : α) : Prop :=
  ∃ input left, reader input = .ok (a, left)

/-- The reader fails with the error on some input. -/
def Throws (reader : StateT (List β) (Except ε) α) (error : ε) : Prop :=
  ∃ input, reader input = .error error

theorem Reads.yields {bytes : List β} (h : Reads reader bytes a) : Yields reader a := by
  have hread := h.complete []
  exact ⟨_, _, hread⟩

theorem yields_pure_iff {a' : α} : Yields (β := β) (ε := ε) (pure a) a' ↔ a' = a := by
  constructor
  · rintro ⟨input, left, h⟩
    cases h
    rfl
  · rintro rfl
    exact ⟨[], [], rfl⟩

theorem not_throws_pure : ¬ Throws (β := β) (pure a) error := by
  rintro ⟨input, h⟩
  cases h

theorem not_yields_throw : ¬ Yields (throw error : StateT (List β) (Except ε) α) a := by
  rintro ⟨input, left, h⟩
  cases h

theorem throws_throw_iff {error' : ε} :
    Throws (throw error : StateT (List β) (Except ε) α) error' ↔ error' = error := by
  constructor
  · rintro ⟨input, h⟩
    cases h
    rfl
  · rintro rfl
    exact ⟨[], rfl⟩

section Bind

variable {next : α → StateT (List β) (Except ε) γ}

/-- **Return rule**: the one reader can be taken to its end in front of any input for the other. -/
theorem yields_bind_iff (h : Local reader) {c : γ} :
    Yields (reader >>= next) c ↔ ∃ a, Yields reader a ∧ Yields (next a) c := by
  constructor
  · rintro ⟨input, left, hread⟩
    cases hfirst : reader input with
    | error error =>
      rw [bind_error hfirst] at hread
      cases hread
    | ok first =>
      rw [bind_ok hfirst] at hread
      exact ⟨first.1, ⟨input, first.2, hfirst⟩, ⟨first.2, left, hread⟩⟩
  · rintro ⟨a, ⟨input, left, hfirst⟩, ⟨input', left', hsecond⟩⟩
    obtain ⟨taken, -, hcomplete⟩ := h _ _ _ hfirst
    refine ⟨taken ++ input', left', ?_⟩
    rw [bind_ok (hcomplete input')]
    exact hsecond

/-- **Error rule**. -/
theorem throws_bind_iff (h : Local reader) :
    Throws (reader >>= next) error ↔
      Throws reader error ∨ ∃ a, Yields reader a ∧ Throws (next a) error := by
  -- By the reader that fails: the first one, or the next one at the value the first one read.
  constructor
  · rintro ⟨input, hread⟩
    cases hfirst : reader input with
    | error error' =>
      rw [bind_error hfirst] at hread
      cases hread
      exact .inl ⟨input, hfirst⟩
    | ok first =>
      rw [bind_ok hfirst] at hread
      exact .inr ⟨first.1, ⟨input, first.2, hfirst⟩, ⟨first.2, hread⟩⟩
  · rintro (⟨input, hread⟩ | ⟨a, ⟨input, left, hfirst⟩, ⟨input', hsecond⟩⟩)
    · exact ⟨input, bind_error hread⟩
    -- what follows the first value can be any input
    · obtain ⟨taken, -, hcomplete⟩ := h _ _ _ hfirst
      refine ⟨taken ++ input', ?_⟩
      rw [bind_ok (hcomplete input')]
      exact hsecond

end Bind

/-- A sequence fails if an element can, and there is one. -/
theorem throws_elements_iff (h : Local reader) {n : Nat} :
    Throws (elements reader n) error ↔ 0 < n ∧ Throws reader error := by
  -- Induction on the number: the first element fails, or one of the others does.
  induction n with
  | zero => exact iff_of_false not_throws_pure fun hboth => absurd hboth.1 (Nat.lt_irrefl 0)
  | succ n ih =>
    have hrest : ∀ first, Throws (elements reader n >>= fun rest => pure (first :: rest)) error →
        Throws reader error := by
      intro first hthrows
      rcases (throws_bind_iff (h.elements n)).mp hthrows with hrest | ⟨rest, -, hpure⟩
      · exact (ih.mp hrest).2
      · exact absurd hpure not_throws_pure
    unfold elements
    rw [throws_bind_iff h]
    constructor
    · rintro (hfirst | ⟨first, -, hlater⟩)
      · exact ⟨Nat.succ_pos n, hfirst⟩
      · exact ⟨Nat.succ_pos n, hrest first hlater⟩
    · exact fun hboth => .inl hboth.2

theorem throws_mapError_iff {error' : ε'} :
    Throws (mapError rename reader) error' ↔
      ∃ error, Throws reader error ∧ rename error = error' := by
  constructor
  · rintro ⟨input, h⟩
    cases hread : reader input with
    | error error =>
      rw [mapError_of_error hread] at h
      exact ⟨error, ⟨input, hread⟩, Except.error.inj h⟩
    | ok read =>
      rw [mapError_of_ok hread] at h
      cases h
  · rintro ⟨error, ⟨input, hread⟩, rfl⟩
    exact ⟨input, mapError_of_error hread⟩

end Library.Wire
