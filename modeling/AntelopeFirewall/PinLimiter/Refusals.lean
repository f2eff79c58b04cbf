import AntelopeFirewall.PinLimiter.Ceiling

/-!
# The Invariant of the Pin Map

A call of `admits` reads the clock before it waits for the map, so the calls that hold the map
one after the other may bring their readings in any order. Nothing in this file assumes an
order of them.

- `Bounded` is the invariant of the map: its size and its counts,
- `admits_bounded` says everything one call can do to such a map: a full one that is swept in
  vain was not changed by the sweep,
- `Answered` is what the answer of a call tells, `pins_bounded` the result for runs.
-/

namespace AntelopeFirewall.PinLimiter

open Library Library.Machine

variable {limiter : PinLimiter} {state : PinState} {key : String} {now : Nat}

/-- The map holds at most `maxPinKeys` counters, and each has counted at least one request and
no more than the limit. -/
structure Bounded (limiter : PinLimiter) (state : PinState) : Prop where
  size : state.len ≤ maxPinKeys
  counts : ∀ key started counted, state.lookup key = some (started, counted) →
    1 ≤ counted ∧ counted ≤ limiter.limit

/-- The entries that a sweep at this reading would keep. -/
def unexpired (limiter : PinLimiter) (state : PinState) (now : Nat) : PinState :=
  state.retain fun _ entry => now - entry.1 < limiter.window

/-- The grounds for a refusal: no request is allowed at all, the counter of the key is at the
limit in a window that runs, or there is no room for the key among windows that all run. -/
def MayRefuse (limiter : PinLimiter) (state : PinState) (key : String) (now : Nat) : Prop :=
  limiter.limit = 0 ∨
    (∃ started, state.lookup key = some (started, limiter.limit) ∧
      now - started < limiter.window) ∨
    key ∉ state ∧ (limiter.unexpired state now).len = maxPinKeys

/-- What the answer of a call tells about the map that it leaves. -/
structure Answered (limiter : PinLimiter) (state : PinState) (call : PinCall) : Prop where
  untouched : (limiter.step state call).1 = false → (limiter.step state call).2 = state
  grounds : (limiter.step state call).1 = false → MayRefuse limiter state call.key call.now
  others : (limiter.step state call).1 = true → ∀ other, other ≠ call.key →
    (limiter.step state call).2.lookup other = state.lookup other ∨
      (limiter.step state call).2.lookup other = none ∧ ∃ started counted,
        state.lookup other = some (started, counted) ∧ limiter.window ≤ call.now - started

/-! ## Making room -/

/-- Room that was made is there. -/
theorem makeRoom_granted {window : Nat} (h : (makeRoom state now window).1 = true) :
    (makeRoom state now window).2.len < maxPinKeys := by
  unfold makeRoom at h ⊢
  split at h
  · next hroom =>
    rw [if_pos hroom]
    exact hroom
  · next hfull =>
    rw [if_neg hfull]
    exact of_decide_eq_true h

/-- A sweep that makes no room in a map of the allowed size has not found anything. -/
theorem makeRoom_refused (hsize : state.len ≤ maxPinKeys)
    (h : (makeRoom state now limiter.window).1 = false) :
    (makeRoom state now limiter.window).2 = state ∧
      (limiter.unexpired state now).len = maxPinKeys := by
  unfold makeRoom at h ⊢
  split at h
  · cases h
  · next hfull =>
    rw [if_neg hfull]
    have hleft : maxPinKeys ≤ (limiter.unexpired state now).len :=
      Nat.le_of_not_lt (of_decide_eq_false h)
    -- as many are left as there were
    have hsame : limiter.unexpired state now = state :=
      Table.retain_eq_self (hsize.trans hleft)
    refine ⟨hsame, Nat.le_antisymm ?_ hleft⟩
    rw [hsame]
    exact hsize

/-! ## One call -/

/-- Everything a call can do to a bounded map: refuse it as it is, open a window for the key in
its own slot or in a free one, or count one more request in the window that runs. -/
theorem admits_bounded (h : Bounded limiter state) (key : String) (now : Nat) :
    (limiter.admits state key now = (false, state) ∧ MayRefuse limiter state key now) ∨
    (0 < limiter.limit ∧ ∃ swept, Swept limiter.window now state swept ∧
      swept.len ≤ maxPinKeys ∧ (key ∈ swept ∨ swept.len < maxPinKeys) ∧
      limiter.admits state key now = (true, swept.insert key (now, 1))) ∨
    (∃ started counted, state.lookup key = some (started, counted) ∧ counted < limiter.limit ∧
      limiter.admits state key now = (true, state.insert key (started, counted + 1))) := by
  unfold admits
  -- By the limit, by the window of the key, and by the room there is for a new one.
  by_cases hlimit : limiter.limit = 0
  · exact .inl ⟨if_pos hlimit, .inl hlimit⟩
  rw [if_neg hlimit]
  have hpos := Nat.pos_of_ne_zero hlimit
  by_cases hexpired : limiter.expired state key now = true
  · rw [if_pos hexpired]
    -- a key with an entry keeps its slot
    by_cases hheld : key ∈ state
    · rw [if_pos hheld]
      exact .inr (.inl ⟨hpos, state, Swept.refl _ _ _, h.size, .inl hheld, rfl⟩)
    · rw [if_neg hheld]
      -- a new key sweeps a full map first, and may still find it full
      have hswept := swept_makeRoom limiter.window now state
      rcases hmade : makeRoom state now limiter.window with ⟨room, swept⟩
      rw [hmade] at hswept
      cases room with
      | false =>
        obtain ⟨hsame, hlive⟩ := makeRoom_refused h.size (congrArg Prod.fst hmade)
        rw [hmade] at hsame
        exact .inl ⟨congrArg (Prod.mk false) hsame, .inr (.inr ⟨hheld, hlive⟩)⟩
      | true =>
        have hless := makeRoom_granted (congrArg Prod.fst hmade)
        rw [hmade] at hless
        exact .inr (.inl ⟨hpos, swept, hswept, hless.le, .inr hless, rfl⟩)
  · -- a window of the key is running
    rw [if_neg hexpired]
    obtain ⟨started, counted, hlookup, hlive⟩ := running_of_not_expired hexpired
    have hcounted := (h.counts key started counted hlookup).2
    rw [hlookup]
    by_cases hfull : limiter.limit ≤ counted
    · obtain rfl : counted = limiter.limit := Nat.le_antisymm hcounted hfull
      exact .inl ⟨if_pos hfull, .inr (.inl ⟨started, hlookup, hlive⟩)⟩
    · exact .inr (.inr ⟨started, counted, rfl, Nat.lt_of_not_le hfull, if_neg hfull⟩)

/-- A map with a counter of the key written to it. -/
theorem Bounded.insert (h : Bounded limiter state) {started counted : Nat}
    (hroom : key ∈ state ∨ state.len < maxPinKeys) (hlow : 1 ≤ counted)
    (hhigh : counted ≤ limiter.limit) : Bounded limiter (state.insert key (started, counted)) where
  -- a key that is held takes no new slot
  size := by
    by_cases hheld : key ∈ state
    · rw [Table.len_insert_of_mem hheld]
      exact h.size
    · rw [Table.len_insert_of_not_mem hheld]
      exact hroom.resolve_left hheld
  counts := by
    intro other started' counted' hlookup
    by_cases hother : other = key
    · subst hother
      rw [AList.lookup_insert] at hlookup
      cases hlookup
      exact ⟨hlow, hhigh⟩
    · rw [AList.lookup_insert_ne hother] at hlookup
      exact h.counts other started' counted' hlookup

/-- A swept map holds no new counters. -/
theorem Bounded.sweep (h : Bounded limiter state) {swept : PinState}
    (hswept : Swept limiter.window now state swept) (hsize : swept.len ≤ maxPinKeys) :
    Bounded limiter swept where
  size := hsize
  counts := by
    intro other started counted hlookup
    rcases hswept other with hsame | ⟨hgone, -⟩
    · rw [hsame] at hlookup
      exact h.counts other started counted hlookup
    · rw [hgone] at hlookup
      cases hlookup

/-- **Step**: a call keeps the map bounded. -/
theorem Bounded.step (h : Bounded limiter state) (call : PinCall) :
    Bounded limiter (limiter.step state call).2 := by
  unfold PinLimiter.step
  rcases admits_bounded h call.key call.now with
    ⟨hcall, -⟩ | ⟨hlimit, swept, hswept, hsize, hroom, hcall⟩ |
    ⟨started, counted, hlookup, hless, hcall⟩
  · rw [hcall]
    exact h
  · rw [hcall]
    exact (h.sweep hswept hsize).insert hroom (Nat.le_refl 1) hlimit
  · rw [hcall]
    have hheld : call.key ∈ state := AList.lookup_isSome.mp (by rw [hlookup]; rfl)
    exact h.insert (.inl hheld) (Nat.le_add_left 1 counted) hless

/-- An answer that admits has only the entries of other keys to account for. -/
theorem answered_of_admitted {call : PinCall} {after : PinState}
    (hstep : limiter.step state call = (true, after))
    (hothers : ∀ other, other ≠ call.key → after.lookup other = state.lookup other ∨
      after.lookup other = none ∧ ∃ started counted,
        state.lookup other = some (started, counted) ∧ limiter.window ≤ call.now - started) :
    Answered limiter state call := by
  have hadmitted : ¬ (limiter.step state call).1 = false := by
    rw [hstep]
    exact Bool.noConfusion
  refine ⟨fun hrefused => absurd hrefused hadmitted, fun hrefused => absurd hrefused hadmitted, ?_⟩
  intro _
  rw [hstep]
  exact hothers

/-- **Answer**: what the answer of a call on a bounded map tells. -/
theorem Bounded.answered (h : Bounded limiter state) (call : PinCall) :
    Answered limiter state call := by
  rcases admits_bounded h call.key call.now with
    ⟨hcall, hgrounds⟩ | ⟨-, swept, hswept, -, -, hcall⟩ | ⟨started, counted, -, -, hcall⟩
  · have hstep : limiter.step state call = (false, state) := hcall
    refine ⟨fun _ => congrArg Prod.snd hstep, fun _ => hgrounds, ?_⟩
    intro hadmitted
    rw [hstep] at hadmitted
    cases hadmitted
  · apply answered_of_admitted hcall
    intro other hother
    rw [AList.lookup_insert_ne hother]
    exact hswept other
  · apply answered_of_admitted hcall
    intro other hother
    exact .inl (AList.lookup_insert_ne hother)

/-! ## Runs -/

theorem bounded_empty (limiter : PinLimiter) : Bounded limiter ∅ :=
  ⟨Nat.zero_le _, by simp⟩

/-- **Pin map**: after any calls, in whatever order their readings come, the map is bounded, and
every call on the way left it as its answer tells. -/
theorem pins_bounded (limiter : PinLimiter) (calls : List PinCall) :
    Bounded limiter (final limiter.step ∅ calls) ∧
      AtEachStep limiter.step ∅ calls (Answered limiter) := by
  have hreached : ∀ calls, Bounded limiter (final limiter.step ∅ calls) :=
    final_invariant limiter.step (Bounded limiter) (fun _ call h => h.step call)
      (bounded_empty limiter)
  refine ⟨hreached calls, ?_⟩
  intro before call _ _
  exact (hreached before).answered call

end AntelopeFirewall.PinLimiter
