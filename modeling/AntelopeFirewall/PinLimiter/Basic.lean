import AntelopeFirewall.Library.Table
import Mathlib.Algebra.Order.Ring.Nat

/-!
# The Pin Limiter

A client may ask for the upstream node that answered it before. `PinLimiter` bounds how
often: it is a fixed-window counter for every pair of client address and node name, kept
in a map that holds at most `maxPinKeys` of them.

- `PinLimiter.admits` decides one request and updates the map,
- `PinLimiter.makeRoom` sweeps the windows that ended when the map is full,
- `PinLimiter.admits_cases` says everything one call can do.

The clock is `std::time::Instant`: readings are nanoseconds and `duration_since` saturates
at zero, which is what subtraction of natural numbers does.
-/

namespace AntelopeFirewall

open Library

/-- Ceiling on the keys the pin limiter holds (`MAX_PIN_KEYS`). -/
def maxPinKeys : Nat := 10000

/-- For every key the start of its window and the requests admitted in it. -/
abbrev PinState := Table String (Nat × Nat)

/-- Exact fixed window counter over the pinned requests of one client address and node
name; `window` is in nanoseconds. The counters themselves live behind a mutex that every
call holds to its end, and are passed along as a `PinState`. -/
structure PinLimiter where
  limit : Nat
  window : Nat
  deriving DecidableEq, Repr

namespace PinLimiter

/-- A limiter for a window given in seconds. -/
def new (limit windowSeconds : Nat) : PinLimiter := ⟨limit, 10 ^ 9 * windowSeconds⟩

/-- Sweep the windows that ended and report whether the map has room for one more key. -/
def makeRoom (state : PinState) (now window : Nat) : Bool × PinState :=
  if state.len < maxPinKeys then (true, state)
  else
    let swept := state.retain fun _ entry => now - entry.1 < window
    (swept.len < maxPinKeys, swept)

/-- Whether the key has no window that is still running. -/
def expired (self : PinLimiter) (state : PinState) (key : String) (now : Nat) : Bool :=
  match state.lookup key with
  | some (started, _) => self.window ≤ now - started
  | none => true

/-- Admit one more pinned request for this key inside the current window. -/
def admits (self : PinLimiter) (state : PinState) (key : String) (now : Nat) :
    Bool × PinState :=
  if self.limit = 0 then (false, state)
  else if self.expired state key now then
    -- a key the map already holds reuses its own slot, any other needs room
    match if key ∈ state then (true, state) else makeRoom state now self.window with
    | (false, state) => (false, state)
    | (true, state) => (true, state.insert key (now, 1))
  else
    match state.lookup key with
    | some (started, counted) =>
      if self.limit ≤ counted then (false, state)
      else (true, state.insert key (started, counted + 1))
    -- not reached: a key without an entry counts as expired
    | none => (false, state)

/-! ## What one call can do -/

/-- `after` is `before` with some of the windows that ended by `now` swept. -/
def Swept (window now : Nat) (before after : PinState) : Prop :=
  ∀ key, after.lookup key = before.lookup key ∨
    after.lookup key = none ∧
      ∃ started counted, before.lookup key = some (started, counted) ∧ window ≤ now - started

theorem Swept.refl (window now : Nat) (state : PinState) : Swept window now state state :=
  fun _ => .inl rfl

theorem swept_retain (window now : Nat) (state : PinState) :
    Swept window now state (state.retain fun _ entry => now - entry.1 < window) := by
  intro key
  rw [Table.lookup_retain]
  cases hlookup : state.lookup key with
  | none => exact .inl rfl
  | some entry =>
    obtain ⟨started, counted⟩ := entry
    by_cases hlive : now - started < window
    · exact .inl (by simp [hlive])
    · exact .inr ⟨by simpa using hlive, started, counted, rfl, Nat.le_of_not_lt hlive⟩

theorem swept_makeRoom (window now : Nat) (state : PinState) :
    Swept window now state (makeRoom state now window).2 := by
  unfold makeRoom
  split
  · exact Swept.refl window now state
  · exact swept_retain window now state

theorem expired_iff (self : PinLimiter) (state : PinState) (key : String) (now : Nat) :
    self.expired state key now = true ↔
      ∀ started counted, state.lookup key = some (started, counted) →
        self.window ≤ now - started := by
  unfold expired
  cases state.lookup key with
  | none => simp
  | some entry => simp [Prod.ext_iff]

/-- A key that is not expired has a counter in a window that runs. -/
theorem running_of_not_expired {self : PinLimiter} {state : PinState} {key : String} {now : Nat}
    (h : ¬ self.expired state key now = true) :
    ∃ started counted, state.lookup key = some (started, counted) ∧
      now - started < self.window := by
  rw [expired_iff] at h
  push Not at h
  exact h

/-- Everything a call can do: refuse and at most sweep, open a window for a key that has
no running one, or count one more request in the window that runs. -/
theorem admits_cases (self : PinLimiter) (state : PinState) (key : String) (now : Nat) :
    (∃ swept, Swept self.window now state swept ∧
      self.admits state key now = (false, swept)) ∨
    (0 < self.limit ∧
      (∀ started counted, state.lookup key = some (started, counted) →
        self.window ≤ now - started) ∧
      ∃ swept, Swept self.window now state swept ∧
        self.admits state key now = (true, swept.insert key (now, 1))) ∨
    (∃ started counted, state.lookup key = some (started, counted) ∧
      now - started < self.window ∧ counted < self.limit ∧
      self.admits state key now = (true, state.insert key (started, counted + 1))) := by
  unfold admits
  -- By the limit, by the window of the key, and by the room there is for a new one.
  by_cases hlimit : self.limit = 0
  · exact .inl ⟨state, Swept.refl _ _ _, if_pos hlimit⟩
  · rw [if_neg hlimit]
    by_cases hexpired : self.expired state key now = true
    · rw [if_pos hexpired]
      have hended := (expired_iff self state key now).mp hexpired
      have hpos := Nat.pos_of_ne_zero hlimit
      by_cases hheld : key ∈ state
      · -- its own slot is reused, without a sweep
        rw [if_pos hheld]
        exact .inr (.inl ⟨hpos, hended, state, Swept.refl _ _ _, rfl⟩)
      · rw [if_neg hheld]
        -- a new key is let in if a sweep makes room
        have hswept := swept_makeRoom self.window now state
        rcases hroom : makeRoom state now self.window with ⟨room, swept⟩
        rw [hroom] at hswept
        cases room with
        | false => exact .inl ⟨swept, hswept, rfl⟩
        | true => exact .inr (.inl ⟨hpos, hended, swept, hswept, rfl⟩)
    · -- a window of the key is running
      rw [if_neg hexpired]
      obtain ⟨started, counted, hlookup, hlive⟩ := running_of_not_expired hexpired
      rw [hlookup]
      by_cases hfull : self.limit ≤ counted
      · exact .inl ⟨state, Swept.refl _ _ _, if_pos hfull⟩
      · exact .inr (.inr ⟨started, counted, rfl, hlive, by omega, if_neg hfull⟩)

/-- Making room drops an entry only from a full map, and only one whose window ended. -/
theorem makeRoom_lookup (state : PinState) (now window : Nat) (key : String) :
    (makeRoom state now window).2.lookup key = state.lookup key ∨
      maxPinKeys ≤ state.len ∧ (makeRoom state now window).2.lookup key = none ∧
        ∃ started counted, state.lookup key = some (started, counted) ∧
          window ≤ now - started := by
  unfold makeRoom
  split
  · exact .inl rfl
  · next hfull =>
    rcases swept_retain window now state key with hsame | hgone
    · exact .inl hsame
    · exact .inr ⟨Nat.le_of_not_lt hfull, hgone⟩

/-- A call leaves the entries of other keys, but for those that a full map drops. -/
theorem admits_lookup_ne (self : PinLimiter) (state : PinState) {key other : String}
    (hne : other ≠ key) (now : Nat) :
    (self.admits state key now).2.lookup other = state.lookup other ∨
      maxPinKeys ≤ state.len ∧ (self.admits state key now).2.lookup other = none ∧
        ∃ started counted, state.lookup other = some (started, counted) ∧
          self.window ≤ now - started := by
  unfold admits
  split
  · exact .inl rfl
  · split
    · by_cases hheld : key ∈ state
      · rw [if_pos hheld]
        exact .inl (AList.lookup_insert_ne hne)
      · rw [if_neg hheld]
        have hroom := makeRoom_lookup state now self.window other
        rcases hmade : makeRoom state now self.window with ⟨room, swept⟩
        rw [hmade] at hroom
        cases room with
        | false => exact hroom
        | true =>
          -- the new entry is not the other key's
          dsimp only
          rw [AList.lookup_insert_ne hne]
          exact hroom
    · cases state.lookup key with
      | none => exact .inl rfl
      | some entry =>
        dsimp only
        split
        · exact .inl rfl
        · exact .inl (AList.lookup_insert_ne hne)

end PinLimiter

end AntelopeFirewall
