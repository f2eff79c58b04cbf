import AntelopeFirewall.RateLimiter.Basic
import AntelopeFirewall.Library.Machine
import AntelopeFirewall.Library.WindowLedger

/-!
# Accounting of the Rate Limiter

The two maps of a limiter are a two-window counter in the sense of `Library.WindowLedger`:
`view` is the abstraction, the rollover is `TwoWindow.advance` and a charge is
`TwoWindow.charge`. Over a run of checks the counter therefore tracks the ledger of all
charges ever made, however the rollovers came about.

- `view_updateCurrentWindow` and `view_increment` are the two refinement steps,
- `run_tracks` is the run, `attempt_accounting` the result for one limiter.
-/

namespace AntelopeFirewall.RateLimiter

open Library Library.Machine

/-! ## The two maps as a two-window counter -/

/-- What the maps say about every bucket. -/
def view (state : WindowState) : TwoWindow String :=
  ⟨state.currentWindow, state.lastBuckets.count, state.currentBuckets.count⟩

@[simp] theorem view_index (state : WindowState) :
    (view state).index = state.currentWindow := rfl

/-- The rollover of the maps is the advance of the counter. -/
theorem view_updateCurrentWindow (windowDuration now : Nat) (state : WindowState) :
    view (updateCurrentWindow windowDuration now state) =
      (view state).advance (getCurrentWindow windowDuration now) := by
  unfold updateCurrentWindow
  by_cases hsame : getCurrentWindow windowDuration now = state.currentWindow
  · rw [if_neg (not_not_intro hsame), hsame]
    exact ((view state).advance_self).symm
  · rw [if_pos hsame, TwoWindow.advance_of_ne hsame]
    by_cases hnext : state.currentWindow + 1 = getCurrentWindow windowDuration now
    · -- the swapped map stays
      simp [view, hnext]
      rfl
    · -- both maps are cleared
      simp [view, hnext]
      rfl

/-- A charge to the map is a charge to the counter. -/
theorem view_increment (state : WindowState) (bucket : String) (val : Nat) :
    view (increment state bucket val) = (view state).charge bucket val := by
  simp only [view, increment_currentWindow, increment_lastBuckets, increment_currentBuckets,
    TwoWindow.charge, TwoWindow.mk.injEq, true_and]
  funext bucket'
  exact Table.count_bump bucket bucket' val state.currentBuckets

/-! ## The ledger of a run -/

/-- Charges made in a window, as ledger entries. -/
def entries (window : Nat) (charges : List (String × Nat)) : List (Charge String) :=
  charges.map fun charge => ⟨window, charge.1, charge.2⟩

/-- Every charge the checks of a run made, with the window of its check. -/
def ledger (windowDuration : Nat) (answered : List (Attempt × Decision)) :
    List (Charge String) :=
  answered.flatMap fun e => entries (getCurrentWindow windowDuration e.1.now) e.2.charges

theorem ledger_append (windowDuration : Nat) (xs ys : List (Attempt × Decision)) :
    ledger windowDuration (xs ++ ys) =
      ledger windowDuration xs ++ ledger windowDuration ys := List.flatMap_append

theorem ledger_singleton (windowDuration : Nat) (attempt : Attempt) (decision : Decision) :
    ledger windowDuration [(attempt, decision)] =
      entries (getCurrentWindow windowDuration attempt.now) decision.charges := by
  simp [ledger]

/-- Charges made in the window the counts are for are entered in the ledger as they are. -/
theorem tracks_incrementAll {state : WindowState} {ledger : List (Charge String)}
    (h : (view state).Tracks ledger) (charges : List (String × Nat)) :
    (view (incrementAll charges state)).Tracks
      (ledger ++ entries state.currentWindow charges) := by
  induction charges generalizing state ledger with
  | nil => simpa [entries] using h
  | cons charge charges ih =>
    have hstep := h.charge charge.1 charge.2
    rw [← view_increment] at hstep
    have hrest := ih hstep
    simpa [entries] using hrest

variable {F : Type} [F32 F] {self : RateLimiter}

/-- **Step**: a check in the stored window or a later one keeps the counts in step with the
ledger. -/
theorem tracks_shouldRequestPass {state : WindowState} {ledger : List (Charge String)}
    (h : (view state).Tracks ledger) {attempt : Attempt}
    (hwindow : state.currentWindow ≤ getCurrentWindow self.windowDuration attempt.now) :
    (view (shouldRequestPass F self state attempt).2).Tracks
      (ledger ++ entries (getCurrentWindow self.windowDuration attempt.now)
        (shouldRequestPass F self state attempt).1.charges) := by
  have hrolled := h.advance hwindow
  rw [← view_updateCurrentWindow] at hrolled
  rw [shouldRequestPass_state]
  have hcharged := tracks_incrementAll hrolled (shouldRequestPass F self state attempt).1.charges
  rwa [updateCurrentWindow_currentWindow] at hcharged

/-- After a check the counts are those of its window. -/
@[simp] theorem shouldRequestPass_currentWindow (state : WindowState) (attempt : Attempt) :
    (shouldRequestPass F self state attempt).2.currentWindow =
      getCurrentWindow self.windowDuration attempt.now := by
  rw [shouldRequestPass_state, incrementAll_currentWindow, updateCurrentWindow_currentWindow]

/-- The clock of a run: the limiter is built at `start`, and no reading goes back. -/
def ClockNeverGoesBack (start : Nat) (readings : List Nat) : Prop :=
  (start :: readings).Pairwise (· ≤ ·)

theorem ClockNeverGoesBack.initial {start : Nat} {readings earlier : List Nat}
    (h : ClockNeverGoesBack start readings) (hpre : earlier <+: readings) :
    ClockNeverGoesBack start earlier :=
  List.Pairwise.sublist (List.Sublist.cons_cons _ hpre.sublist) h

/-- A new reading is at or after every earlier one. -/
theorem ClockNeverGoesBack.le_last {start : Nat} {earlier : List Nat} {now : Nat}
    (h : ClockNeverGoesBack start (earlier ++ [now])) :
    ∀ reading ∈ start :: earlier, reading ≤ now := by
  have hsplit : (start :: earlier ++ [now]).Pairwise (· ≤ ·) := h
  exact fun reading hmem =>
    (List.pairwise_append.mp hsplit).2.2 reading hmem now (List.mem_singleton_self now)

/-- The stored window is not ahead of the next reading. -/
theorem currentWindow_le_of_clock {start : Nat} {earlier : List Attempt} {attempt : Attempt}
    (h : ClockNeverGoesBack start ((earlier ++ [attempt]).map Attempt.now)) :
    (final (shouldRequestPass F self) (newState self.windowDuration start)
      earlier).currentWindow ≤ getCurrentWindow self.windowDuration attempt.now := by
  rw [List.map_append] at h
  exact mark_le (shouldRequestPass F self) WindowState.currentWindow
    (getCurrentWindow_mono self.windowDuration)
    (fun state attempt => .inl (shouldRequestPass_currentWindow state attempt)) rfl earlier
    h.le_last

/-- **Run**: the counts track the ledger of the run. -/
theorem run_tracks (F : Type) [F32 F] (self : RateLimiter) {start : Nat} {calls : List Attempt}
    (hclock : ClockNeverGoesBack start (calls.map Attempt.now)) :
    (view (final (shouldRequestPass F self) (newState self.windowDuration start) calls)).Tracks
      (ledger self.windowDuration
        (trace (shouldRequestPass F self) (newState self.windowDuration start) calls)) := by
  refine run_invariant (shouldRequestPass F self)
    (fun answered state => (view state).Tracks (ledger self.windowDuration answered))
    (TwoWindow.tracks_fresh _) fun earlier attempt hpre htracks => ?_
  rw [trace_concat, final_concat, ledger_append, ledger_singleton]
  exact tracks_shouldRequestPass htracks (currentWindow_le_of_clock (hclock.initial (hpre.map _)))

/-- **Attempt accounting**: after every check of a run the stored window is the window of
its clock reading, the current map holds for every bucket the sum of the charges made to it
in that window, and the last map the sum of those made in the window before. This is about the
source as long as the sums stay below `2 ^ 64`, where its additions do not wrap. -/
theorem attempt_accounting (F : Type) [F32 F] (self : RateLimiter) (start : Nat)
    (earlier : List Attempt) (attempt : Attempt)
    (hclock : ClockNeverGoesBack start ((earlier ++ [attempt]).map Attempt.now)) :
    let calls := earlier ++ [attempt]
    let window := getCurrentWindow self.windowDuration attempt.now
    let state := final (shouldRequestPass F self) (newState self.windowDuration start) calls
    let made := ledger self.windowDuration
      (trace (shouldRequestPass F self) (newState self.windowDuration start) calls)
    state.currentWindow = window ∧
    ∀ bucket, state.currentBuckets.count bucket = Ledger.chargedIn made window bucket ∧
      state.lastBuckets.count bucket = Ledger.chargedBefore made window bucket := by
  intro calls window state made
  have hwindow : state.currentWindow = window := by
    simp only [state, calls, final_concat, shouldRequestPass_currentWindow, window]
  -- the counters track the ledger, and the window is the one of the last reading
  have htracks : (view state).Tracks made := run_tracks F self hclock
  refine ⟨hwindow, fun bucket => ⟨?_, ?_⟩⟩
  · have hcurrent := htracks.current bucket
    rwa [view_index, hwindow] at hcurrent
  · have hlast := htracks.last bucket
    rwa [view_index, hwindow] at hlast

/-- One charge in the first minute and one in the second: after the check that made the second
each counts one, where it belongs. -/
theorem attempt_accounting_two_minutes :
    let calls := [checkAt 0] ++ [checkAt (60 * 10 ^ 9)]
    let limiter := oneBucket .attempt 3
    let state := final (shouldRequestPass ℚ limiter) (newState 60 0) calls
    let made := ledger 60 (trace (shouldRequestPass ℚ limiter) (newState 60 0) calls)
    state.currentWindow = 1 ∧
      (state.currentBuckets.count "a" = Ledger.chargedIn made 1 "a" ∧
        Ledger.chargedIn made 1 "a" = 1) ∧
      (state.lastBuckets.count "a" = Ledger.chargedBefore made 1 "a" ∧
        Ledger.chargedBefore made 1 "a" = 1) := by
  have h := attempt_accounting ℚ (oneBucket .attempt 3) 0 [checkAt 0]
    (checkAt (60 * 10 ^ 9)) (by simp [ClockNeverGoesBack, checkAt])
  exact ⟨h.1, ⟨(h.2 "a").1, by decide +kernel⟩, (h.2 "a").2, by decide +kernel⟩

end AntelopeFirewall.RateLimiter
