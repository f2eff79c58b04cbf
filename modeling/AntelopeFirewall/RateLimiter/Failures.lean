import AntelopeFirewall.RateLimiter.Accounting

/-!
# Accounting of a Failure-Mode Limiter

A failure-mode limiter is charged after the response, by `postIncrement`, which takes the
maps as they stand: only a check looks at the clock and rolls the window over. A charge is
therefore counted in its own window exactly when the maps were already brought there.

- `Call` mixes checks and charges, `recorded` is the ledger of what was charged when,
- `ReadsWhatWasRecorded` says that every check reads the ledger,
- `reads_what_was_recorded` holds of runs whose charges are made in the stored window,
- `late_charge_misread` is a run with one that is not: a failure recorded a second after
  the minute ended is missing from the count of its window.
-/

namespace AntelopeFirewall.RateLimiter

open Library Library.Machine

/-! ## Runs of checks and charges -/

/-- A call on the limiter: a check, or the charge after a response. -/
inductive Call where
  | check (attempt : Attempt)
  | charge (outcome : Outcome)

/-- The moment of a call. -/
def Call.now : Call → Nat
  | .check attempt => attempt.now
  | .charge outcome => outcome.now

/-- One call, with the charges it makes. -/
def perform (F : Type) [F32 F] (self : RateLimiter) (state : WindowState) :
    Call → List (String × Nat) × WindowState
  | .check attempt =>
    let checked := shouldRequestPass F self state attempt
    (checked.1.charges, checked.2)
  | .charge outcome => (self.postCharges outcome, self.postIncrement state outcome)

/-- The charges that raise a count. -/
def raising (charges : List (String × Nat)) : List (String × Nat) :=
  charges.filter fun charge => 0 < charge.2

/-- The ledger of a run: every charge that raised a count, in the window of the moment it
was made. -/
def recorded (windowDuration : Nat) (answered : List (Call × List (String × Nat))) :
    List (Charge String) :=
  answered.flatMap fun e => entries (getCurrentWindow windowDuration e.1.now) (raising e.2)

theorem recorded_concat (windowDuration : Nat) (answered : List (Call × List (String × Nat)))
    (e : Call × List (String × Nat)) :
    recorded windowDuration (answered ++ [e]) = recorded windowDuration answered ++
      entries (getCurrentWindow windowDuration e.1.now) (raising e.2) := by
  simp [recorded]

section

variable (F : Type) [F32 F] (self : RateLimiter) (start : Nat)

/-- The counts after some calls. -/
def countsAfter (calls : List Call) : WindowState :=
  final (perform F self) (newState self.windowDuration start) calls

/-- The ledger of some calls. -/
def recordedBy (calls : List Call) : List (Charge String) :=
  recorded self.windowDuration
    (trace (perform F self) (newState self.windowDuration start) calls)

/-- Every check of a run reads, as the current count of a bucket, what was charged to it in
the window of the check, and as the last count what was charged in the window before. -/
def ReadsWhatWasRecorded (calls : List Call) : Prop :=
  ∀ earlier attempt, earlier ++ [.check attempt] <+: calls →
    let read := updateCurrentWindow self.windowDuration attempt.now
      (countsAfter F self start earlier)
    let made := recordedBy F self start earlier
    let window := getCurrentWindow self.windowDuration attempt.now
    ∀ bucket, read.currentBuckets.count bucket = Ledger.chargedIn made window bucket ∧
      read.lastBuckets.count bucket = Ledger.chargedBefore made window bucket

/-- Every charge after a response that raises a count is made while the limiter stores the
window of its moment, that is when the limiter was checked in that window before. -/
def ChargesInStoredWindow (calls : List Call) : Prop :=
  ∀ earlier outcome, earlier ++ [.charge outcome] <+: calls →
    raising (self.postCharges outcome) ≠ [] →
      (countsAfter F self start earlier).currentWindow =
        getCurrentWindow self.windowDuration outcome.now

end

/-! ## Charges and the counter -/

/-- A charge of zero changes no count. -/
theorem view_increment_zero (state : WindowState) (bucket : String) :
    view (increment state bucket 0) = view state := by
  rw [view_increment]
  simp [TwoWindow.charge, view]

/-- Charges that raise nothing change no count. -/
theorem view_incrementAll_of_raising_nil {charges : List (String × Nat)}
    (h : raising charges = []) (state : WindowState) :
    view (incrementAll charges state) = view state := by
  induction charges generalizing state with
  | nil => rfl
  | cons charge charges ih =>
    obtain ⟨bucket, val⟩ := charge
    simp only [raising, List.filter_cons] at h
    split at h
    · exact absurd h (List.cons_ne_nil _ _)
    · next hzero =>
      obtain rfl : val = 0 := by simpa using hzero
      rw [incrementAll_cons, ih h, view_increment_zero]

/-- Charges made in the stored window are entered as far as they raise a count. -/
theorem tracks_incrementAll_raising {state : WindowState} {ledger : List (Charge String)}
    (h : (view state).Tracks ledger) (charges : List (String × Nat)) :
    (view (incrementAll charges state)).Tracks
      (ledger ++ entries state.currentWindow (raising charges)) := by
  induction charges generalizing state ledger with
  | nil => simpa [entries, raising] using h
  | cons charge charges ih =>
    obtain ⟨bucket, val⟩ := charge
    by_cases hval : 0 < val
    · have hstep := h.charge bucket val
      rw [← view_increment] at hstep
      simpa [entries, raising, hval] using ih hstep
    · obtain rfl : val = 0 := by omega
      rw [← view_increment_zero state bucket] at h
      simpa [entries, raising] using ih h

variable {F : Type} [F32 F] {self : RateLimiter} {start : Nat}

/-- **Check step**: a check that is not behind the stored window keeps the counts in step
with the ledger. -/
theorem tracks_check {state : WindowState} {ledger : List (Charge String)}
    (h : (view state).Tracks ledger) {attempt : Attempt}
    (hwindow : state.currentWindow ≤ getCurrentWindow self.windowDuration attempt.now) :
    (view (perform F self state (.check attempt)).2).Tracks
      (ledger ++ entries (getCurrentWindow self.windowDuration attempt.now)
        (raising (perform F self state (.check attempt)).1)) := by
  have hrolled := h.advance hwindow
  rw [← view_updateCurrentWindow] at hrolled
  simp only [perform]
  rw [shouldRequestPass_state]
  have hcharged :=
    tracks_incrementAll_raising hrolled (shouldRequestPass F self state attempt).1.charges
  rwa [updateCurrentWindow_currentWindow] at hcharged

/-- **Charge step**: so does a charge, if it raises no count or is made in the stored
window. -/
theorem tracks_charge {state : WindowState} {ledger : List (Charge String)}
    (h : (view state).Tracks ledger) {outcome : Outcome}
    (hstored : raising (self.postCharges outcome) ≠ [] →
      state.currentWindow = getCurrentWindow self.windowDuration outcome.now) :
    (view (perform F self state (.charge outcome)).2).Tracks
      (ledger ++ entries (getCurrentWindow self.windowDuration outcome.now)
        (raising (perform F self state (.charge outcome)).1)) := by
  simp only [perform, postIncrement]
  by_cases hraising : raising (self.postCharges outcome) = []
  · -- a success is charged zero, which no count shows
    rw [view_incrementAll_of_raising_nil hraising, hraising]
    simpa [entries] using h
  · rw [← hstored hraising]
    exact tracks_incrementAll_raising h _

/-- A call leaves the limiter at its own window or where it was. -/
theorem perform_currentWindow (state : WindowState) (call : Call) :
    (perform F self state call).2.currentWindow =
        getCurrentWindow self.windowDuration call.now ∨
      (perform F self state call).2.currentWindow = state.currentWindow := by
  cases call with
  | check attempt => exact .inl (shouldRequestPass_currentWindow state attempt)
  | charge outcome => exact .inr (incrementAll_currentWindow _ state)

/-- The stored window is not ahead of the next call. -/
theorem countsAfter_currentWindow_le {earlier : List Call} {now : Nat}
    (h : ClockNeverGoesBack start (earlier.map Call.now ++ [now])) :
    (countsAfter F self start earlier).currentWindow ≤
      getCurrentWindow self.windowDuration now :=
  mark_le (perform F self) WindowState.currentWindow
    (getCurrentWindow_mono self.windowDuration) perform_currentWindow
    rfl earlier h.le_last

/-- **Run**: when every raising charge is made in the stored window, the counts track the
ledger. -/
theorem run_tracks_recorded {calls : List Call}
    (hclock : ClockNeverGoesBack start (calls.map Call.now))
    (hstored : ChargesInStoredWindow F self start calls) :
    (view (countsAfter F self start calls)).Tracks (recordedBy F self start calls) := by
  refine run_invariant (perform F self)
    (fun answered state => (view state).Tracks (recorded self.windowDuration answered))
    (TwoWindow.tracks_fresh _) fun earlier call hpre htracks => ?_
  rw [trace_concat, final_concat, recorded_concat]
  cases call with
  | check attempt =>
    have hbefore := hclock.initial (hpre.map Call.now)
    rw [List.map_append] at hbefore
    exact tracks_check htracks (countsAfter_currentWindow_le hbefore)
  | charge outcome => exact tracks_charge htracks (hstored earlier outcome hpre)

/-- **Failure accounting**: in a run whose raising charges are all made in the window the
limiter stores, every check reads what was recorded: a charge is part of the current count
for the rest of its window and of the last count throughout the next one. -/
theorem reads_what_was_recorded (F : Type) [F32 F] (self : RateLimiter) (start : Nat)
    (calls : List Call) (hclock : ClockNeverGoesBack start (calls.map Call.now))
    (hstored : ChargesInStoredWindow F self start calls) :
    ReadsWhatWasRecorded F self start calls := by
  intro earlier attempt hpre read made window bucket
  have hearlier : earlier <+: calls := (List.prefix_append _ _).trans hpre
  have hbefore := hclock.initial (hpre.map Call.now)
  rw [List.map_append] at hbefore
  have htracks := run_tracks_recorded (hclock.initial (hearlier.map _))
    fun before outcome hcharge => hstored before outcome (hcharge.trans hearlier)
  have hread := htracks.advance (countsAfter_currentWindow_le hbefore)
  rw [← view_updateCurrentWindow] at hread
  have hcurrent := hread.current bucket
  have hlastCount := hread.last bucket
  rw [view_index, updateCurrentWindow_currentWindow] at hcurrent hlastCount
  exact ⟨hcurrent, hlastCount⟩

/-- A failure recorded in the minute of its check. -/
theorem reads_what_was_recorded_one_minute :
    ReadsWhatWasRecorded ℚ (oneBucket .failure 5) 0
      [.check (checkAt 0), .charge (failureAt 1), .check (checkAt 2)] := by
  refine reads_what_was_recorded ℚ (oneBucket .failure 5) 0 _
    (by simp [ClockNeverGoesBack, Call.now, checkAt, failureAt]) ?_
  -- the one charge of the run is its second call
  rintro (_ | ⟨first, _ | ⟨second, _ | ⟨third, rest⟩⟩⟩) outcome hpre -
  · simp [List.cons_prefix_cons] at hpre
  · simp only [List.cons_append, List.nil_append, List.cons_prefix_cons, Call.charge.injEq] at hpre
    obtain ⟨rfl, rfl, -⟩ := hpre
    exact shouldRequestPass_currentWindow _ _
  · simp [List.cons_prefix_cons] at hpre
  · simp [List.cons_prefix_cons] at hpre

/-- A failure recorded a second after the minute of its check ended is missing from the
count of its own window: the check that follows reads zero. -/
theorem late_charge_misread :
    ClockNeverGoesBack 0 [59 * 10 ^ 9, 61 * 10 ^ 9, 62 * 10 ^ 9] ∧
    ¬ ReadsWhatWasRecorded ℚ (oneBucket .failure 5) 0
      [.check (checkAt (59 * 10 ^ 9)), .charge (failureAt (61 * 10 ^ 9)),
       .check (checkAt (62 * 10 ^ 9))] := by
  refine ⟨by simp [ClockNeverGoesBack], fun h => ?_⟩
  have hread := (h [.check (checkAt (59 * 10 ^ 9)), .charge (failureAt (61 * 10 ^ 9))]
    (checkAt (62 * 10 ^ 9)) (List.prefix_refl _) "a").1
  have hmade : recordedBy ℚ (oneBucket .failure 5) 0
      [.check (checkAt (59 * 10 ^ 9)), .charge (failureAt (61 * 10 ^ 9))] =
        [⟨1, "a", 1⟩] := by
    simp only [recordedBy, trace, perform, recorded, List.flatMap_cons, List.flatMap_nil]
    rw [shouldRequestPass_charges_failure rfl, oneBucket_postCharges]
    decide
  have hwindow : (countsAfter ℚ (oneBucket .failure 5) 0
      [.check (checkAt (59 * 10 ^ 9)), .charge (failureAt (61 * 10 ^ 9))]).currentWindow = 0 :=
    (incrementAll_currentWindow _ _).trans (shouldRequestPass_currentWindow _ _)
  -- the check rolls over from the window of the first check and finds nothing
  have hlater : getCurrentWindow (oneBucket .failure 5).windowDuration
      (checkAt (62 * 10 ^ 9)).now ≠ 0 := by
    simp [getCurrentWindow, oneBucket, checkAt]
  rw [← hwindow] at hlater
  rw [updateCurrentWindow_currentBuckets hlater, hmade] at hread
  exact absurd hread (by decide)

end AntelopeFirewall.RateLimiter
