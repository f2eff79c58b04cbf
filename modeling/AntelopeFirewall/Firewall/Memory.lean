import AntelopeFirewall.Firewall.Refusals

/-!
# What a Limiter Remembers

A limiter has a bucket for every text that its requests are counted under, and any client can
think of new ones. What it keeps of them is the traffic of two windows.

- `Remembers` is the invariant: a stored bucket was charged in the stored window or in the one
  before,
- `remembers_encounters` is a run of one limiter,
- `memory_le` bounds the stored buckets in any interleaving of requests.
-/

namespace AntelopeFirewall

open Library Library.Machine Library.Concurrent

namespace RateLimiter

/-- Every stored bucket was charged: those of the current table in the stored window, those of the
last table in the window before. -/
structure Remembers (state : WindowState) (ledger : List (Charge String)) : Prop where
  current : ∀ bucket ∈ state.currentBuckets,
    ∃ charge ∈ ledger, charge.key = bucket ∧ charge.window = state.currentWindow
  last : ∀ bucket ∈ state.lastBuckets,
    ∃ charge ∈ ledger, charge.key = bucket ∧ charge.window + 1 = state.currentWindow

theorem mem_bump {bucket key : String} {val : Nat} {buckets : Table String Nat} :
    bucket ∈ buckets.bump key val ↔ bucket = key ∨ bucket ∈ buckets := by
  unfold Table.bump
  cases buckets.lookup key with
  | none => exact AList.mem_insert ..
  | some count => exact AList.mem_insert ..

section Steps

variable {state : WindowState} {ledger : List (Charge String)}

theorem Remembers.mono (h : Remembers state ledger) (more : List (Charge String)) :
    Remembers state (ledger ++ more) where
  current := by
    intro bucket hbucket
    obtain ⟨charge, hcharge, hsame⟩ := h.current bucket hbucket
    exact ⟨charge, List.mem_append_left _ hcharge, hsame⟩
  last := by
    intro bucket hbucket
    obtain ⟨charge, hcharge, hsame⟩ := h.last bucket hbucket
    exact ⟨charge, List.mem_append_left _ hcharge, hsame⟩

/-- A rollover forgets, and moves what was charged in the window before. -/
theorem Remembers.roll (h : Remembers state ledger) (windowDuration now : Nat) :
    Remembers (updateCurrentWindow windowDuration now state) ledger := by
  unfold updateCurrentWindow
  dsimp only
  split
  · refine ⟨fun bucket hbucket => absurd hbucket (AList.notMem_empty bucket), ?_⟩
    intro bucket hbucket
    dsimp only at hbucket ⊢
    split at hbucket
    · exact absurd hbucket (AList.notMem_empty bucket)
    · next hnext =>
      obtain ⟨charge, hcharge, hkey, hwindow⟩ := h.current bucket hbucket
      exact ⟨charge, hcharge, hkey, by rw [hwindow]; exact not_not.mp hnext⟩
  · exact h

/-- The buckets that are charged are entered in the window that the call leaves. -/
theorem Remembers.incrementAll (h : Remembers state ledger) (charges : List (String × Nat)) :
    Remembers (incrementAll charges state) (ledger ++ entries state.currentWindow charges) := by
  -- Induction on the charges from the last one: each puts one bucket into the current counts.
  induction charges using List.reverseRecOn with
  | nil =>
    rw [entries, List.map_nil, List.append_nil]
    exact h
  | append_singleton charges charge ih =>
    have hlast : RateLimiter.incrementAll (charges ++ [charge]) state =
        increment (RateLimiter.incrementAll charges state) charge.1 charge.2 :=
      List.foldl_append
    have hentries : ledger ++ entries state.currentWindow (charges ++ [charge]) =
        ledger ++ entries state.currentWindow charges ++
          [⟨state.currentWindow, charge.1, charge.2⟩] := by
      simp [entries]
    have hwindow := incrementAll_currentWindow charges state
    rw [hlast, hentries]
    have hkept := ih.mono [⟨state.currentWindow, charge.1, charge.2⟩]
    refine ⟨?_, hkept.last⟩
    intro bucket hbucket
    rcases mem_bump.mp hbucket with rfl | hold
    · exact ⟨_, List.mem_append_right _ (List.mem_singleton_self _), rfl, hwindow.symm⟩
    · exact hkept.current bucket hold

/-- **Step**: a call remembers no bucket but those it charges. -/
theorem Remembers.respond {F : Type} [F32 F] {limiter : RateLimiter}
    (h : Remembers state ledger) (call : Call) :
    Remembers (limiter.respond F state call).2 (ledger ++ entered F limiter (state, call)) := by
  -- a check rolls the counters over first, and a charge does not
  cases call with
  | check attempt =>
    show Remembers (shouldRequestPass F limiter state attempt).2 (ledger ++ entries
      (shouldRequestPass F limiter state attempt).2.currentWindow
      (shouldRequestPass F limiter state attempt).1.charges)
    have hstep := (h.roll limiter.windowDuration attempt.now).incrementAll
      (shouldRequestPass F limiter state attempt).1.charges
    rw [updateCurrentWindow_currentWindow] at hstep
    rw [shouldRequestPass_currentWindow, shouldRequestPass_state]
    exact hstep
  | charge outcome =>
    show Remembers (limiter.postIncrement state outcome) (ledger ++ entries
      (limiter.postIncrement state outcome).currentWindow (limiter.postCharges outcome))
    rw [postIncrement_currentWindow]
    exact h.incrementAll (limiter.postCharges outcome)

end Steps

/-- **Run**: whatever its clock reads, a limiter remembers no bucket but those of two windows. -/
theorem remembers_encounters {F : Type} [F32 F] (limiter : RateLimiter) (start : Nat)
    (calls : List Call) :
    Remembers (final (limiter.respond F) (newState limiter.windowDuration start) calls)
      ((encounters F limiter (newState limiter.windowDuration start) calls).flatMap
        (entered F limiter)) := by
  induction calls using List.reverseRecOn with
  | nil =>
    exact ⟨fun bucket hbucket => absurd hbucket (AList.notMem_empty bucket),
      fun bucket hbucket => absurd hbucket (AList.notMem_empty bucket)⟩
  | append_singleton calls call ih =>
    rw [encounters_concat, List.flatMap_append, List.flatMap_singleton, final_concat]
    exact ih.respond call

/-- A table whose keys were all charged has as many entries as there are such charges, at most. -/
theorem len_le_countP {buckets : Table String Nat} {ledger : List (Charge String)}
    {p : Charge String → Bool}
    (h : ∀ bucket ∈ buckets, ∃ charge ∈ ledger, charge.key = bucket ∧ p charge = true) :
    buckets.len ≤ ledger.countP p := by
  have hsub : buckets.keys ⊆ (ledger.filter p).map Charge.key := by
    intro bucket hbucket
    obtain ⟨charge, hcharge, hkey, hp⟩ := h bucket (AList.mem_keys.mpr hbucket)
    exact List.mem_map.mpr ⟨charge, List.mem_filter.mpr ⟨hcharge, hp⟩, hkey⟩
  calc buckets.len = buckets.keys.length := Table.len_eq_length_keys buckets
    _ ≤ ((ledger.filter p).map Charge.key).length :=
      (List.subperm_of_subset buckets.keys_nodup hsub).length_le
    _ = ledger.countP p := by rw [List.length_map, List.countP_eq_length_filter]

/-- No charge is in the stored window and in the one before. -/
theorem countP_two_windows (ledger : List (Charge String)) (window : Nat) :
    (ledger.countP fun charge => charge.window = window) +
        (ledger.countP fun charge => charge.window + 1 = window) =
      ledger.countP fun charge => charge.window = window ∨ charge.window + 1 = window := by
  induction ledger with
  | nil => rfl
  | cons charge rest ih =>
    simp only [List.countP_cons, decide_eq_true_eq] at ih ⊢
    split_ifs <;> omega

/-- As many buckets are stored as charges were made, at most. -/
theorem Remembers.len_le {state : WindowState} {ledger : List (Charge String)}
    (h : Remembers state ledger) :
    state.currentBuckets.len + state.lastBuckets.len ≤ ledger.countP fun charge =>
      charge.window = state.currentWindow ∨ charge.window + 1 = state.currentWindow := by
  rw [← countP_two_windows]
  refine Nat.add_le_add (len_le_countP fun bucket hbucket => ?_)
    (len_le_countP fun bucket hbucket => ?_)
  · obtain ⟨charge, hcharge, hkey, hwindow⟩ := h.current bucket hbucket
    exact ⟨charge, hcharge, hkey, decide_eq_true hwindow⟩
  · obtain ⟨charge, hcharge, hkey, hwindow⟩ := h.last bucket hbucket
    exact ⟨charge, hcharge, hkey, decide_eq_true hwindow⟩

end RateLimiter

namespace Firewall

/-- The charges that the requests of a log made at a limiter, each in the window that its call
left. -/
def chargesAt (F : Type) [F32 F] {fw : Firewall} {crates : Crates}
    (i : Fin fw.ratelimiters.length) (log : List (Nat × Section F fw crates)) :
    List (Charge String) :=
  (log.filterMap fun entry => (System.Visit.encounter (Part.limiter i) entry.2 :
    Option (WindowState × RateLimiter.Call))).flatMap (RateLimiter.entered F (fw.limiterAt i))

/-- **Memory of a limiter**: in any interleaving of any number of requests, whatever the clock
reads, the buckets that a limiter stores were charged in its window or in the one before, so it
stores no more of them than there were charges in these two windows. A charge is a call of
`increment`: a success charges a limiter of failures with zero, and makes an entry as well. -/
theorem memory_le (F : Type) [F32 F] (fw : Firewall) (crates : Crates) (start : Nat)
    (events : List (System.Event (fw.system F crates))) (i : Fin fw.ratelimiters.length) :
    let state : WindowState := (after F fw crates (fresh fw start) events).shared (.limiter i)
    let charges := chargesAt F i (logOf F fw crates (fresh fw start) events)
    RateLimiter.Remembers state charges ∧
      state.currentBuckets.len + state.lastBuckets.len ≤ charges.countP fun charge =>
        charge.window = state.currentWindow ∨ charge.window + 1 = state.currentWindow := by
  intro state charges
  have hexplains := System.run_explains (S := fw.system F crates) ⟨fresh fw start, []⟩ events
  -- The counters are what the run of the limiter's calls leaves, and the log shows its charges.
  have hstate : state = final ((fw.limiterAt i).respond F)
      (RateLimiter.newState (fw.limiterAt i).windowDuration start)
      (callsOn i (logOf F fw crates (fresh fw start) events)) := hexplains.shared (.limiter i)
  have hcharges : charges = (RateLimiter.encounters F (fw.limiterAt i)
      (RateLimiter.newState (fw.limiterAt i).windowDuration start)
      (callsOn i (logOf F fw crates (fresh fw start) events))).flatMap
        (RateLimiter.entered F (fw.limiterAt i)) :=
    congrArg (List.flatMap (RateLimiter.entered F (fw.limiterAt i)))
      (hexplains.encounters (List.append_nil _).symm (.limiter i))
  have hremembers : RateLimiter.Remembers state charges := by
    rw [hstate, hcharges]
    exact RateLimiter.remembers_encounters (fw.limiterAt i) start _
  exact ⟨hremembers, hremembers.len_le⟩

end Firewall

end AntelopeFirewall
