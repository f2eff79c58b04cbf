import AntelopeFirewall.Firewall.Ceilings
import AntelopeFirewall.RateLimiter.Interpolation
import AntelopeFirewall.RateLimiter.Overlap

/-!
# Refusals Are Deserved

The ceilings bound what a limiter lets through. Here is the other direction: a request that a
limiter turns away has a bucket that other requests have used up.

- `Limits` is a limiter as it is configured, of either mode,
- `tracks_encounters` is the account of all its calls, `over_of_refused` what a refusal says of the
  counts,
- `refusal_deserved` is about the requests of the firewall, in any interleaving.

The weighting is read as exact arithmetic.
-/

namespace AntelopeFirewall

open Library Library.Machine Library.Concurrent

namespace RateLimiter

/-! ## The account of all calls -/

/-- A limiter as it is configured: it applies to every request, allows `limit`, and charges one for
each attempt or for each failure. -/
structure Limits (limiter : RateLimiter) (limit : Nat) : Prop where
  mode : limiter.incrementMode = .attempt ∨ limiter.incrementMode = .failure
  rate : limiter.getRatelimit = fun _ _ _ => limit
  applies : limiter.shouldBeLimited = fun _ _ _ => true
  cache : limiter.cache = none

theorem limits_newRatelimiter {crates : Crates} {select : Table String (Finset String)}
    {ratelimit : RatelimitConfig} {limiter : RateLimiter}
    (h : newRatelimiter crates select ratelimit = .ok limiter) :
    Limits limiter ratelimit.limit := by
  unfold newRatelimiter at h
  split at h
  · cases h
    refine ⟨?_, rfl, rfl, rfl⟩
    cases ratelimit.limitOn with
    | attempt => exact .inl rfl
    | failure => exact .inr rfl
  · cases h

/-- No bucket is charged twice, and none more than one. -/
structure UnitCharges (charges : List (String × Nat)) : Prop where
  nodup : (charges.map Prod.fst).Nodup
  le_one : ∀ charge ∈ charges, charge.2 ≤ 1

theorem unitCharges_map {buckets : List String} (h : buckets.Nodup) {val : Nat} (hval : val ≤ 1) :
    UnitCharges (buckets.map fun bucket => (bucket, val)) where
  nodup := by
    rw [List.map_map]
    simpa [Function.comp_def] using h
  le_one := by
    intro charge hcharge
    obtain ⟨bucket, -, rfl⟩ := List.mem_map.mp hcharge
    exact hval

theorem UnitCharges.sublist {charges fewer : List (String × Nat)} (h : UnitCharges charges)
    (hsub : fewer.Sublist charges) : UnitCharges fewer :=
  ⟨h.nodup.sublist (hsub.map _), fun charge hcharge => h.le_one charge (hsub.subset hcharge)⟩

/-- The sum of such charges to a bucket says whether there is one. -/
theorem chargedIn_entries {charges : List (String × Nat)} (h : UnitCharges charges)
    (window w : Nat) (bucket : String) :
    Ledger.chargedIn (entries w charges) window bucket =
      if w = window ∧ (bucket, 1) ∈ charges then 1 else 0 := by
  -- Induction on the charges of the call, which name every bucket at most once.
  induction charges with
  | nil => simp [entries, Ledger.chargedIn]
  | cons charge rest ih =>
    obtain ⟨other, val⟩ := charge
    have hrest := ih (h.sublist (List.sublist_cons_self ..))
    have hentries : entries w ((other, val) :: rest) = [⟨w, other, val⟩] ++ entries w rest := rfl
    rw [hentries, Ledger.chargedIn_append, Ledger.chargedIn_singleton, hrest]
    have hval : val ≤ 1 := h.le_one _ (List.mem_cons_self ..)
    have hnodup := h.nodup
    rw [List.map_cons, List.nodup_cons] at hnodup
    dsimp only
    by_cases hw : w = window
    · by_cases hother : other = bucket
      · -- the rest has no charge to this bucket
        subst hother
        have hnone : (other, 1) ∉ rest := fun hmem =>
          hnodup.1 (List.mem_map.mpr ⟨(other, 1), hmem, rfl⟩)
        rw [if_pos ⟨hw, rfl⟩, if_neg fun hboth => hnone hboth.2]
        rcases Nat.le_one_iff_eq_zero_or_eq_one.mp hval with rfl | rfl
        · simp [hnone]
        · simp [hw]
      · have hne : (bucket, 1) ≠ (other, val) := fun hsame => hother (Prod.mk.inj hsame).1.symm
        simp [hw, hother, hne]
    -- charges of another window count nowhere here
    · simp [hw]

section Account

variable (F : Type) [F32 F] (limiter : RateLimiter)

/-- The charges of a call in a state, entered in the window that the call leaves. -/
def entered (encounter : WindowState × Call) : List (Charge String) :=
  entries (limiter.respond F encounter.1 encounter.2).2.currentWindow
    (limiter.respond F encounter.1 encounter.2).1.charges

/-- A call in a state raises the count of a bucket, in a window. -/
def raises (window : Nat) (bucket : String) (encounter : WindowState × Call) : Bool :=
  (limiter.respond F encounter.1 encounter.2).2.currentWindow = window ∧
    (bucket, 1) ∈ (limiter.respond F encounter.1 encounter.2).1.charges

/-- A call, with the state it finds. -/
def encounter (state : WindowState) (call : Call) : (WindowState × Call) × WindowState :=
  ((state, call), (limiter.respond F state call).2)

/-- The calls of a run, with the states they find. -/
def encounters (state : WindowState) (calls : List Call) : List (WindowState × Call) :=
  (trace (encounter F limiter) state calls).map Prod.snd

variable {F limiter} {limit : Nat}

theorem encounters_concat (state : WindowState) (calls : List Call) (call : Call) :
    encounters F limiter state (calls ++ [call]) =
      encounters F limiter state calls ++ [(final (limiter.respond F) state calls, call)] := by
  unfold encounters
  rw [trace_concat, List.map_append]
  rfl

theorem checkBuckets_charges_sublist (windowDuration rateLimit : Nat) (charge : Option Nat)
    (tick : String → Nat) (buckets : List String) (state : WindowState) :
    (checkBuckets F windowDuration rateLimit charge tick buckets state).1.charges.Sublist
      (chargesOf charge buckets) := by
  -- one bucket is charged at most once, and not at all where its clock is early
  have hone : ∀ bucket state, (checkBucket F windowDuration rateLimit charge tick bucket
      state).1.charges.Sublist (chargesOf charge [bucket]) := by
    intro bucket state
    by_cases hclock : 10 ^ 9 * (state.currentWindow * windowDuration) ≤ tick bucket
    · rw [checkBucket_charges hclock]
    · rw [(checkBucket_charges_early hclock).1]
      exact List.nil_sublist _
  induction buckets generalizing state with
  | nil => exact List.nil_sublist _
  | cons bucket rest ih =>
    have hsplit : chargesOf charge (bucket :: rest) =
        chargesOf charge [bucket] ++ chargesOf charge rest := by
      cases charge <;> rfl
    rw [hsplit]
    simp only [checkBuckets]
    -- the buckets after this one have their turn only if it lets the request through
    split
    · exact (hone bucket state).append (ih _)
    · exact (hone bucket state).trans (List.sublist_append_left ..)

/-- A call raises each of its buckets once at most, and no other. -/
theorem unitCharges_respond (hlimits : Limits limiter limit) (state : WindowState) (call : Call) :
    UnitCharges (limiter.respond F state call).1.charges := by
  have hnone : UnitCharges [] := ⟨List.nodup_nil, by simp⟩
  cases call with
  | check attempt =>
    -- a check charges one to each of its buckets, or nothing
    show UnitCharges (shouldRequestPass F limiter state attempt).1.charges
    unfold shouldRequestPass
    rw [hlimits.cache, hlimits.applies]
    dsimp only [JsonDataCache.handleCacheOption_none]
    rw [if_pos rfl]
    refine UnitCharges.sublist ?_ (checkBuckets_charges_sublist ..)
    unfold rateUsed
    rcases hlimits.mode with hmode | hmode
    · rw [hmode]
      exact unitCharges_map (attempt.order.nodup _) (Nat.le_refl 1)
    · rw [hmode]
      exact hnone
  | charge outcome =>
    -- an answer charges one or zero, by its status
    show UnitCharges (limiter.postCharges outcome)
    unfold postCharges
    rw [hlimits.cache, JsonDataCache.handleCacheOption_none]
    rcases hlimits.mode with hmode | hmode
    · rw [hmode]
      exact hnone
    · rw [hmode]
      refine unitCharges_map (outcome.order.nodup _) ?_
      dsimp only
      split
      · exact Nat.zero_le 1
      · exact Nat.le_refl 1

/-- A limiter that counts attempts raises nothing after a response. -/
theorem not_raises_charge (hmode : limiter.incrementMode = .attempt) (window : Nat)
    (bucket : String) (state : WindowState) (outcome : Outcome) :
    ¬ raises F limiter window bucket (state, .charge outcome) = true := by
  have hcharges : limiter.postCharges outcome = [] := by
    unfold postCharges
    rw [hmode]
    cases JsonDataCache.handleCacheOption limiter.cache outcome.now <;> rfl
  unfold raises
  rw [decide_eq_true_eq]
  rintro ⟨-, hcharged⟩
  have hmem : (bucket, 1) ∈ limiter.postCharges outcome := hcharged
  rw [hcharges] at hmem
  cases hmem

/-- A limiter that counts failures raises nothing in a check. -/
theorem not_raises_check (hmode : limiter.incrementMode = .failure) (window : Nat)
    (bucket : String) (state : WindowState) (attempt : Attempt) :
    ¬ raises F limiter window bucket (state, .check attempt) = true := by
  unfold raises
  rw [decide_eq_true_eq]
  rintro ⟨-, hcharged⟩
  have hmem : (bucket, 1) ∈ (shouldRequestPass F limiter state attempt).1.charges := hcharged
  rw [shouldRequestPass_charges_failure hmode] at hmem
  cases hmem

/-- What is entered for a bucket in a window is the number of calls that raise it. -/
theorem chargedIn_entered (hlimits : Limits limiter limit) (met : List (WindowState × Call))
    (window : Nat) (bucket : String) :
    Ledger.chargedIn (met.flatMap (entered F limiter)) window bucket =
      met.countP (raises F limiter window bucket) := by
  induction met with
  | nil => rfl
  | cons first rest ih =>
    have hunit := unitCharges_respond (F := F) hlimits first.1 first.2
    rw [List.flatMap_cons, Ledger.chargedIn_append, ih, entered, chargedIn_entries hunit,
      List.countP_cons, Nat.add_comm]
    unfold raises
    simp

variable (F limiter) in
/-- The stored window is the one of the last check. -/
theorem currentWindow_le_of_checks {start : Nat} {calls : List Call} {now : Nat}
    (h : ∀ reading ∈ start :: (calls.filterMap attemptOf).map Attempt.now, reading ≤ now) :
    (final (limiter.respond F) (newState limiter.windowDuration start) calls).currentWindow ≤
      getCurrentWindow limiter.windowDuration now := by
  -- Induction on the calls from the last one: only a check can open a window.
  induction calls using List.reverseRecOn with
  | nil => exact getCurrentWindow_mono _ (h start (List.mem_cons_self ..))
  | append_singleton calls call ih =>
    rw [List.filterMap_append, List.map_append] at h
    rw [final_concat]
    cases call with
    -- the window of the last check is the one its own clock reading falls into
    | check attempt =>
      refine (Nat.le_of_eq (shouldRequestPass_currentWindow _ attempt)).trans ?_
      refine getCurrentWindow_mono _ (h _ (List.mem_cons_of_mem _ (List.mem_append_right _ ?_)))
      exact List.mem_singleton_self attempt.now
    | charge outcome =>
      show (limiter.postIncrement _ outcome).currentWindow ≤ _
      rw [postIncrement_currentWindow]
      refine ih fun reading hreading => h reading ?_
      rcases List.mem_cons.mp hreading with rfl | hlater
      · exact List.mem_cons_self ..
      · exact List.mem_cons_of_mem _ (List.mem_append_left _ hlater)

variable (F limiter) in
/-- **Run**: the counts are those of all charges so far, each in the window that its call left. -/
theorem tracks_encounters {start : Nat} {calls : List Call}
    (hclock : ClockNeverGoesBack start ((calls.filterMap attemptOf).map Attempt.now)) :
    (view (final (limiter.respond F) (newState limiter.windowDuration start) calls)).Tracks
      ((encounters F limiter (newState limiter.windowDuration start) calls).flatMap
        (entered F limiter)) := by
  induction calls using List.reverseRecOn with
  | nil => exact TwoWindow.tracks_fresh _
  | append_singleton calls call ih =>
    rw [List.filterMap_append, List.map_append] at hclock
    have htracks := ih (hclock.initial (List.prefix_append ..))
    rw [encounters_concat, List.flatMap_append, List.flatMap_singleton, final_concat, entered]
    cases call with
    | check attempt =>
      -- the window that the check leaves is the one of its reading
      show (view (shouldRequestPass F limiter _ attempt).2).Tracks (_ ++ entries
        (shouldRequestPass F limiter _ attempt).2.currentWindow _)
      rw [shouldRequestPass_currentWindow]
      exact tracks_shouldRequestPass htracks
        (currentWindow_le_of_checks F limiter hclock.le_last)
    | charge outcome =>
      have hstep := tracks_incrementAll htracks (limiter.postCharges outcome)
      rw [← postIncrement_currentWindow limiter _ outcome] at hstep
      exact hstep

end Account

/-! ## What a refusal says of the counts -/

variable {limiter : RateLimiter} {limit : Nat}

/-- A bucket whose counts are within the limit is let through, when the clock is read in the
window. -/
theorem withinLimit_of_le {windowDuration : Nat} {tick : String → Nat} {state : WindowState}
    {bucket : String} (hwindow : 0 < windowDuration) (hpos : 0 < limit) (hword : 2 * limit < 2 ^ 64)
    (hstart : 10 ^ 9 * (state.currentWindow * windowDuration) ≤ tick bucket)
    (hend : tick bucket ≤ 10 ^ 9 * ((state.currentWindow + 1) * windowDuration))
    (hcurrent : state.currentBuckets.count bucket ≤ limit)
    (hlast : state.lastBuckets.count bucket ≤ limit) :
    WithinLimit ℚ windowDuration limit tick state bucket := by
  obtain ⟨ratioElapsed, hread, hnonneg, hweight⟩ := elapsedCurrentWindow_eq hwindow hstart
  refine ⟨ratioElapsed, hread, ?_⟩
  have hle : weightedCount (state.currentBuckets.count bucket) (state.lastBuckets.count bucket)
      ratioElapsed ≤ (limit : ℚ) := by
    refine (weightedCount_between _ _ hnonneg (hweight.mpr hend)).2.trans ?_
    exact max_le (by exact_mod_cast hlast) (by exact_mod_cast hcurrent)
  unfold exceeds
  rw [F32.gt_rat, F32.ofU64_rat, Nat.mod_eq_of_lt hword, Bool.or_eq_false_iff,
    decide_eq_false_iff_not, decide_eq_false_iff_not]
  exact ⟨not_lt.mpr hle, by omega⟩

/-- A refused request has a bucket with a count over the limit. -/
theorem over_of_refused (hlimits : Limits limiter limit) (hpos : 0 < limit)
    (hword : 2 * limit < 2 ^ 64) {state : WindowState} {attempt : Attempt}
    (hticks : ∀ bucket, attempt.now ≤ attempt.tick bucket ∧
      attempt.tick bucket ≤ windowEnd limiter.windowDuration attempt.now)
    (hrefused : (shouldRequestPass ℚ limiter state attempt).1.verdict = some false) :
    ∃ bucket ∈ limiter.bucketsOf attempt.info attempt.value attempt.now,
      let rolled := updateCurrentWindow limiter.windowDuration attempt.now state
      limit < rolled.currentBuckets.count bucket ∨ limit < rolled.lastBuckets.count bucket := by
  -- If no count were over the limit, the check would let every bucket through.
  by_contra hnone
  simp only [not_exists, not_and, not_or, not_lt] at hnone
  unfold shouldRequestPass at hrefused
  unfold bucketsOf at hnone
  rw [hlimits.cache, JsonDataCache.handleCacheOption_none, hlimits.applies,
    hlimits.rate] at hrefused
  rw [hlimits.cache, JsonDataCache.handleCacheOption_none] at hnone
  dsimp only at hrefused hnone
  rw [if_pos rfl, (checkBuckets_verdict_iff (attempt.order.nodup _)).mpr] at hrefused
  · cases hrefused
  · intro bucket hbucket
    obtain ⟨hcurrent, hlast⟩ := hnone bucket ((attempt.order.mem_list_iff).mp hbucket)
    obtain ⟨hafter, hend⟩ := hticks bucket
    -- the window was opened before the bucket's own reading, and is not over at it
    refine withinLimit_of_le limiter.windowDuration_pos hpos hword ?_ ?_ hcurrent hlast
    · rw [updateCurrentWindow_currentWindow]
      exact (windowStart_le _ _).trans hafter
    · rw [updateCurrentWindow_currentWindow]
      exact hend

/-- **Run**: a request that a limiter refuses has a bucket that more calls than the limit raised,
in the window of its check or in the one before. -/
theorem raised_of_refused (hlimits : Limits limiter limit) (hpos : 0 < limit)
    (hword : 2 * limit < 2 ^ 64) {start : Nat} {calls : List Call} {attempt : Attempt}
    (hclock : ClockNeverGoesBack start
      ((calls.filterMap attemptOf).map Attempt.now ++ [attempt.now]))
    (hticks : ∀ bucket, attempt.now ≤ attempt.tick bucket ∧
      attempt.tick bucket ≤ windowEnd limiter.windowDuration attempt.now)
    (hrefused : (shouldRequestPass ℚ limiter
      (final (limiter.respond ℚ) (newState limiter.windowDuration start) calls)
        attempt).1.verdict = some false) :
    ∃ bucket ∈ limiter.bucketsOf attempt.info attempt.value attempt.now, ∃ window,
      (window = getCurrentWindow limiter.windowDuration attempt.now ∨
        window + 1 = getCurrentWindow limiter.windowDuration attempt.now) ∧
      limit < (encounters ℚ limiter (newState limiter.windowDuration start) calls).countP
        (raises ℚ limiter window bucket) := by
  obtain ⟨bucket, hbucket, hover⟩ := over_of_refused hlimits hpos hword hticks hrefused
  have htracks := (tracks_encounters ℚ limiter (hclock.initial (List.prefix_append ..))).advance
    (currentWindow_le_of_checks ℚ limiter hclock.le_last)
  rw [← view_updateCurrentWindow] at htracks
  have hcurrent := htracks.current bucket
  have hlast := htracks.last bucket
  rw [view_index, updateCurrentWindow_currentWindow] at hcurrent hlast
  rw [chargedIn_entered hlimits] at hcurrent
  refine ⟨bucket, hbucket, ?_⟩
  rcases hover with hover | hover
  · exact ⟨_, .inl rfl, hover.trans_eq hcurrent⟩
  · have hbefore := hover.trans_eq hlast
    cases hwindow : getCurrentWindow limiter.windowDuration attempt.now with
    | zero =>
      -- nothing precedes window zero
      rw [hwindow, Ledger.chargedBefore_eq_zero fun _ _ => Nat.succ_ne_zero _] at hbefore
      exact absurd hbefore (Nat.not_lt_zero _)
    | succ window =>
      rw [hwindow, Ledger.chargedBefore_succ, chargedIn_entered hlimits] at hbefore
      exact ⟨window, .inr rfl, hbefore⟩

end RateLimiter

namespace Firewall

section Visits

variable {F : Type} [F32 F] {fw : Firewall} {crates : Crates} {request : Request}
  {peer : IpAddr} {env : Env} {found : Guarded} {progress : Progress} {received : Received}
  {visits : List (Section F fw crates)} {i : Fin fw.ratelimiters.length}

/-! ## Who visits a limiter -/

/-- What a limiter is asked to check in a visit, if the visit is a check at it. -/
def checkOn (i : Fin fw.ratelimiters.length) (s : Section F fw crates) : Option Attempt :=
  (answeredBy i s).bind fun called => RateLimiter.attemptOf called.1

theorem checkOn_of_ne {s : Section F fw crates} (h : s.component ≠ .limiter i) :
    checkOn i s = none := by
  unfold checkOn
  rw [answeredBy_of_ne h]
  rfl

theorem checkOn_checkSection (counts : Nat → WindowState) (j : Fin fw.ratelimiters.length) :
    checkOn i (checkSection F fw crates received env counts j) =
      if j = i then some (attemptAt received (env.check i)) else none := by
  by_cases h : j = i
  · subst h
    unfold checkOn checkSection
    rw [answeredBy_self, if_pos rfl]
    rfl
  · rw [if_neg h]
    exact checkOn_of_ne fun hsame => h (Part.limiter.inj hsame)

/-- The checks that are made are some of all checks, in their order. -/
theorem checkSections_sublist (counts : Nat → WindowState)
    (xs : List (Fin fw.ratelimiters.length)) :
    (checkSections F fw crates received env counts xs).Sublist
      (xs.map (checkSection F fw crates received env counts)) := by
  induction xs with
  | nil => exact List.nil_sublist _
  | cons j rest ih =>
    rw [checkSections, List.map_cons]
    refine List.Sublist.cons_cons _ ?_
    split
    · exact ih
    · exact List.nil_sublist _

theorem countP_checkSections_le {counts : Nat → WindowState}
    {visits : List (Section F fw crates)}
    (h : visits.Sublist ((List.finRange fw.ratelimiters.length).map
      (checkSection F fw crates received env counts))) :
    visits.countP (fun s => (checkOn i s).isSome) ≤ 1 := by
  refine (h.countP_le).trans ?_
  rw [List.countP_map]
  have hshows : ∀ j ∈ List.finRange fw.ratelimiters.length,
      (((fun s => (checkOn i s).isSome) ∘ checkSection F fw crates received env counts) j = true ↔
        (j == i) = true) := by
    intro j _
    rw [Function.comp, checkOn_checkSection]
    by_cases hj : j = i <;> simp [hj]
  rw [List.countP_congr hshows]
  exact List.nodup_iff_count_le_one.mp (List.nodup_finRange _) i

theorem checkOn_routeSections {s : Section F fw crates}
    (h : s ∈ routeSections F fw crates received env found) : checkOn i s = none := by
  unfold routeSections at h
  dsimp only at h
  split at h
  · cases h
  · rcases List.mem_append.mp h with hpin | hchoice
    · unfold pinSections at hpin
      split at hpin
      · rw [List.mem_singleton.mp hpin]
        exact checkOn_of_ne nofun
      · cases hpin
    · unfold choiceSections at hchoice
      split at hchoice
      · cases hchoice
      · rw [List.mem_singleton.mp hchoice]
        exact checkOn_of_ne nofun

theorem checkOn_chargeSections {d : Dispatch} {outcome : Json × StatusCode}
    {counts : Nat → WindowState} {xs : List (Fin fw.ratelimiters.length)}
    {s : Section F fw crates} (h : s ∈ chargeSections F fw crates d outcome env counts xs) :
    checkOn i s = none := by
  obtain ⟨j, -, rfl⟩ := List.mem_map.mp h
  by_cases hj : j = i
  · subst hj
    unfold checkOn
    rw [answeredBy_self]
    rfl
  · exact checkOn_of_ne fun hsame => hj (Part.limiter.inj hsame)

theorem checkOn_relaySections {d : Dispatch} {counts : Nat → WindowState}
    {s : Section F fw crates} (h : s ∈ relaySections F fw crates d env counts) :
    checkOn i s = none := by
  unfold relaySections at h
  split at h
  · exact checkOn_chargeSections h
  · cases h

theorem countP_checkOn_append {checks others : List (Section F fw crates)}
    {counts : Nat → WindowState}
    (hchecks : checks.Sublist ((List.finRange fw.ratelimiters.length).map
      (checkSection F fw crates received env counts)))
    (hothers : ∀ s ∈ others, checkOn i s = none) :
    (checks ++ others).countP (fun s => (checkOn i s).isSome) ≤ 1 := by
  have hnone : others.countP (fun s => (checkOn i s).isSome) = 0 := by
    rw [List.countP_eq_zero]
    intro s hs
    rw [hothers s hs]
    exact Bool.false_ne_true
  rw [List.countP_append, hnone]
  exact countP_checkSections_le hchecks

theorem checkOn_sectionsToNode_le {others : List (Section F fw crates)}
    (hothers : ∀ s ∈ others, checkOn i s = none) :
    (sectionsToNode F fw crates env found received ++ others).countP
      (fun s => (checkOn i s).isSome) ≤ 1 := by
  unfold sectionsToNode
  rw [List.append_assoc]
  refine countP_checkOn_append (checkSections_sublist ..) fun s hs => ?_
  exact (List.mem_append.mp hs).elim checkOn_routeSections (hothers s)

/-- A request is checked at a limiter once at most. -/
theorem Reached.countP_checkOn
    (h : Reached F fw crates request peer env found progress visits) :
    visits.countP (fun s => (checkOn i s).isSome) ≤ 1 := by
  have hnil : ∀ s ∈ ([] : List (Section F fw crates)), checkOn i s = none := by simp
  -- By the place that was reached: the visits so far are the checks, each once, and no others.
  cases h with
  | arrived => exact Nat.zero_le 1
  | limiting hreceived hpassed =>
    exact countP_checkSections_le ((List.take_sublist _ _).map _)
  | matching hlimited => exact countP_checkSections_le (checkSections_sublist ..)
  | pinning hlimited hurls hmatched hpinned hlimiter =>
    exact countP_checkSections_le (checkSections_sublist ..)
  | choosing hlimited hurls hmatched hdropped =>
    refine countP_checkOn_append (checkSections_sublist ..) fun s hs => ?_
    -- a question to the pins is no check
    unfold pinSections at hs
    split at hs
    · rw [List.mem_singleton.mp hs]
      exact checkOn_of_ne nofun
    · cases hs
  | forwarding hlimited hrouted =>
    rw [← List.append_nil (sectionsToNode ..)]
    exact checkOn_sectionsToNode_le hnil
  | waiting hdispatched =>
    rw [← List.append_nil (sectionsToNode ..)]
    exact checkOn_sectionsToNode_le hnil
  | charging hdispatched hanswered =>
    exact checkOn_sectionsToNode_le fun s hs => checkOn_chargeSections hs
  | ended hhandled =>
    unfold sections
    split
    -- an ended request was stopped by a limiter, or at the node, or relayed
    · exact Nat.zero_le 1
    · refine countP_checkOn_append (checkSections_sublist ..) fun s hs => ?_
      split at hs
      · cases hs
      · rcases List.mem_append.mp hs with hroute | hrelay
        · exact checkOn_routeSections hroute
        · split at hrelay
          · cases hrelay
          · exact checkOn_relaySections hrelay

/-! ## Who is refused -/

theorem checkRatelimiters_refused {check : Nat → CheckReadings} {limiters : List RateLimiter}
    {first : Nat} {counts : Nat → WindowState} {response : Response}
    (h : (checkRatelimiters F received check first limiters counts).1 =
      .error (.answer response)) :
    ∃ k limiter, limiters[k]? = some limiter ∧
      (∀ j other, j < k → limiters[j]? = some other →
        LetsThrough F received check counts (first + j) other) ∧
      (limiter.shouldRequestPass F (counts (first + k))
        (attemptAt received (check (first + k)))).1.verdict = some false := by
  -- Induction on the limiters: the first one that refuses is the one that answers.
  induction limiters generalizing first counts with
  | nil => cases h
  | cons limiter rest ih =>
    simp only [checkRatelimiters] at h
    split at h
    · next hpassed =>
      -- this limiter let the request through, so it is a later one
      obtain ⟨k, other, hget, hearlier, hrefused⟩ := ih h
      have hne : first + 1 + k ≠ first := by omega
      have hindex : first + (k + 1) = first + 1 + k := by omega
      refine ⟨k + 1, other, hget, fun j another hj hother => ?_, ?_⟩
      · cases j with
        | zero =>
          cases hother
          exact hpassed
        -- its counts are those it had before the first limiter was asked
        | succ j =>
          have hearly := hearlier j another (by omega) hother
          rw [letsThrough_update (by omega)] at hearly
          rwa [show first + (j + 1) = first + 1 + j by omega]
      · rw [hindex]
        rwa [Function.update_of_ne hne] at hrefused
    · next hrefused => exact ⟨0, limiter, rfl, by simp, hrefused⟩
    · cases h

/-- Of the answers that the firewall gives itself only the refusals of the limiters have the
status 429. -/
theorem refused_of_status {response : Response}
    (h : (fw.handleRequest F crates request peer env found).1 = ⟨none, some response⟩)
    (hstatus : response.status = (429 : StatusCode)) :
    ∃ received, fw.receive crates request peer env.filterNow = .ok received ∧
      (checkRatelimiters F received env.check 0 fw.ratelimiters found.checked).1 =
        .error (.answer response) := by
  -- Nothing was sent, so the answer is where the way to a node ended.
  have hstopped : (fw.dispatch F crates request peer env found).1 =
      .error (.answer response) := by
    unfold handleRequest at h
    dsimp only at h
    split at h
    · next hdispatch =>
      cases h
      exact hdispatch
    · cases h
    · cases h
  -- By the phase that stopped it: of their answers only that of a limiter is a 429.
  rcases dispatch_error_cases hstopped with hreceived | ⟨received, hreceived, hstopped⟩
  · -- the size of the body, its reading, the filters and OPTIONS answer 413, 500, 403 and 200
    obtain ⟨other, hother, hcases⟩ := receive_error_cases hreceived
    cases hother
    rcases hcases with rfl | rfl | rfl | rfl | rfl <;> cases hstatus
  · refine ⟨received, hreceived, ?_⟩
    rcases hstopped with hlimited | ⟨left, hrouted | ⟨chosen, -, hforward⟩⟩
    · exact hlimited
    · -- no node is matched, which is a 500
      rcases route_error_cases hrouted with hother | hother
      · cases hother
        cases hstatus
      · cases hother
    · cases forward_error hforward

/-- The visits of a refused request are checks, the refused one the last of them. -/
theorem sections_of_refused {stop : Stop}
    (hreceived : fw.receive crates request peer env.filterNow = .ok received)
    (hlimited : (checkRatelimiters F received env.check 0 fw.ratelimiters found.checked).1 =
      .error stop) :
    sections F fw crates request peer env found =
      checkSections F fw crates received env found.checked
        (List.finRange fw.ratelimiters.length) := by
  unfold sections
  rw [hreceived]
  dsimp only
  rw [hlimited, List.append_nil]

theorem checkSection_mem_of_earlier {counts : Nat → WindowState}
    (hearlier : ∀ j : Fin fw.ratelimiters.length, j.1 < i.1 →
      LetsThrough F received env.check counts j (fw.limiterAt j)) :
    checkSection F fw crates received env counts i ∈
      checkSections F fw crates received env counts (List.finRange fw.ratelimiters.length) := by
  rw [← take_append_finRange i.2,
    checkSections_append crates fun j hj => hearlier j (mem_take_finRange.mp hj)]
  exact List.mem_append_right _ (List.mem_cons_self ..)

/-- A request that the firewall answers with 429 itself went through its checks up to one that
refused it. -/
theorem Reached.refused {response : Response}
    (h : Reached F fw crates request peer env found (.ended ⟨none, some response⟩) visits)
    (hstatus : response.status = (429 : StatusCode)) :
    ∃ (i : Fin fw.ratelimiters.length) (received : Received),
      fw.receive crates request peer env.filterNow = .ok received ∧
      ((fw.limiterAt i).shouldRequestPass F (found.checked i)
        (attemptAt received (env.check i))).1.verdict = some false ∧
      visits = checkSections F fw crates received env found.checked
        (List.finRange fw.ratelimiters.length) ∧
      checkSection F fw crates received env found.checked i ∈ visits := by
  cases h with
  | ended hhandled =>
  obtain ⟨received, hreceived, hlimited⟩ := refused_of_status hhandled hstatus
  obtain ⟨place, limiter, hget, hearlier, hrefused⟩ := checkRatelimiters_refused hlimited
  obtain ⟨hplace, rfl⟩ := List.getElem?_eq_some_iff.mp hget
  rw [Nat.zero_add] at hrefused
  -- the limiters before it let the request through
  have hfirst : ∀ k : Fin fw.ratelimiters.length, k.1 < place →
      LetsThrough F received env.check found.checked k (fw.limiterAt k) := by
    intro k hk
    have hpassed := hearlier k.1 (fw.limiterAt k) hk (List.getElem?_eq_getElem k.2)
    rwa [Nat.zero_add] at hpassed
  have hsections := sections_of_refused hreceived hlimited
  refine ⟨⟨place, hplace⟩, received, hreceived, hrefused, hsections, ?_⟩
  rw [hsections]
  exact checkSection_mem_of_earlier (i := ⟨place, hplace⟩) hfirst

end Visits

/-! ## Refusals in an interleaving -/

section Runs

variable {fw : Firewall} {crates : Crates} {i : Fin fw.ratelimiters.length}

/-- The state that a visit to a limiter found, with the call. -/
def encounterAt (i : Fin fw.ratelimiters.length) (s : Section ℚ fw crates) :
    Option (WindowState × RateLimiter.Call) := System.Visit.encounter (Part.limiter i) s

/-- A visit raises the count of a bucket at a limiter, in a window. -/
def raisesAt (i : Fin fw.ratelimiters.length) (window : Nat) (bucket : String)
    (s : Section ℚ fw crates) : Bool :=
  (encounterAt i s).any (RateLimiter.raises ℚ (fw.limiterAt i) window bucket)

theorem encounterAt_self (state : WindowState) (call : RateLimiter.Call) :
    encounterAt i (⟨.limiter i, state, call⟩ : Section ℚ fw crates) = some (state, call) :=
  System.Visit.encounter_self (S := fw.system ℚ crates) (.limiter i) state call

/-- Only a visit to a limiter raises a count there. -/
theorem visit_of_raisesAt {window : Nat} {bucket : String} {s : Section ℚ fw crates}
    (h : raisesAt i window bucket s = true) :
    ∃ (state : WindowState) (call : RateLimiter.Call), s = ⟨.limiter i, state, call⟩ ∧
      RateLimiter.raises ℚ (fw.limiterAt i) window bucket (state, call) = true := by
  by_cases hpart : s.component = .limiter i
  · obtain ⟨part, state, call⟩ := s
    subst hpart
    refine ⟨state, call, rfl, ?_⟩
    unfold raisesAt at h
    erw [encounterAt_self] at h
    exact h
  · unfold raisesAt encounterAt at h
    rw [System.Visit.encounter_of_ne hpart] at h
    cases h

/-- A limiter that counts attempts raises counts in its checks, and one that counts failures in
its charges. -/
theorem kind_of_raisesAt {limit window : Nat} {bucket : String}
    (hlimits : RateLimiter.Limits (fw.limiterAt i) limit) {s : Section ℚ fw crates}
    (h : raisesAt i window bucket s = true) :
    ((fw.limiterAt i).incrementMode = .attempt ∧ (checkOn i s).isSome = true) ∨
      ((fw.limiterAt i).incrementMode = .failure ∧ (chargeTo i s).isSome = true) := by
  obtain ⟨state, call, rfl, hraises⟩ := visit_of_raisesAt h
  unfold checkOn chargeTo
  rw [answeredBy_self]
  rcases hlimits.mode with hmode | hmode
  · refine .inl ⟨hmode, ?_⟩
    cases call with
    | check attempt => rfl
    | charge outcome => exact (RateLimiter.not_raises_charge hmode _ _ _ _ hraises).elim
  · refine .inr ⟨hmode, ?_⟩
    cases call with
    | check attempt => exact (RateLimiter.not_raises_check hmode _ _ _ _ hraises).elim
    | charge outcome => rfl

/-- A request raises a count at a limiter once at most. -/
theorem countP_raisesAt_le {request : Request} {peer : IpAddr} {env : Env} {found : Guarded}
    {progress : Progress} {visits : List (Section ℚ fw crates)} {limit window : Nat}
    {bucket : String} (hlimits : RateLimiter.Limits (fw.limiterAt i) limit)
    (h : Reached ℚ fw crates request peer env found progress visits) :
    visits.countP (raisesAt i window bucket) ≤ 1 := by
  -- By the mode: the checks raise counts, or the charges do; each comes at most once.
  rcases hlimits.mode with hmode | hmode
  · refine (List.countP_mono_left fun s _ hs => ?_).trans (h.countP_checkOn (i := i))
    rcases kind_of_raisesAt hlimits hs with ⟨-, hcheck⟩ | ⟨hother, -⟩
    · exact hcheck
    · rw [hmode] at hother
      cases hother
  · have hafter : (fw.limiterAt i).incrementMode.shouldRunBeforeRequest = false := by
      rw [hmode]
      rfl
    refine (List.countP_mono_left fun s _ hs => ?_).trans
      ((Nat.le_of_eq (h.countP_chargeTo hafter)).trans ?_)
    · rcases kind_of_raisesAt hlimits hs with ⟨hother, -⟩ | ⟨-, hcharge⟩
      · rw [hmode] at hother
        cases hother
      · exact hcharge
    · split <;> omega

/-- The visits before some moment that raise a count are the calls of the limiter's own run that
raise it. -/
theorem countP_raisesAt {shared : ∀ part : Part fw, part.State}
    {events : List (System.Event (fw.system ℚ crates))} {state : WindowState}
    (hstate : shared (.limiter i) = state) {before later : List (Nat × Section ℚ fw crates)}
    (hlog : logOf ℚ fw crates shared events = before ++ later) (window : Nat) (bucket : String) :
    (before.countP fun entry => raisesAt i window bucket entry.2) =
      (RateLimiter.encounters ℚ (fw.limiterAt i) state (callsOn i before)).countP
        (RateLimiter.raises ℚ (fw.limiterAt i) window bucket) := by
  -- What is counted of the log is what the limiter itself goes through.
  have hencounters : before.filterMap (fun entry => encounterAt i entry.2) =
      RateLimiter.encounters ℚ (fw.limiterAt i) state (callsOn i before) := by
    rw [← hstate]
    exact (System.run_explains (S := fw.system ℚ crates) ⟨shared, []⟩ events).encounters hlog
      (.limiter i)
  rw [← hencounters, List.countP_filterMap]
  refine List.countP_congr fun entry _ => ?_
  unfold raisesAt
  cases encounterAt i entry.2 with
  | none => exact Iff.rfl
  | some encounter => exact Iff.rfl

theorem callsOn_check {received : Received} {env : Env} {counts : Nat → WindowState} {j : Nat}
    (before later : List (Nat × Section ℚ fw crates)) :
    callsOn i (before ++ (j, checkSection ℚ fw crates received env counts i) :: later) =
      callsOn i before ++ checkCall received env i :: callsOn i later := by
  unfold callsOn
  rw [System.inputsOn_append]
  congr 1
  exact List.filterMap_cons_some (System.Visit.on_self (S := fw.system ℚ crates) (.limiter i)
    (counts i) (checkCall received env i))

/-- The visits of a refused request before the check that refused it raise nothing there. -/
theorem not_raises_before {received : Received} {env : Env} {counts : Nat → WindowState}
    {earlier later : List (Section ℚ fw crates)}
    (hvisits : checkSections ℚ fw crates received env counts
      (List.finRange fw.ratelimiters.length) =
        earlier ++ checkSection ℚ fw crates received env counts i :: later)
    {window : Nat} {bucket : String} {s : Section ℚ fw crates} (hs : s ∈ earlier) :
    raisesAt i window bucket s = false := by
  have hsub : (checkSections ℚ fw crates received env counts
      (List.finRange fw.ratelimiters.length)).Sublist ((List.finRange fw.ratelimiters.length).map
        (checkSection ℚ fw crates received env counts)) := checkSections_sublist ..
  -- A request checks each limiter once, and this section is that check.
  have hcount := countP_checkSections_le (i := i) hsub
  have hself : (checkOn i (checkSection ℚ fw crates received env counts i)).isSome = true := by
    rw [checkOn_checkSection, if_pos rfl]
    rfl
  rw [hvisits, List.countP_append, List.countP_cons, if_pos hself] at hcount
  have hnone : earlier.countP (fun s => (checkOn i s).isSome) = 0 := by omega
  by_contra hraises
  obtain ⟨state, call, rfl, -⟩ := visit_of_raisesAt (Bool.eq_true_of_not_eq_false hraises)
  have hmem : (⟨.limiter i, state, call⟩ : Section ℚ fw crates) ∈
      checkSections ℚ fw crates received env counts (List.finRange fw.ratelimiters.length) := by
    rw [hvisits]
    -- what raises the count before it would be a check of the same limiter
    exact List.mem_append_left _ hs
  obtain ⟨j, hsection, -⟩ := mem_checkSections_finRange hmem
  have hplace : j = i := (Part.limiter.inj (congrArg System.Visit.component hsection)).symm
  rw [hsection, hplace] at hs
  exact (List.countP_eq_zero.mp hnone _ hs) hself

/-- Up to any moment a count was raised by visits of different requests, none of them a request
whose visits raised nothing. -/
theorem countP_raised_le {shared : ∀ part : Part fw, part.State}
    {events : List (System.Event (fw.system ℚ crates))}
    {before later : List (Nat × Section ℚ fw crates)}
    (hlog : logOf ℚ fw crates shared events = before ++ later) {limit window : Nat}
    {bucket : String} (hlimits : RateLimiter.Limits (fw.limiterAt i) limit) {j : Nat}
    (hself : ∀ s ∈ System.visitsBy j before, raisesAt i window bucket s = false) :
    (before.countP fun entry => raisesAt i window bucket entry.2) ≤
      (List.range (after ℚ fw crates shared events).parties.length).countP fun k =>
        k ≠ j ∧ (System.visitsBy k (logOf ℚ fw crates shared events)).any
          (raisesAt i window bucket) := by
  have hprograms := System.run_programs (S := fw.system ℚ crates) shared events
  have hbefore : ∀ k, (System.visitsBy k before).Sublist
      (System.visitsBy k (logOf ℚ fw crates shared events)) := by
    intro k
    rw [hlog, System.visitsBy_append]
    exact List.sublist_append_left ..
  have hknown : ∀ entry ∈ before,
      entry.1 < (after ℚ fw crates shared events).parties.length := by
    intro entry hentry
    refine hprograms.known entry ?_
    show entry ∈ logOf ℚ fw crates shared events
    rw [hlog]
    exact List.mem_append_left _ hentry
  -- a request raises the count once at most
  have honce : ∀ k < (after ℚ fw crates shared events).parties.length,
      (System.visitsBy k before).countP (raisesAt i window bucket) ≤ 1 := by
    intro k hk
    obtain ⟨other, left, reach, -, -, hway⟩ := reached_of_mem (List.getElem?_eq_getElem hk)
    exact (hbefore k).countP_le.trans (countP_raisesAt_le hlimits hway)
  refine (System.countP_log_le hknown honce).trans (List.countP_mono_left fun k _ hk => ?_)
  obtain ⟨s, hs, hraises⟩ := List.any_eq_true.mp hk
  rw [decide_eq_true_eq]
  refine ⟨?_, List.any_eq_true.mpr ⟨s, (hbefore k).subset hs, hraises⟩⟩
  rintro rfl
  rw [hself s hs] at hraises
  cases hraises

/-- **Refusals are deserved**: in any interleaving, a request that the firewall answers with 429
itself has a bucket at one of the limiters that more other requests than the limit raised, in the
window of its check or in the one before. The limits are at least one and double without a wrap, no
check of a limiter reads the clock earlier than one before it, and no bucket of this request's
checks is read after the window of the check. -/
theorem refusal_deserved (fw : Firewall) (crates : Crates)
    (shared : ∀ part : Part fw, part.State) (events : List (System.Event (fw.system ℚ crates)))
    (limit : Fin fw.ratelimiters.length → Nat) (start j : Nat)
    (hlimits : ∀ i, RateLimiter.Limits (fw.limiterAt i) (limit i))
    (hpos : ∀ i, 0 < limit i) (hword : ∀ i, 2 * limit i < 2 ^ 64)
    (hstart : ∀ i, shared (.limiter i) =
      RateLimiter.newState (fw.limiterAt i).windowDuration start)
    (hclock : ∀ i, RateLimiter.ClockNeverGoesBack start
      (((callsOn i (logOf ℚ fw crates shared events)).filterMap RateLimiter.attemptOf).map
        Attempt.now))
    (task : Task) (response : Response)
    (htask : (after ℚ fw crates shared events).parties[j]? = some task)
    (hended : task.progress = .ended ⟨none, some response⟩)
    (hstatus : response.status = (429 : StatusCode))
    (hticks : ∀ (i : Fin fw.ratelimiters.length) (bucket : String),
      (task.env.check i).now ≤ (task.env.check i).tick bucket ∧
      (task.env.check i).tick bucket ≤ RateLimiter.windowEnd (fw.limiterAt i).windowDuration
        (task.env.check i).now) :
    ∃ i received, fw.receive crates task.request task.peer task.env.filterNow = .ok received ∧
      ∃ bucket ∈ (fw.limiterAt i).bucketsOf received.info received.body (task.env.check i).now,
      ∃ window,
        (window = RateLimiter.getCurrentWindow (fw.limiterAt i).windowDuration
            (task.env.check i).now ∨
          window + 1 = RateLimiter.getCurrentWindow (fw.limiterAt i).windowDuration
            (task.env.check i).now) ∧
        limit i < (List.range (after ℚ fw crates shared events).parties.length).countP fun k =>
          k ≠ j ∧ (System.visitsBy k (logOf ℚ fw crates shared events)).any
            (raisesAt i window bucket) := by
  have hexplains := System.run_explains (S := fw.system ℚ crates) ⟨shared, []⟩ events
  obtain ⟨incoming, found, progress, -, rfl, hreached⟩ := reached_of_mem htask
  dsimp only at hended hticks ⊢
  subst hended
  -- the limiter that refused it, and its check there
  obtain ⟨i, received, hreceived, hrefused, hvisits, hmem⟩ := hreached.refused hstatus
  -- what the limiter had been asked before
  obtain ⟨before, later, hlog⟩ := List.append_of_mem (System.mem_visitsBy.mp hmem)
  have hfound : found.checked i = final ((fw.limiterAt i).respond ℚ)
      (RateLimiter.newState (fw.limiterAt i).windowDuration start) (callsOn i before) := by
    rw [← hstart i]
    exact hexplains.found before _ later hlog
  have hcalls : callsOn i (logOf ℚ fw crates shared events) =
      callsOn i before ++ checkCall received incoming.env i :: callsOn i later := by
    rw [hlog]
    exact callsOn_check before later
  have hread := hclock i
  rw [hcalls, List.filterMap_append, List.map_append] at hread
  have hread' : RateLimiter.ClockNeverGoesBack start
      (((callsOn i before).filterMap RateLimiter.attemptOf).map Attempt.now ++
        [(attemptAt received (incoming.env.check i)).now]) := by
    refine hread.initial ?_
    exact ⟨((callsOn i later).filterMap RateLimiter.attemptOf).map Attempt.now, by
      rw [List.append_assoc]
      rfl⟩
  rw [hfound] at hrefused
  obtain ⟨bucket, hbucket, window, hwindow, hmany⟩ := RateLimiter.raised_of_refused (hlimits i)
    (hpos i) (hword i) hread' (hticks i) hrefused
  refine ⟨i, received, hreceived, bucket, hbucket, window, hwindow, hmany.trans_le ?_⟩
  rw [← countP_raisesAt (hstart i) hlog]
  -- each of those calls is of another request: this one is checked here once
  have hsplit : checkSections ℚ fw crates received incoming.env found.checked
      (List.finRange fw.ratelimiters.length) =
        System.visitsBy j before ++
          checkSection ℚ fw crates received incoming.env found.checked i ::
            System.visitsBy j later := by
    rw [← hvisits, hlog, System.visitsBy_append]
    simp [System.visitsBy]
  exact countP_raised_le hlog (hlimits i) fun s hs => not_raises_before hsplit hs

/-- The status that the firewall answered a request with itself, if it did. -/
def Task.ownStatus (task : Task) : Option StatusCode :=
  match task.progress with
  | .ended ⟨none, some response⟩ => some response.status
  | _ => none

theorem ended_of_ownStatuses {tasks : List Task} {i : Nat} {status : StatusCode}
    (h : (tasks.map Task.ownStatus)[i]? = some (some status)) :
    ∃ task response, tasks[i]? = some task ∧ task.progress = .ended ⟨none, some response⟩ ∧
      response.status = status := by
  rw [List.getElem?_map, Option.map_eq_some_iff] at h
  obtain ⟨task, htask, hstatus⟩ := h
  unfold Task.ownStatus at hstatus
  split at hstatus
  · next response hended => exact ⟨task, response, htask, hended, Option.some_inj.mp hstatus⟩
  · cases hstatus

/-- Of three requests that come in together the third is turned away by a limit of one, which the
two others have used up. -/
theorem refusal_deserved_third :
    ∃ i received, (servingOne .attempt 1).receive nullDocument (infoRequest none) (.v4 0)
        (fun _ => 0) = .ok received ∧
      ∃ bucket ∈ ((servingOne .attempt 1).limiterAt i).bucketsOf received.info received.body 0,
      ∃ window,
        (window = RateLimiter.getCurrentWindow
            ((servingOne .attempt 1).limiterAt i).windowDuration 0 ∨
          window + 1 = RateLimiter.getCurrentWindow
            ((servingOne .attempt 1).limiterAt i).windowDuration 0) ∧
        1 < (List.range (afterThree .attempt 1 200).parties.length).countP fun k =>
          k ≠ 2 ∧ (System.visitsBy k (logOf ℚ (servingOne .attempt 1) nullDocument
            (fresh (servingOne .attempt 1) 0) (threeAtOnce .attempt 1 200))).any
              (raisesAt i window bucket) := by
  -- The third request is refused, as the first two took the whole window.
  have hown : ((afterThree .attempt 1 200).parties.map Task.ownStatus)[2]? =
      some (some 429) := by decide +kernel
  obtain ⟨task, response, htask, hended, hstatus⟩ := ended_of_ownStatuses hown
  obtain ⟨incoming, found, progress, hincoming, rfl, -⟩ := reached_of_mem htask
  obtain rfl : answeredWith 200 = incoming := Option.some_inj.mp hincoming
  have honly : ∀ i, i = theLimiter .attempt 1 := fun i => Fin.ext (Nat.lt_one_iff.mp i.2)
  refine refusal_deserved (servingOne .attempt 1) nullDocument (fresh (servingOne .attempt 1) 0)
    (threeAtOnce .attempt 1 200) (fun _ => 1) 0 2 (fun i => ?_) (fun _ => Nat.one_pos)
    (fun _ => by decide) (fun i => rfl) (fun i => ?_) _ response htask hended hstatus
    (fun i bucket => ⟨Nat.le_refl 0, Nat.zero_le _⟩)
  · rw [honly i]
    exact ⟨.inl rfl, rfl, rfl, rfl⟩
  · rw [honly i]
    unfold RateLimiter.ClockNeverGoesBack
    decide +kernel

end Runs

end Firewall

end AntelopeFirewall
