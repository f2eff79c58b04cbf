import AntelopeFirewall.Firewall.Refusals
import AntelopeFirewall.Firewall.Steering
import AntelopeFirewall.PinLimiter.Refusals

/-!
# Pins Are Dropped for a Reason

A client that names a node may be sent elsewhere: the pin limiter refuses a pin for which the client
has used up its share, or for which it has no room. Here is what such a refusal says of the requests
before it.

- `Recorded` says what an entry of the map stands for, `recorded_run` that every entry does,
- `grounds_of_refused` is what a refusal says of the calls before it,
- `dropped_pin_deserved` is about the requests of the firewall, in any interleaving.

No order of the clock readings is assumed.
-/

namespace AntelopeFirewall

open Library Library.Machine Library.Concurrent

namespace PinLimiter

/-! ## What an entry stands for -/

/-- A call for a key was admitted. -/
def admittedFor (key : String) (answered : PinCall × Bool) : Bool :=
  answered.1.key = key ∧ answered.2 = true

/-- An entry of a key is an account of calls: the one that opened the window, which was read at its
start, and those that were admitted for the key since then. -/
def Recorded (answered : List (PinCall × Bool)) (key : String) (started counted : Nat) : Prop :=
  ∃ before first since, answered = before ++ first :: since ∧ admittedFor key first = true ∧
    first.1.now = started ∧ (first :: since).countP (admittedFor key) = counted

variable {limiter : PinLimiter} {answered : List (PinCall × Bool)} {key : String}
  {started counted : Nat}

/-- A later call is one more in the account if it is admitted for the key. -/
theorem Recorded.concat (h : Recorded answered key started counted) (call : PinCall × Bool) :
    Recorded (answered ++ [call]) key started
      (counted + if admittedFor key call then 1 else 0) := by
  obtain ⟨before, first, since, rfl, hfirst, hnow, hcounted⟩ := h
  refine ⟨before, first, since ++ [call], by simp, hfirst, hnow, ?_⟩
  rw [← List.cons_append, List.countP_append, hcounted, List.countP_singleton]

theorem recorded_opening {call : PinCall × Bool} (hcall : admittedFor key call = true) :
    Recorded (answered ++ [call]) key call.1.now 1 := by
  refine ⟨answered, call, [], rfl, hcall, rfl, ?_⟩
  rw [List.countP_singleton, if_pos hcall]

/-- What a sweep leaves was there before. -/
theorem Swept.lookup_eq {window now : Nat} {before after : PinState}
    (h : Swept window now before after) {entry : Nat × Nat}
    (hentry : after.lookup key = some entry) : before.lookup key = some entry := by
  rcases h key with hsame | ⟨hgone, -⟩
  · rw [← hsame]
    exact hentry
  · rw [hgone] at hentry
    cases hentry

/-- **Run**: every entry of the map is an account of the calls so far, in whatever order their
readings came. -/
theorem recorded_run (calls : List PinCall)
    (h : (final limiter.step ∅ calls).lookup key = some (started, counted)) :
    Recorded (trace limiter.step ∅ calls) key started counted := by
  induction calls using List.reverseRecOn generalizing key started counted with
  | nil => cases h
  | append_singleton calls call ih =>
    rw [final_concat] at h
    rw [trace_concat]
    have hother : ∀ ok, key ≠ call.key → admittedFor key (call, ok) = false :=
      fun ok hne => decide_eq_false fun hboth => hne hboth.1.symm
    -- an entry that was there before stays an account of the same calls
    have hkept : ∀ ok, admittedFor key (call, ok) = false →
        (final limiter.step ∅ calls).lookup key = some (started, counted) →
          Recorded (trace limiter.step ∅ calls ++ [(call, ok)]) key started counted := by
      intro ok hnot hentry
      have hrecorded := (ih hentry).concat (call, ok)
      rwa [hnot] at hrecorded
    rcases limiter.admits_cases (final limiter.step ∅ calls) call.key call.now with
      ⟨swept, hswept, hcall⟩ | ⟨-, -, swept, hswept, hcall⟩ |
      ⟨began, earlier, hentry, -, -, hcall⟩
    · have hstep : limiter.step (final limiter.step ∅ calls) call = (false, swept) := hcall
      rw [hstep] at h ⊢
      exact hkept false (decide_eq_false fun hboth => Bool.noConfusion hboth.2)
        (hswept.lookup_eq h)
    · -- a window is opened for the key of the call
      have hstep : limiter.step (final limiter.step ∅ calls) call =
          (true, swept.insert call.key (call.now, 1)) := hcall
      rw [hstep] at h ⊢
      by_cases hkey : key = call.key
      · rw [hkey, AList.lookup_insert] at h
        cases h
        exact recorded_opening (decide_eq_true ⟨hkey.symm, rfl⟩)
      · rw [AList.lookup_insert_ne hkey] at h
        exact hkept true (hother true hkey) (hswept.lookup_eq h)
    · -- the call is one more in the window that runs
      have hstep : limiter.step (final limiter.step ∅ calls) call =
          (true, (final limiter.step ∅ calls).insert call.key (began, earlier + 1)) := hcall
      rw [hstep] at h ⊢
      by_cases hkey : key = call.key
      · rw [hkey, AList.lookup_insert] at h
        cases h
        rw [← hkey] at hentry
        have hrecorded := (ih hentry).concat (call, true)
        rwa [show admittedFor key (call, true) = true from decide_eq_true ⟨hkey.symm, rfl⟩]
          at hrecorded
      · rw [AList.lookup_insert_ne hkey] at h
        exact hkept true (hother true hkey) h

/-! ## What a refusal says -/

/-- The grounds for the refusal of a key: no pin is allowed at all, the limit was admitted for the
key since a call that was read less than a window ago, or as many other keys as the map holds were
each admitted less than a window ago. -/
inductive Grounds (limiter : PinLimiter) (answered : List (PinCall × Bool)) (key : String)
    (now : Nat) : Prop where
  | none (h : limiter.limit = 0)
  | share (started : Nat) (h : Recorded answered key started limiter.limit)
      (hlive : now - started < limiter.window)
  | room (keys : Finset String) (hmany : keys.card = maxPinKeys) (hother : key ∉ keys)
      (hheld : ∀ other ∈ keys, ∃ started counted, Recorded answered other started counted ∧
        now - started < limiter.window)

/-- An entry that a sweep would keep. -/
theorem entry_of_unexpired {state : PinState} {now : Nat} {other : String}
    (h : other ∈ (limiter.unexpired state now).keys) :
    ∃ started counted, state.lookup other = some (started, counted) ∧
      now - started < limiter.window := by
  obtain ⟨⟨started, counted⟩, hentry⟩ :=
    Option.isSome_iff_exists.mp (AList.lookup_isSome.mpr (AList.mem_keys.mpr h))
  unfold unexpired at hentry
  rw [Table.lookup_retain, Option.filter_eq_some_iff] at hentry
  exact ⟨started, counted, hentry.1, of_decide_eq_true hentry.2⟩

/-- **Refusal**: a refused call has its grounds in the calls before it. -/
theorem grounds_of_refused (calls : List PinCall) {call : PinCall}
    (hrefused : (limiter.step (final limiter.step ∅ calls) call).1 = false) :
    Grounds limiter (trace limiter.step ∅ calls) call.key call.now := by
  have hbounded : Bounded limiter (final limiter.step ∅ calls) :=
    final_invariant limiter.step (Bounded limiter) (fun _ call h => h.step call)
      (bounded_empty limiter) calls
  -- By the ground on which the bounded limiter refuses.
  rcases (hbounded.answered call).grounds hrefused with
    hnone | ⟨started, hentry, hlive⟩ | ⟨hnew, hfull⟩
  · exact .none hnone
  · exact .share started (recorded_run calls hentry) hlive
  · -- the keys of the entries that a sweep would keep
    refine .room (limiter.unexpired (final limiter.step ∅ calls) call.now).keys.toFinset ?_ ?_ ?_
    · rw [List.toFinset_card_of_nodup (AList.keys_nodup _), ← Table.len_eq_length_keys]
      exact hfull
    · intro hmem
      obtain ⟨started, counted, hentry, -⟩ := entry_of_unexpired (List.mem_toFinset.mp hmem)
      exact hnew (AList.lookup_isSome.mp (by rw [hentry]; rfl))
    · intro other hother
      obtain ⟨started, counted, hentry, hlive⟩ :=
        entry_of_unexpired (List.mem_toFinset.mp hother)
      exact ⟨started, counted, recorded_run calls hentry, hlive⟩

end PinLimiter

namespace Firewall

section Visits

variable {F : Type} [F32 F] {fw : Firewall} {crates : Crates} {request : Request}
  {peer : IpAddr} {env : Env} {found : Guarded} {progress : Progress} {received : Received}
  {visits : List (Section F fw crates)}

/-! ## Who asks the pin limiter -/

/-- A visit asks the pin limiter. -/
def asksPin (s : Section F fw crates) : Bool := (pinAnswered s).isSome

/-- A visit in which a pin was admitted for a key. -/
def takesPin (key : String) (s : Section F fw crates) : Bool :=
  (pinAnswered s).any (PinLimiter.admittedFor key)

theorem asksPin_of_takesPin {key : String} {s : Section F fw crates}
    (h : takesPin key s = true) : asksPin s = true := by
  unfold takesPin at h
  unfold asksPin
  cases hanswered : pinAnswered s with
  | none =>
    rw [hanswered] at h
    cases h
  | some answered => rfl

theorem asksPin_of_ne {s : Section F fw crates} (h : s.component ≠ .pins) :
    asksPin s = false := by
  unfold asksPin pinAnswered
  rw [System.Visit.answered_of_ne h]
  rfl

theorem not_asksPin_limiter (i : Fin fw.ratelimiters.length) (state : WindowState)
    (call : RateLimiter.Call) :
    ¬ asksPin (⟨.limiter i, state, call⟩ : Section F fw crates) = true :=
  Bool.eq_false_iff.mp (asksPin_of_ne nofun)

theorem countP_asksPin_checks {counts : Nat → WindowState}
    {visits : List (Section F fw crates)}
    (h : visits.Sublist ((List.finRange fw.ratelimiters.length).map
      (checkSection F fw crates received env counts))) : visits.countP asksPin = 0 := by
  rw [List.countP_eq_zero]
  intro s hs
  obtain ⟨i, -, rfl⟩ := List.mem_map.mp (h.subset hs)
  exact not_asksPin_limiter i _ _

theorem countP_asksPin_charges {d : Dispatch} {outcome : Json × StatusCode}
    {counts : Nat → WindowState} (xs : List (Fin fw.ratelimiters.length)) :
    (chargeSections F fw crates d outcome env counts xs).countP asksPin = 0 := by
  rw [List.countP_eq_zero]
  intro s hs
  obtain ⟨i, -, rfl⟩ := List.mem_map.mp hs
  exact not_asksPin_limiter i _ _

theorem countP_asksPin_pins (nodes : List NodeEntry) :
    (pinSections F fw crates received env found nodes).countP asksPin ≤ 1 := by
  refine List.countP_le_length.trans ?_
  unfold pinSections
  split
  · exact Nat.le_refl 1
  · exact Nat.zero_le 1

theorem countP_asksPin_route :
    (routeSections F fw crates received env found).countP asksPin ≤ 1 := by
  unfold routeSections
  dsimp only
  split
  · exact Nat.zero_le 1
  -- beyond the question to the pins there is at most a visit to the routing mode
  · have hchoice : ∀ nodes,
        (choiceSections F fw crates received env found nodes).countP asksPin = 0 := by
      intro nodes
      rw [List.countP_eq_zero]
      intro s hs
      unfold choiceSections at hs
      split at hs
      · cases hs
      · rw [List.mem_singleton.mp hs]
        exact Bool.eq_false_iff.mp (asksPin_of_ne nofun)
    rw [List.countP_append, hchoice]
    exact countP_asksPin_pins _

theorem countP_asksPin_toNode :
    (sectionsToNode F fw crates env found received).countP asksPin ≤ 1 := by
  unfold sectionsToNode
  rw [List.countP_append, countP_asksPin_checks (checkSections_sublist ..), Nat.zero_add]
  exact countP_asksPin_route

/-- A request asks the pin limiter once at most. -/
theorem Reached.countP_asksPin
    (h : Reached F fw crates request peer env found progress visits) :
    visits.countP asksPin ≤ 1 := by
  have hchecks : ∀ received : Received, (checkSections F fw crates received env found.checked
      (List.finRange fw.ratelimiters.length)).countP asksPin = 0 :=
    fun received => countP_asksPin_checks (checkSections_sublist ..)
  -- By the place that was reached: the question to the pins comes with the routing, and once.
  cases h with
  | arrived => exact Nat.zero_le 1
  | limiting hreceived hpassed =>
    exact (countP_asksPin_checks ((List.take_sublist _ _).map _)).trans_le (Nat.zero_le 1)
  | matching hlimited => exact (hchecks _).trans_le (Nat.zero_le 1)
  | pinning hlimited hurls hmatched hpinned hlimiter => exact (hchecks _).trans_le (Nat.zero_le 1)
  | choosing hlimited hurls hmatched hdropped =>
    rw [List.countP_append, hchecks, Nat.zero_add]
    exact countP_asksPin_pins _
  | forwarding hlimited hrouted => exact countP_asksPin_toNode
  | waiting hdispatched => exact countP_asksPin_toNode
  | charging hdispatched hanswered =>
    rw [List.countP_append, countP_asksPin_charges]
    exact countP_asksPin_toNode
  | ended hhandled =>
    unfold sections
    split
    · exact Nat.zero_le 1
    · rw [List.countP_append, hchecks, Nat.zero_add]
      split
      · exact Nat.zero_le 1
      · rw [List.countP_append]
        -- what follows the answer of the node asks for no pin
        have hrelay : ∀ d : Dispatch,
            (relaySections F fw crates d env found.charged).countP asksPin = 0 := by
          intro d
          unfold relaySections
          split
          · exact countP_asksPin_charges _
          · rfl
        split
        · exact countP_asksPin_route
        · rw [hrelay]
          exact countP_asksPin_route

/-- Of the visits of a request only the choice of the routing is to the routing mode. -/
theorem not_routing_checks {counts : Nat → WindowState} {s : Section F fw crates}
    (hs : s ∈ checkSections F fw crates received env counts
      (List.finRange fw.ratelimiters.length)) : s.component ≠ Part.routing := by
  obtain ⟨i, -, rfl⟩ := List.mem_map.mp ((checkSections_sublist ..).subset hs)
  nofun

theorem not_routing_charges {d : Dispatch} {outcome : Json × StatusCode}
    {counts : Nat → WindowState} {xs : List (Fin fw.ratelimiters.length)}
    {s : Section F fw crates} (hs : s ∈ chargeSections F fw crates d outcome env counts xs) :
    s.component ≠ Part.routing := by
  obtain ⟨i, -, rfl⟩ := List.mem_map.mp hs
  nofun

theorem not_routing_pins {nodes : List NodeEntry} {s : Section F fw crates}
    (hs : s ∈ pinSections F fw crates received env found nodes) :
    s.component ≠ Part.routing := by
  unfold pinSections at hs
  split at hs
  · rw [List.mem_singleton.mp hs]
    nofun
  · cases hs

/-- A request that has asked the routing mode has made all visits up to its sending. -/
theorem Reached.routing_visits
    (h : Reached F fw crates request peer env found progress visits)
    (hreceived : fw.receive crates request peer env.filterNow = .ok received)
    {s : Section F fw crates} (hs : s ∈ visits) (hrouting : s.component = Part.routing) :
    s ∈ sectionsToNode F fw crates env found received ∧
      sectionsToNode F fw crates env found received <+: visits := by
  -- the request was received once
  have hsame : ∀ {other : Received},
      fw.receive crates request peer env.filterNow = .ok other → other = received :=
    fun hother => Except.ok.inj (hother.symm.trans hreceived)
  cases h with
  | arrived => cases hs
  | limiting hother hpassed =>
    obtain ⟨i, -, rfl⟩ := List.mem_map.mp hs
    cases hrouting
  | matching hlimited => exact absurd hrouting (not_routing_checks hs)
  | pinning hlimited hurls hmatched hpinned hlimiter =>
    exact absurd hrouting (not_routing_checks hs)
  | choosing hlimited hurls hmatched hdropped =>
    exact absurd hrouting ((List.mem_append.mp hs).elim not_routing_checks not_routing_pins)
  | forwarding hlimited hrouted =>
    obtain rfl := hsame hlimited.1
    exact ⟨hs, List.prefix_refl _⟩
  | waiting hdispatched =>
    obtain rfl := hsame (dispatch_ok_iff.mp hdispatched).1
    exact ⟨hs, List.prefix_refl _⟩
  | charging hdispatched hanswered =>
    obtain rfl := hsame (dispatch_ok_iff.mp hdispatched).1
    refine ⟨?_, List.prefix_append _ _⟩
    exact (List.mem_append.mp hs).resolve_right fun hlate => not_routing_charges hlate hrouting
  | ended hhandled =>
    unfold sections at hs ⊢
    rw [hreceived] at hs ⊢
    dsimp only at hs ⊢
    have hrest := (List.mem_append.mp hs).resolve_left fun hcheck =>
      not_routing_checks hcheck hrouting
    split at hrest
    · -- a limiter stopped it
      cases hrest
    · -- the routing comes before what is sent and charged
      rw [← List.append_assoc]
      refine ⟨List.mem_append_right _ ?_, List.prefix_append _ _⟩
      refine (List.mem_append.mp hrest).resolve_right fun hrelay => ?_
      split at hrelay
      · cases hrelay
      · unfold relaySections at hrelay
        split at hrelay
        · exact not_routing_charges hrelay hrouting
        · cases hrelay

/-- A request that names a node and asks the routing mode had its pin refused. -/
theorem refused_of_asksRouting {node : NodeEntry} {limiter : PinLimiter}
    (hlimiter : fw.pinLimiter = some limiter)
    (hnamed : findPinned received.info (env.order.list (fw.matchingEngine.findMatchingUrls
      env.health received.info received.body)) = some node) {s : Section F fw crates}
    (hs : s ∈ sectionsToNode F fw crates env found received)
    (hrouting : s.component = Part.routing) :
    (limiter.step found.pins (pinCall crates received env node)).1 = false ∧
      (⟨.pins, found.pins, pinCall crates received env node⟩ : Section F fw crates) ∈
        sectionsToNode F fw crates env found received := by
  have hpins : pinSections F fw crates received env found (env.order.list
      (fw.matchingEngine.findMatchingUrls env.health received.info received.body)) =
        [⟨.pins, found.pins, pinCall crates received env node⟩] := by
    unfold pinSections
    rw [hnamed, hlimiter]
  unfold sectionsToNode at hs ⊢
  rcases List.mem_append.mp hs with hcheck | hroute
  · exact absurd hrouting (not_routing_checks hcheck)
  unfold routeSections at hroute ⊢
  dsimp only at hroute ⊢
  rw [hpins] at hroute ⊢
  split at hroute
  · cases hroute
  · next hmatched =>
    rw [if_neg hmatched]
    refine ⟨?_, List.mem_append_right _ (List.mem_append_left _ (List.mem_singleton_self _))⟩
    by_contra hadmitted
    -- a granted pin leaves nothing to ask
    have hgranted : (fw.limitPin crates received.info.ip env.pinNow (findPinned received.info
        (env.order.list (fw.matchingEngine.findMatchingUrls env.health received.info
          received.body))) found.pins).1 = some node := by
      unfold limitPin
      rw [hlimiter, hnamed]
      exact if_pos (Bool.eq_true_of_not_eq_false hadmitted)
    rcases List.mem_append.mp hroute with hpin | hchoice
    · rw [List.mem_singleton.mp hpin] at hrouting
      cases hrouting
    · unfold choiceSections at hchoice
      rw [hgranted] at hchoice
      cases hchoice

end Visits

/-! ## Dropped pins in an interleaving -/

section Runs

variable {F : Type} [F32 F] {fw : Firewall} {crates : Crates}

/-- What the pin limiter was asked in a log and what it answered. -/
def pinAnswers (log : List (Nat × Section F fw crates)) : List (PinLimiter.PinCall × Bool) :=
  log.filterMap fun entry => pinAnswered entry.2

/-- In a visit a pin was admitted for a key, with a reading less than a window before. -/
def TakenWithin (limiter : PinLimiter) (key : String) (now : Nat) (s : Section F fw crates) :
    Prop :=
  ∃ call, pinAnswered s = some (call, true) ∧ call.key = key ∧ now - call.now < limiter.window

/-- The grounds for dropping the pin of a request, in the log up to there: no pin is allowed at all;
or since one that was taken for the same key less than a window ago, as many other requests as the
limit took one; or as many other keys as the map holds each had one taken less than a window ago. -/
inductive DroppedFor (limiter : PinLimiter) (log : List (Nat × Section F fw crates)) (n j : Nat)
    (key : String) (now : Nat) : Prop where
  | none (h : limiter.limit = 0)
  | share (before since : List (Nat × Section F fw crates)) (first : Nat × Section F fw crates)
      (hlog : log = before ++ first :: since) (hfirst : TakenWithin limiter key now first.2)
      (hmany : limiter.limit ≤ (List.range n).countP fun k =>
        k ≠ j ∧ (System.visitsBy k (first :: since)).any (takesPin key))
  | room (keys : Finset String) (hmany : keys.card = maxPinKeys) (hother : key ∉ keys)
      (htaken : ∀ other ∈ keys, ∃ entry ∈ log, TakenWithin limiter other now entry.2)

theorem countP_takesPin (log : List (Nat × Section F fw crates)) (key : String) :
    (log.countP fun entry => takesPin key entry.2) =
      (pinAnswers log).countP (PinLimiter.admittedFor key) := by
  unfold pinAnswers
  rw [List.countP_filterMap]
  refine List.countP_congr fun entry _ => ?_
  unfold takesPin
  cases pinAnswered entry.2 with
  | none => exact Iff.rfl
  | some answered => exact Iff.rfl

/-- The calls of an account are visits of the log. -/
theorem visits_of_recorded {log : List (Nat × Section F fw crates)} {key : String}
    {started counted : Nat}
    (h : PinLimiter.Recorded (pinAnswers log) key started counted) :
    ∃ before first since call, log = before ++ first :: since ∧
      pinAnswered first.2 = some (call, true) ∧ call.key = key ∧ call.now = started ∧
      ((first :: since).countP fun entry => takesPin key entry.2) = counted := by
  -- The entry was opened by an answer, which one visit of the log gave.
  obtain ⟨earlier, ⟨call, ok⟩, later, hsplit, hfirst, hnow, hcounted⟩ := h
  obtain ⟨before, rest, rfl, -, hrest⟩ := List.filterMap_eq_append_iff.mp hsplit
  obtain ⟨skipped, first, since, rfl, -, hanswered, hsince⟩ :=
    List.filterMap_eq_cons_iff.mp hrest
  obtain ⟨hkey, rfl⟩ := of_decide_eq_true hfirst
  refine ⟨before ++ skipped, first, since, call, (List.append_assoc ..).symm, hanswered, hkey, hnow,
    ?_⟩
  have hcalls : pinAnswers (first :: since) = (call, true) :: later := by
    rw [← hsince]
    exact List.filterMap_cons_some (f := fun entry : Nat × Section F fw crates =>
      pinAnswered entry.2) hanswered
  -- what the entry counts are the pins taken from that visit on
  rw [countP_takesPin, hcalls, hcounted]

/-- The visits that took a pin before a visit to the pin limiter are each of another request than
that one. -/
theorem countP_takers {shared : ∀ part : Part fw, part.State}
    {events : List (System.Event (fw.system F crates))} {j : Nat} {visit : Section F fw crates}
    {before later old part : List (Nat × Section F fw crates)}
    (hlog : logOf F fw crates shared events = before ++ (j, visit) :: later)
    (hasks : asksPin visit = true) (hbefore : before = old ++ part) (key : String) :
    (part.countP fun entry => takesPin key entry.2) ≤
      (List.range (after F fw crates shared events).parties.length).countP fun k =>
        k ≠ j ∧ (System.visitsBy k part).any (takesPin key) := by
  have hprograms := System.run_programs (S := fw.system F crates) shared events
  have hknown : ∀ entry ∈ logOf F fw crates shared events,
      entry.1 < (after F fw crates shared events).parties.length := hprograms.known
  have hpart : ∀ k, (System.visitsBy k part).Sublist (System.visitsBy k before) := by
    intro k
    rw [hbefore, System.visitsBy_append]
    exact List.sublist_append_right ..
  have hvisits : ∀ k, System.visitsBy k (logOf F fw crates shared events) =
      System.visitsBy k before ++ System.visitsBy k ((j, visit) :: later) := by
    intro k
    rw [hlog, System.visitsBy_append]
  have honce : ∀ k < (after F fw crates shared events).parties.length,
      (System.visitsBy k before).countP asksPin +
        (System.visitsBy k ((j, visit) :: later)).countP asksPin ≤ 1 := by
    intro k hk
    obtain ⟨other, left, reach, -, -, hway⟩ := reached_of_mem (List.getElem?_eq_getElem hk)
    rw [← List.countP_append, ← hvisits]
    exact hway.countP_asksPin
  have hpartKnown : ∀ entry ∈ part,
      entry.1 < (after F fw crates shared events).parties.length := by
    intro entry hentry
    refine hknown entry ?_
    rw [hlog, hbefore]
    exact List.mem_append_left _ (List.mem_append_right _ hentry)
  have hpartOnce : ∀ k < (after F fw crates shared events).parties.length,
      (System.visitsBy k part).countP (takesPin key) ≤ 1 := fun k hk =>
    calc (System.visitsBy k part).countP (takesPin key)
        ≤ (System.visitsBy k part).countP asksPin :=
          List.countP_mono_left fun s _ => asksPin_of_takesPin
      _ ≤ (System.visitsBy k before).countP asksPin := (hpart k).countP_le
      _ ≤ 1 := (Nat.le_add_right ..).trans (honce k hk)
  refine (System.countP_log_le hpartKnown hpartOnce).trans
    (List.countP_mono_left fun k _ hk => ?_)
  rw [decide_eq_true_eq]
  refine ⟨?_, hk⟩
  rintro rfl
  -- the request has no other visit to the pin limiter
  have hin : (k, visit) ∈ logOf F fw crates shared events := by
    rw [hlog]
    exact List.mem_append_right _ (List.mem_cons_self ..)
  have hself : 0 < (System.visitsBy k ((k, visit) :: later)).countP asksPin :=
    List.countP_pos_iff.mpr ⟨visit, System.mem_visitsBy.mpr (List.mem_cons_self ..), hasks⟩
  obtain ⟨s, hs, htakes⟩ := List.any_eq_true.mp hk
  have hother : 0 < (System.visitsBy k before).countP asksPin :=
    List.countP_pos_iff.mpr ⟨s, (hpart k).subset hs, asksPin_of_takesPin htakes⟩
  have htwice := honce k (hknown _ hin)
  omega

/-- **Dropped pins**: in any interleaving, whatever the clock reads, a request that names a node it
could be pinned to and asks the routing mode for one has its grounds in the requests before it. -/
theorem dropped_pin_deserved (F : Type) [F32 F] (fw : Firewall) (crates : Crates)
    (shared : ∀ part : Part fw, part.State) (events : List (System.Event (fw.system F crates)))
    (limiter : PinLimiter) (hlimiter : fw.pinLimiter = some limiter)
    (hstart : shared .pins = (∅ : PinState)) (j : Nat) (task : Task) (received : Received)
    (node : NodeEntry) (htask : (after F fw crates shared events).parties[j]? = some task)
    (hreceived : fw.receive crates task.request task.peer task.env.filterNow = .ok received)
    (hnamed : findPinned received.info (task.env.order.list
      (fw.matchingEngine.findMatchingUrls task.env.health received.info received.body)) =
        some node)
    (hdropped : ∃ s ∈ System.visitsBy j (logOf F fw crates shared events), asksRouting s = true) :
    ∃ before visit later, logOf F fw crates shared events = before ++ (j, visit) :: later ∧
      DroppedFor limiter before (after F fw crates shared events).parties.length j
        (pinKey crates received.info.ip node.name) task.env.pinNow := by
  have hexplains := System.run_explains (S := fw.system F crates) ⟨shared, []⟩ events
  obtain ⟨incoming, found, progress, -, rfl, hreached⟩ := reached_of_mem htask
  obtain ⟨asked, hasked, hrouting⟩ := hdropped
  have hroutes : asked.component = Part.routing := of_decide_eq_true hrouting
  obtain ⟨hbefore, hpre⟩ := hreached.routing_visits hreceived hasked hroutes
  obtain ⟨hrefused, hmem⟩ := refused_of_asksRouting hlimiter hnamed hbefore hroutes
  -- what the pin limiter had been asked before
  obtain ⟨before, later, hlog⟩ :=
    List.append_of_mem (System.mem_visitsBy.mp (hpre.subset hmem))
  have hserve := serve_pins F crates hlimiter
  have hfound : found.pins = final limiter.step ∅ (pinCalls before) := by
    rw [← hstart, ← hserve]
    exact hexplains.found before _ later hlog
  have hanswered : pinAnswers before =
      trace limiter.step ∅ (pinCalls before) := by
    rw [← hstart, ← hserve]
    exact hexplains.answered_initial hlog .pins
  rw [hfound] at hrefused
  have hgrounds := PinLimiter.grounds_of_refused (pinCalls before) hrefused
  rw [← hanswered] at hgrounds
  have hasks : asksPin (⟨.pins, found.pins, pinCall crates received incoming.env node⟩ :
      Section F fw crates) = true := by
    unfold asksPin
    rw [pinAnswered_self hlimiter]
    rfl
  refine ⟨before, _, later, hlog, ?_⟩
  cases hgrounds with
  | none h => exact .none h
  | share started hrecorded hlive =>
    obtain ⟨old, first, since, call, rfl, htaken, hkey, rfl, hcounted⟩ :=
      visits_of_recorded hrecorded
    refine .share old since first rfl ⟨call, htaken, hkey, hlive⟩ ?_
    rw [← hcounted]
    exact countP_takers hlog hasks rfl _
  | room keys hmany hother hheld =>
    refine .room keys hmany hother fun other hin => ?_
    obtain ⟨started, counted, hrecorded, hlive⟩ := hheld other hin
    obtain ⟨old, first, since, call, rfl, htaken, hkey, rfl, -⟩ := visits_of_recorded hrecorded
    exact ⟨first, List.mem_append_right _ (List.mem_cons_self ..), call, htaken, hkey, hlive⟩

end Runs

/-- The key of the pin that a received request asks for. -/
def Task.askedKey (fw : Firewall) (crates : Crates) (task : Task) : Option String :=
  match fw.receive crates task.request task.peer task.env.filterNow with
  | .error _ => none
  | .ok received =>
    (findPinned received.info (task.env.order.list (fw.matchingEngine.findMatchingUrls
      task.env.health received.info received.body))).map fun node =>
        pinKey crates received.info.ip node.name

theorem named_of_askedKeys {fw : Firewall} {crates : Crates} {tasks : List Task} {j : Nat}
    {key : String} (h : (tasks.map (Task.askedKey fw crates))[j]? = some (some key)) :
    ∃ task received node, tasks[j]? = some task ∧
      fw.receive crates task.request task.peer task.env.filterNow = .ok received ∧
      findPinned received.info (task.env.order.list (fw.matchingEngine.findMatchingUrls
        task.env.health received.info received.body)) = some node ∧
      pinKey crates received.info.ip node.name = key := by
  rw [List.getElem?_map, Option.map_eq_some_iff] at h
  obtain ⟨task, htask, hkey⟩ := h
  unfold Task.askedKey at hkey
  split at hkey
  · cases hkey
  · next received hreceived =>
    obtain ⟨node, hnamed, hsame⟩ := Option.map_eq_some_iff.mp hkey
    exact ⟨task, received, node, htask, hreceived, hnamed, hsame⟩

/-- Of two requests that ask for the node the second finds the share of the client used up by the
first. -/
theorem dropped_pin_deserved_second :
    ∃ before visit later pinNow,
      logOf ℚ steeringOne nullDocument (fresh steeringOne 0) twoAsking =
        before ++ (1, visit) :: later ∧
      DroppedFor (.new 1 60) before
        (after ℚ steeringOne nullDocument (fresh steeringOne 0) twoAsking).parties.length 1
        (pinKey nullDocument (.v4 0) "get_one") pinNow := by
  have hkeys : ((after ℚ steeringOne nullDocument (fresh steeringOne 0) twoAsking).parties.map
      (Task.askedKey steeringOne nullDocument))[1]? =
        some (some (pinKey nullDocument (.v4 0) "get_one")) := by decide +kernel
  obtain ⟨task, received, node, htask, hreceived, hnamed, hkey⟩ := named_of_askedKeys hkeys
  have hdropped : ∃ s ∈ System.visitsBy 1 (logOf ℚ steeringOne nullDocument
      (fresh steeringOne 0) twoAsking), asksRouting s = true :=
    -- The first request takes the only pin, so the second one is sent to the routing mode.
    List.any_eq_true.mp (by decide +kernel)
  obtain ⟨before, visit, later, hlog, hgrounds⟩ := dropped_pin_deserved ℚ steeringOne nullDocument
    (fresh steeringOne 0) twoAsking (.new 1 60) rfl rfl 1 task received node htask hreceived
    hnamed hdropped
  rw [hkey] at hgrounds
  exact ⟨before, visit, later, _, hlog, hgrounds⟩

end Firewall

end AntelopeFirewall
