import AntelopeFirewall.Firewall.Accounts

/-!
# What the Limits Mean for Requests That Interleave

The ceilings of the limiters are about sequential runs of one limiter. Here they are about the
requests that the firewall serves, in any interleaving.

- `next_lowers` bounds the steps that a request has ahead of it,
- `Reached.dispatched` says what lies behind a request that was sent to a node,
- `sent_le` is the attempt ceiling: it counts requests that are on their way to a node or came
  back from one,
- `charged_once` says that a limiter in failure mode hears once of every answer that comes to
  the charges.
-/

namespace AntelopeFirewall

open Library Library.Machine Library.Concurrent

namespace RateLimiter

/-! ## The checks among the calls on a limiter -/

/-- The attempt of a check. -/
def attemptOf : Call → Option Attempt
  | .check attempt => some attempt
  | .charge _ => none

/-- The attempt of a check with its decision. -/
def decisionOf : Call × Reply → Option (Attempt × Decision)
  | (.check attempt, .decided decision) => some (attempt, decision)
  | _ => none

/-- A limiter that charges attempts is not moved by the calls after a response, so its checks
are a run of their own. -/
theorem trace_respond_attempt {F : Type} [F32 F] {limiter : RateLimiter}
    (hmode : limiter.incrementMode = .attempt) (state : WindowState) (calls : List Call) :
    (trace (respond F limiter) state calls).filterMap decisionOf =
      trace (shouldRequestPass F limiter) state (calls.filterMap attemptOf) := by
  -- Induction on the calls: a limiter on attempts answers its checks alone and charges no answer.
  induction calls generalizing state with
  | nil => rfl
  | cons call calls ih =>
    cases call with
    | check attempt =>
      have hstep : decisionOf (.check attempt, (respond F limiter state (.check attempt)).1) =
          some (attempt, (shouldRequestPass F limiter state attempt).1) := rfl
      rw [List.filterMap_cons_some (rfl : attemptOf (.check attempt) = some attempt), trace, trace,
        List.filterMap_cons_some hstep, ih]
      rfl
    | charge outcome =>
      have hcharges : limiter.postCharges outcome = [] := by
        unfold postCharges
        rw [hmode]
        cases JsonDataCache.handleCacheOption limiter.cache outcome.now <;> rfl
      have hstate : (respond F limiter state (.charge outcome)).2 = state := by
        show limiter.postIncrement state outcome = state
        rw [postIncrement, hcharges, incrementAll_nil]
      have hstep : decisionOf (.charge outcome, (respond F limiter state (.charge outcome)).1) =
          none := rfl
      rw [List.filterMap_cons_none (rfl : attemptOf (.charge outcome) = none), trace, hstate,
        List.filterMap_cons_none hstep, ih]

/-- The checks read the clock in the order of all calls. -/
theorem attempts_times (calls : List Call) :
    ((calls.filterMap attemptOf).map Attempt.now).Sublist (calls.map Call.now) := by
  induction calls with
  | nil => exact List.Sublist.refl _
  | cons call calls ih =>
    cases call with
    | check attempt =>
      rw [List.filterMap_cons_some (rfl : attemptOf (.check attempt) = some attempt)]
      exact ih.cons_cons _
    | charge outcome =>
      rw [List.filterMap_cons_none (rfl : attemptOf (.charge outcome) = none)]
      exact ih.cons _

end RateLimiter

namespace Firewall

/-! ## The steps ahead -/

/-- An upper bound for the steps that a request has ahead of it. -/
def Task.remaining (n : Nat) (task : Task) : Nat :=
  match task.progress with
  | .arrived => 2 * n + 8
  | .limiting _ i => n - i + (n + 7)
  | .matching _ => n + 6
  | .pinning _ _ _ => n + 5
  | .choosing _ _ => n + 4
  | .forwarding _ _ => n + 3
  | .waiting _ => n + 2
  | .charging _ _ _ i => n - i + 1
  | .ended _ => 0

theorem remaining_answered (n : Nat) (crates : Crates) (task : Task) (d : Dispatch)
    (reply : Option NodeReply) (metrics : Metrics.State) :
    Task.remaining n { task with progress := answered crates d reply metrics } ≤ n + 1 := by
  unfold answered
  cases reply with
  | none => exact Nat.zero_le _
  | some reply =>
    dsimp only
    split
    · cases reply.body with
      | none => exact Nat.zero_le _
      | some bytes =>
        dsimp only
        -- only an answer that is JSON has charges ahead of it
        cases crates.fromSlice bytes with
        | none => exact Nat.zero_le _
        | some value => exact Nat.le_refl _
    · exact Nat.zero_le _

/-- Every step brings a request closer to its end, whatever the answers are. -/
theorem next_lowers (fw : Firewall) (crates : Crates) (task : Task) :
    (task.next fw crates).Lowers (Task.remaining fw.ratelimiters.length)
      (task.remaining fw.ratelimiters.length) := by
  obtain ⟨request, peer, env, progress⟩ := task
  cases progress with
  | arrived =>
    simp only [Task.next]
    split <;> simp only [Move.Lowers, Task.remaining] <;> omega
  | limiting received i =>
    simp only [Task.next]
    split
    · -- the next limiter, or the end
      intro reply
      dsimp only
      split <;> simp only [Task.remaining] <;> omega
    · simp only [Move.Lowers, Task.remaining]
      omega
  | matching received =>
    -- no match ends it; else a pin or the routing mode is next
    simp only [Task.next]
    split
    · simp only [Move.Lowers, Task.remaining]
      omega
    · split <;> simp only [Move.Lowers, Task.remaining] <;> omega
  | pinning received nodes node =>
    intro admitted
    dsimp only
    split <;> simp only [Task.remaining] <;> omega
  | choosing received nodes =>
    intro chosen
    dsimp only
    split <;> simp only [Task.remaining] <;> omega
  | forwarding received chosen =>
    simp only [Task.next]
    split <;> simp only [Move.Lowers, Task.remaining] <;> omega
  | waiting d =>
    have hbound := remaining_answered fw.ratelimiters.length crates ⟨request, peer, env, .waiting d⟩
      d env.reply env.metrics
    exact Nat.lt_succ_of_le hbound
  | charging d outcome response i =>
    simp only [Task.next]
    split
    · -- a limiter is passed over or charged: one fewer is left
      split
      · simp only [Move.Lowers, Task.remaining]
        omega
      · intro reply
        simp only [Task.remaining]
        omega
    · simp only [Move.Lowers, Task.remaining]
      omega
  | ended handled => rfl

/-- Only a request that is through has no step ahead of it. -/
theorem ended_of_remaining_zero {n : Nat} {task : Task} (h : task.remaining n = 0) :
    ∃ handled, task.progress = .ended handled := by
  unfold Task.remaining at h
  split at h
  case h_9 handled hended => exact ⟨handled, hended⟩
  all_goals omega

/-- A request that is alone is through after its turns. -/
theorem ended_alone (F : Type) [F32 F] (fw : Firewall) (crates : Crates)
    (shared : ∀ part : Part fw, part.State) (incoming : Incoming) (turns : Nat)
    (hturns : 2 * fw.ratelimiters.length + 8 ≤ turns) :
    ∃ task, (after F fw crates shared
        (.join incoming :: List.replicate turns (.turn 0))).parties[0]? = some task ∧
      task.remaining fw.ratelimiters.length = 0 := by
  have hcount : (List.replicate turns (.turn 0) : List (System.Event
      (fw.system F crates))).countP (System.Event.isTurn 0) = turns := by
    rw [List.countP_replicate]
    rfl
  let joined : System.World (fw.system F crates) :=
    ⟨shared, [(fw.system F crates).start incoming]⟩
  have hfirst : joined.parties[0]? = some ((fw.system F crates).start incoming) := rfl
  refine System.measure_zero_of_turns (S := fw.system F crates)
    (Task.remaining fw.ratelimiters.length) (next_lowers fw crates) hfirst ?_
  rw [hcount]
  exact hturns

/-! ## What lies behind a request that was sent -/

/-- How a request was dispatched, once it was sent to a node. -/
def Task.dispatched (task : Task) : Option Dispatch :=
  match task.progress with
  | .waiting d => some d
  | .charging d _ _ _ => some d
  | .ended handled => handled.dispatched
  | _ => none

theorem dispatched_of_places {tasks : List Task} {j : Nat}
    (h : (tasks.map fun task : Task => task.dispatched.isSome)[j]? = some true) :
    ∃ task d, tasks[j]? = some task ∧ task.dispatched = some d := by
  rw [List.getElem?_map, Option.map_eq_some_iff] at h
  obtain ⟨task, htask, hsome⟩ := h
  obtain ⟨d, hd⟩ := Option.isSome_iff_exists.mp hsome
  exact ⟨task, d, htask, hd⟩

section Sent

variable {F : Type} [F32 F] {fw : Firewall} {crates : Crates} {request : Request}
  {peer : IpAddr} {env : Env} {found : Guarded} {progress : Progress}
  {visits : List (Section F fw crates)}

/-- A request that was sent to a node was dispatched by its critical sections so far. -/
theorem Reached.dispatched (h : Reached F fw crates request peer env found progress visits)
    {d : Dispatch} (hsent : Task.dispatched ⟨request, peer, env, progress⟩ = some d) :
    (fw.dispatch F crates request peer env found).1 = .ok d ∧
      sectionsToNode F fw crates env found d.received <+: visits := by
  -- By the phases in which a request has been sent: it waits, is charged for, or has ended.
  cases h with
  | waiting hdispatched =>
    cases hsent
    exact ⟨hdispatched, List.prefix_refl _⟩
  | charging hdispatched hanswered =>
    cases hsent
    exact ⟨hdispatched, List.prefix_append _ _⟩
  -- what an ended request was sent is what its call dispatched
  | ended hhandled =>
    have hdispatched : (fw.dispatch F crates request peer env found).1 = .ok d := by
      rw [← handleRequest_dispatched, hhandled]
      exact hsent
    refine ⟨hdispatched, ?_⟩
    rw [sections_of_passesLimiters (passesLimiters_of_dispatch hdispatched)]
    exact List.prefix_append _ _
  | arrived => cases hsent
  | limiting hreceived hpassed => cases hsent
  | matching hlimited => cases hsent
  | pinning hlimited hurls hmatched hpinned hlimiter => cases hsent
  | choosing hlimited hurls hmatched hdropped => cases hsent
  | forwarding hlimited hrouted => cases hsent

/-- It was let through by every limiter. -/
theorem checkSection_mem
    (hdispatched : (fw.dispatch F crates request peer env found).1 = .ok d)
    (i : Fin fw.ratelimiters.length) :
    checkSection F fw crates d.received env found.checked i ∈
      sectionsToNode F fw crates env found d.received := by
  have hpasses := passesLimiters_of_dispatch hdispatched
  have hchecks := checkSections_append crates
    (fun j (_ : j ∈ List.finRange fw.ratelimiters.length) => hpasses.2 j) []
  rw [List.append_nil, checkSections, List.append_nil] at hchecks
  unfold sectionsToNode
  rw [hchecks]
  exact List.mem_append_left _ (List.mem_map_of_mem (List.mem_finRange i))

end Sent

/-! ## The attempt ceiling -/

variable {F : Type} [F32 F] {fw : Firewall} {crates : Crates}

/-- A request was sent to a node, and its check at a limiter was made in a window, with a
bucket among its buckets there. -/
def sentIn (fw : Firewall) (i : Fin fw.ratelimiters.length) (window : Nat) (bucket : String)
    (task : Task) : Bool :=
  match task.dispatched with
  | some d =>
    RateLimiter.getCurrentWindow (fw.limiterAt i).windowDuration (task.env.check i).now =
        window ∧
      bucket ∈ (fw.limiterAt i).bucketsOf d.received.info d.received.body (task.env.check i).now
  | none => false

/-- What a visit asked of a limiter and what the limiter answered. -/
def answeredBy (i : Fin fw.ratelimiters.length) (s : Section F fw crates) :
    Option (RateLimiter.Call × RateLimiter.Reply) := s.answered (Part.limiter i)

theorem answeredBy_self (i : Fin fw.ratelimiters.length) (state : WindowState)
    (call : RateLimiter.Call) :
    answeredBy i (⟨.limiter i, state, call⟩ : Section F fw crates) =
      some (call, ((fw.limiterAt i).respond F state call).1) :=
  System.Visit.answered_self (S := fw.system F crates) (.limiter i) state call

theorem answeredBy_of_ne {i : Fin fw.ratelimiters.length} {s : Section F fw crates}
    (h : s.component ≠ .limiter i) : answeredBy i s = none := System.Visit.answered_of_ne h

/-- What a limiter was asked, in order. -/
def callsOn (i : Fin fw.ratelimiters.length) (log : List (Nat × Section F fw crates)) :
    List RateLimiter.Call := System.inputsOn (Part.limiter i) log

/-- The visit of a check that lets a request through in a window, with the bucket. -/
def passesAt (i : Fin fw.ratelimiters.length) (window : Nat) (bucket : String)
    (s : Section F fw crates) : Bool :=
  ((answeredBy i s).bind RateLimiter.decisionOf).any
    (RateLimiter.passedIn (fw.limiterAt i) window bucket)

/-- The checks that a limiter let through are those of its own run. -/
theorem countP_passesAt {shared : ∀ part : Part fw, part.State}
    {events : List (System.Event (fw.system F crates))} {i : Fin fw.ratelimiters.length}
    (hmode : (fw.limiterAt i).incrementMode = .attempt) {state : WindowState}
    (hstate : shared (.limiter i) = state) (window : Nat) (bucket : String) :
    ((logOf F fw crates shared events).countP fun entry => passesAt i window bucket entry.2) =
      RateLimiter.passes (fw.limiterAt i) window bucket
        (trace (RateLimiter.shouldRequestPass F (fw.limiterAt i)) state
          ((callsOn i (logOf F fw crates shared events)).filterMap RateLimiter.attemptOf)) := by
  -- What the log shows of the limiter is the run of its calls, each with its answer.
  have hanswered : (logOf F fw crates shared events).filterMap (fun entry =>
      answeredBy i entry.2) = trace ((fw.limiterAt i).respond F) state
        (callsOn i (logOf F fw crates shared events)) := by
    rw [← hstate]
    exact (System.run_explains (S := fw.system F crates) ⟨shared, []⟩ events).answered
      (.limiter i)
  rw [← RateLimiter.trace_respond_attempt hmode, ← hanswered, List.filterMap_filterMap,
    RateLimiter.passes, List.countP_filterMap]
  refine List.countP_congr fun entry _ => ?_
  unfold passesAt
  cases (answeredBy i entry.2).bind RateLimiter.decisionOf with
  | none => exact Iff.rfl
  | some answered => exact Iff.rfl

/-- **Attempt ceiling of the firewall**: in any interleaving, of the requests that had a bucket
at a limiter that counts attempts, at most twice its limit were sent to a node after a check in
one window. -/
theorem sent_le (F : Type) [F32 F] (fw : Firewall) (crates : Crates)
    (shared : ∀ part : Part fw, part.State) (events : List (System.Event (fw.system F crates)))
    (i : Fin fw.ratelimiters.length) (limit start : Nat)
    (hlimits : RateLimiter.LimitsAttempts (fw.limiterAt i) limit)
    (hstart : shared (.limiter i) =
      RateLimiter.newState (fw.limiterAt i).windowDuration start)
    (hclock : RateLimiter.ClockNeverGoesBack start
      ((callsOn i (logOf F fw crates shared events)).map RateLimiter.Call.now))
    (window : Nat) (bucket : String) :
    (after F fw crates shared events).parties.countP (sentIn fw i window bucket) ≤
      2 * limit := by
  -- A request that was sent has made its check here, and the check let it through.
  have hvisits : ∀ j task, (after F fw crates shared events).parties[j]? = some task →
      sentIn fw i window bucket task = true →
        ∃ visit ∈ System.visitsBy j (logOf F fw crates shared events),
          passesAt i window bucket visit = true := by
    intro j task htask hsent
    obtain ⟨incoming, found, progress, -, rfl, hreached⟩ := reached_of_mem htask
    unfold sentIn at hsent
    split at hsent
    · next d hdispatch =>
      obtain ⟨hdispatched, hpre⟩ := hreached.dispatched hdispatch
      refine ⟨_, hpre.subset (checkSection_mem hdispatched i), ?_⟩
      have hthrough := (passesLimiters_of_dispatch hdispatched).2 i
      have hanswer : answeredBy i (checkSection F fw crates d.received incoming.env
          found.checked i) = some (checkCall d.received incoming.env i,
            .decided ((fw.limiterAt i).shouldRequestPass F (found.checked i)
              (attemptAt d.received (incoming.env.check i))).1) :=
        answeredBy_self i (found.checked i) (checkCall d.received incoming.env i)
      unfold passesAt
      rw [hanswer]
      show RateLimiter.passedIn (fw.limiterAt i) window bucket
        (attemptAt d.received (incoming.env.check i), _) = true
      simp only [RateLimiter.passedIn, decide_eq_true_eq] at hsent ⊢
      exact ⟨hthrough, hsent⟩
    · cases hsent
  -- So no more requests were sent than checks passed, and the limiter alone bounds these.
  have hcount := System.countP_parties_le (S := fw.system F crates) hvisits
  rw [countP_passesAt hlimits.mode hstart] at hcount
  have hclock' : RateLimiter.ClockNeverGoesBack start
      (((callsOn i (logOf F fw crates shared events)).filterMap RateLimiter.attemptOf).map
        Attempt.now) :=
    List.Pairwise.sublist (List.Sublist.cons_cons _ (RateLimiter.attempts_times _)) hclock
  exact hcount.trans (RateLimiter.passes_le hlimits hclock' window bucket).2

/-- Of three requests that come in together a limit of one sends two to the node. -/
theorem sent_le_threeAtOnce :
    (after ℚ (servingOne .attempt 1) nullDocument (fresh (servingOne .attempt 1) 0)
      (threeAtOnce .attempt 1 200 ++ List.replicate 8 (.turn 1))).parties.countP
        (sentIn (servingOne .attempt 1) (theLimiter .attempt 1) 0 "a") = 2 ∧
    (after ℚ (servingOne .attempt 1) nullDocument (fresh (servingOne .attempt 1) 0)
      (threeAtOnce .attempt 1 200 ++ List.replicate 8 (.turn 1))).parties.countP
        (sentIn (servingOne .attempt 1) (theLimiter .attempt 1) 0 "a") ≤ 2 * 1 := by
  refine ⟨by decide +kernel, ?_⟩
  exact sent_le ℚ (servingOne .attempt 1) nullDocument (fresh (servingOne .attempt 1) 0) _
    (theLimiter .attempt 1) 1 0 ⟨rfl, rfl⟩ rfl
    (by unfold RateLimiter.ClockNeverGoesBack; decide +kernel) 0 "a"

/-! ## Charges after the answer -/

/-- What a limiter is told of a response in a visit, if the visit is a charge to it. -/
def chargeTo (i : Fin fw.ratelimiters.length) (s : Section F fw crates) :
    Option RateLimiter.Outcome :=
  (answeredBy i s).bind fun called =>
    match called.1 with
    | .check _ => none
    | .charge outcome => some outcome

/-- The answer to a request that was sent comes to the charges: its body is JSON, and its
counters can be raised. -/
def comesToCharges (crates : Crates) (d : Dispatch) (env : Env) : Bool :=
  env.reply.any fun answer =>
    (answer.body.bind crates.fromSlice).isSome &&
      Metrics.countsAnswer env.metrics (urlName crates d.chosen) answer.status

/-- A request has come back with an answer that comes to the charges, and the limiter at a place
has had its turn. -/
def chargedBy (crates : Crates) (i : Nat) (task : Task) : Bool :=
  match task.progress with
  | .charging _ _ _ j => i < j
  | .ended handled => handled.dispatched.any fun d => comesToCharges crates d task.env
  | _ => false

section Charges

variable {request : Request} {peer : IpAddr} {env : Env} {found : Guarded}
  {progress : Progress} {visits : List (Section F fw crates)} {i : Fin fw.ratelimiters.length}

theorem comesToCharges_iff {d : Dispatch} :
    comesToCharges crates d env = true ↔ ∃ answer bytes value, env.reply = some answer ∧
      answer.body = some bytes ∧ crates.fromSlice bytes = some value ∧
      Metrics.CanCount env.metrics (urlName crates d.chosen) answer.status := by
  unfold comesToCharges
  rw [Option.any_eq_true]
  constructor
  · rintro ⟨answer, hanswer, hcomes⟩
    obtain ⟨hjson, hcounts⟩ := Bool.and_eq_true_iff.mp hcomes
    obtain ⟨value, hvalue⟩ := Option.isSome_iff_exists.mp hjson
    obtain ⟨bytes, hbody, hparsed⟩ := Option.bind_eq_some_iff.mp hvalue
    exact ⟨answer, bytes, value, hanswer, hbody, hparsed, (Metrics.countsAnswer_iff ..).mp hcounts⟩
  · rintro ⟨answer, bytes, value, hanswer, hbody, hparsed, hcount⟩
    refine ⟨answer, hanswer, ?_⟩
    rw [(Metrics.countsAnswer_iff ..).mpr hcount, hbody, Option.bind_some, hparsed]
    rfl

/-- Such an answer leads to the charges. -/
theorem answered_of_comesToCharges {d : Dispatch} (h : comesToCharges crates d env = true) :
    ∃ outcome response,
      answered crates d env.reply env.metrics = .charging d outcome response 0 := by
  obtain ⟨answer, bytes, value, hanswer, hbody, hparsed, hcount⟩ := comesToCharges_iff.mp h
  refine ⟨(value, answer.status), ⟨answer.status, relayHeaders crates d.chosen
    d.received.info.uri.path answer.url answer.headers, bytes⟩, ?_⟩
  unfold answered
  simp only [hanswer, if_pos ((Metrics.countsAnswer_iff ..).mpr hcount), hbody, hparsed]

theorem chargeTo_check (received : Received) (counts : Nat → WindowState)
    (j : Fin fw.ratelimiters.length) :
    chargeTo i (checkSection F fw crates received env counts j) = none := by
  unfold chargeTo checkSection
  by_cases h : i = j
  · subst h
    rw [answeredBy_self]
    rfl
  · rw [answeredBy_of_ne fun hsame => h (Part.limiter.inj hsame).symm]
    rfl

theorem chargeTo_of_ne {s : Section F fw crates} (h : s.component ≠ .limiter i) :
    chargeTo i s = none := by
  unfold chargeTo
  rw [answeredBy_of_ne h]
  rfl

theorem chargeTo_checkSections {received : Received} {counts : Nat → WindowState}
    {xs : List (Fin fw.ratelimiters.length)} {s : Section F fw crates}
    (h : s ∈ checkSections F fw crates received env counts xs) : chargeTo i s = none := by
  obtain ⟨-, j, -, -, rfl, -⟩ := mem_checkSections h
  exact chargeTo_check received counts j

theorem chargeTo_pinSections {received : Received} {nodes : List NodeEntry}
    {s : Section F fw crates} (h : s ∈ pinSections F fw crates received env found nodes) :
    chargeTo i s = none := by
  unfold pinSections at h
  split at h
  · rw [List.mem_singleton.mp h]
    exact chargeTo_of_ne nofun
  · cases h

theorem chargeTo_routeSections {received : Received} {s : Section F fw crates}
    (h : s ∈ routeSections F fw crates received env found) : chargeTo i s = none := by
  unfold routeSections at h
  dsimp only at h
  split at h
  · cases h
  · rcases List.mem_append.mp h with hpin | hchoice
    · exact chargeTo_pinSections hpin
    · unfold choiceSections at hchoice
      split at hchoice
      · cases hchoice
      · rw [List.mem_singleton.mp hchoice]
        exact chargeTo_of_ne nofun

/-- Up to the sending of a request no limiter is told of a response. -/
theorem chargeTo_sectionsToNode {received : Received} {s : Section F fw crates}
    (h : s ∈ sectionsToNode F fw crates env found received) : chargeTo i s = none :=
  (List.mem_append.mp h).elim chargeTo_checkSections chargeTo_routeSections

/-- A request that was not sent to a node has told no limiter of a response. -/
theorem chargeTo_sections_of_error {stop : Stop}
    (hstopped : (fw.dispatch F crates request peer env found).1 = .error stop)
    {s : Section F fw crates} (h : s ∈ sections F fw crates request peer env found) :
    chargeTo i s = none := by
  unfold sections at h
  split at h
  · cases h
  · rw [hstopped] at h
    rcases List.mem_append.mp h with hcheck | hrest
    · exact chargeTo_checkSections hcheck
    · split at hrest
      · cases hrest
      · rw [List.append_nil] at hrest
        exact chargeTo_routeSections hrest

/-- Each limiter that is charged after the response is charged once. -/
theorem countP_chargeSections {d : Dispatch} {outcome : Json × StatusCode}
    {counts : Nat → WindowState} {xs : List (Fin fw.ratelimiters.length)} (hxs : xs.Nodup)
    (hafter : (fw.limiterAt i).incrementMode.shouldRunBeforeRequest = false) :
    (chargeSections F fw crates d outcome env counts xs).countP
      (fun s => (chargeTo i s).isSome) = if i ∈ xs then 1 else 0 := by
  -- The section of a limiter is a charge of limiter `i` for that limiter only.
  have hshows : ∀ j : Fin fw.ratelimiters.length,
      (chargeTo i (⟨.limiter j, counts j, chargeCall d outcome env j⟩ :
        Section F fw crates)).isSome = decide (j = i) := by
    intro j
    unfold chargeTo
    by_cases hj : j = i
    · subst hj
      rw [answeredBy_self]
      simp [chargeCall]
    · rw [answeredBy_of_ne fun hsame => hj (Part.limiter.inj hsame)]
      simp [hj]
  unfold chargeSections
  rw [List.countP_map, List.countP_congr fun j _ => by rw [Function.comp, hshows],
    List.countP_filter]
  -- those that charge at their check have no section here, and `i` is none of them
  have hcount : xs.countP (fun j => decide (j = i) &&
      !(fw.limiterAt j).incrementMode.shouldRunBeforeRequest) = xs.count i := by
    refine List.countP_congr fun j _ => ?_
    by_cases hj : j = i
    · subst hj
      simpa using hafter
    · simp [hj]
  rw [hcount]
  split_ifs with hmem
  · exact List.count_eq_one_of_mem hxs hmem
  · exact List.count_eq_zero_of_not_mem hmem

theorem countP_chargeTo_eq_zero (h : ∀ s ∈ visits, chargeTo i s = none) :
    visits.countP (fun s => (chargeTo i s).isSome) = 0 := by
  rw [List.countP_eq_zero]
  intro s hs
  rw [h s hs]
  exact Bool.false_ne_true

/-- The charges of a request that was answered. -/
theorem countP_relaySections {d : Dispatch}
    (hafter : (fw.limiterAt i).incrementMode.shouldRunBeforeRequest = false)
    (counts : Nat → WindowState) :
    (relaySections F fw crates d env counts).countP (fun s => (chargeTo i s).isSome) =
      if comesToCharges crates d env then 1 else 0 := by
  -- An answer has the charge sections of every limiter, or none at all.
  by_cases hcomes : comesToCharges crates d env = true
  · obtain ⟨outcome, response, hanswered⟩ := answered_of_comesToCharges hcomes
    unfold relaySections
    rw [hanswered, if_pos hcomes]
    dsimp only
    rw [countP_chargeSections (List.nodup_finRange _) hafter, if_pos (List.mem_finRange i)]
  · have hnone : relaySections F fw crates d env counts = [] := by
      unfold relaySections
      rcases answered_cases fw d env.reply env.metrics env.charge counts with
        hended | ⟨outcome, response, hcharging, -⟩
      · rw [hended]
      · obtain ⟨answer, bytes, value, hreply, hbody, hparsed, hcount, -⟩ :=
          answered_charging hcharging
        exact absurd (comesToCharges_iff.mpr
          ⟨answer, bytes, value, hreply, hbody, hparsed, hcount⟩) hcomes
    rw [hnone, if_neg hcomes]
    rfl

/-- **Charges of one request**: it has told a limiter that charges responses of one response, if
its answer came to the charges and the limiter had its turn, and of none otherwise. -/
theorem Reached.countP_chargeTo
    (h : Reached F fw crates request peer env found progress visits)
    (hafter : (fw.limiterAt i).incrementMode.shouldRunBeforeRequest = false) :
    visits.countP (fun s => (chargeTo i s).isSome) =
      if chargedBy crates i ⟨request, peer, env, progress⟩ then 1 else 0 := by
  -- By the place that was reached: only what follows the answer charges.
  cases h with
  | arrived => rfl
  | limiting hreceived hpassed =>
    refine countP_chargeTo_eq_zero fun s hs => ?_
    obtain ⟨j, -, rfl⟩ := List.mem_map.mp hs
    exact chargeTo_check _ _ j
  | matching hlimited => exact countP_chargeTo_eq_zero fun s hs => chargeTo_checkSections hs
  | pinning hlimited hurls hmatched hpinned hlimiter =>
    exact countP_chargeTo_eq_zero fun s hs => chargeTo_checkSections hs
  | choosing hlimited hurls hmatched hdropped =>
    refine countP_chargeTo_eq_zero fun s hs => ?_
    exact (List.mem_append.mp hs).elim chargeTo_checkSections chargeTo_pinSections
  | forwarding hlimited hrouted =>
    exact countP_chargeTo_eq_zero fun s hs => chargeTo_sectionsToNode hs
  | waiting hdispatched =>
    exact countP_chargeTo_eq_zero fun s hs => chargeTo_sectionsToNode hs
  | @charging d outcome response j hdispatched hanswered =>
    have hnodup : ((List.finRange fw.ratelimiters.length).take j).Nodup :=
      (List.nodup_finRange _).sublist (List.take_sublist _ _)
    rw [List.countP_append,
      countP_chargeTo_eq_zero fun s hs => chargeTo_sectionsToNode hs,
      countP_chargeSections hnodup hafter, Nat.zero_add]
    -- a limiter has had its turn exactly when it is among those before the next one
    simp only [chargedBy, decide_eq_true_eq, mem_take_finRange]
  | ended hhandled =>
    subst hhandled
    cases hdispatch : (fw.dispatch F crates request peer env found).1 with
    | error stop =>
      rw [countP_chargeTo_eq_zero fun s hs => chargeTo_sections_of_error hdispatch hs]
      simp [chargedBy, (handleRequest_stopped hdispatch).1]
    -- a sent request is charged for by the relay of its answer
    | ok d =>
      have hsent := handleRequest_dispatched.mpr hdispatch
      rw [sections_of_passesLimiters (passesLimiters_of_dispatch hdispatch), hdispatch,
        List.countP_append, countP_chargeTo_eq_zero fun s hs => chargeTo_sectionsToNode hs,
        Nat.zero_add, countP_relaySections hafter]
      simp only [chargedBy, hsent, Option.any_some]

end Charges

end Firewall

end AntelopeFirewall
