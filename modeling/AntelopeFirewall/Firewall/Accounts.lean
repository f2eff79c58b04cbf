import AntelopeFirewall.Firewall.FailureCharge
import AntelopeFirewall.Firewall.Refinement

/-!
# A Run Part by Part and Request by Request

Requests that interleave do not take effect one after the other: three that overlap at a limiter
can all pass where one after the other the last would not. What a run does have is an account of
each part, whose critical sections follow each other, and one of each request, which goes through
the code on the states that its own critical sections find.

- `Guarded.at` is what a `Guarded` says about a critical section,
- `sections_found` and `sections_left` say that `handleRequest` reads and writes exactly the
  states of its critical sections,
- `ended_as_handled` puts them together with the run: each request is handled as
  `handleRequest` handles it, on states that the parts went through at different moments.
-/

namespace AntelopeFirewall.Firewall

open Library Library.Machine Library.Concurrent

/-- The state of a part as one critical section has it. -/
def stateAt (fw : Firewall) (guarded : Guarded) : ∀ part : Part fw, part.Input → part.State
  | .limiter i => fun call =>
    match call with
    | .check _ => guarded.checked i
    | .charge _ => guarded.charged i
  | .pins => fun _ => guarded.pins
  | .routing => fun _ => guarded.routing

section Sections

variable {F : Type} [F32 F] {fw : Firewall} {crates : Crates} {request : Request}
  {peer : IpAddr} {env : Env} {found : Guarded} {received : Received}

/-! ## The sections of the limiters -/

/-- A check that was made follows others that let the request through. -/
theorem mem_checkSections {counts : Nat → WindowState} {xs : List (Fin fw.ratelimiters.length)}
    {s : Section F fw crates}
    (h : s ∈ checkSections F fw crates received env counts xs) :
    ∃ (before : List (Fin fw.ratelimiters.length)) (i : Fin fw.ratelimiters.length)
      (after : List (Fin fw.ratelimiters.length)), xs = before ++ i :: after ∧
      s = checkSection F fw crates received env counts i ∧
      ∀ j ∈ before, LetsThrough F received env.check counts j (fw.limiterAt j) := by
  -- Induction on the limiters that are still to be asked.
  induction xs with
  | nil => cases h
  | cons first rest ih =>
    rw [checkSections] at h
    rcases List.mem_cons.mp h with rfl | hlater
    · exact ⟨[], first, rest, rfl, rfl, by simp⟩
    · split at hlater
      · next hthrough =>
        obtain ⟨before, i, after, rfl, hsection, hpassed⟩ := ih hlater
        refine ⟨first :: before, i, after, rfl, hsection, fun j hj => ?_⟩
        rcases List.mem_cons.mp hj with rfl | hj
        · exact hthrough
        · exact hpassed j hj
      -- nobody is asked after a limiter that ends the loop
      · cases hlater

/-- The checks that were made follow each other in the order of the limiters. -/
theorem mem_checkSections_finRange {counts : Nat → WindowState} {s : Section F fw crates}
    (h : s ∈ checkSections F fw crates received env counts
      (List.finRange fw.ratelimiters.length)) :
    ∃ i : Fin fw.ratelimiters.length, s = checkSection F fw crates received env counts i ∧
      ∀ j : Fin fw.ratelimiters.length, j < i →
        LetsThrough F received env.check counts j (fw.limiterAt j) := by
  obtain ⟨before, i, after, hall, hsection, hpassed⟩ := mem_checkSections h
  refine ⟨i, hsection, fun j hj => hpassed j ?_⟩
  have hsorted := List.pairwise_lt_finRange fw.ratelimiters.length
  have hmem := List.mem_finRange j
  rw [hall] at hsorted hmem
  rcases List.mem_append.mp hmem with hbefore | hrest
  · exact hbefore
  · -- what comes after the place is not smaller
    have hlater := (List.pairwise_cons.mp (List.pairwise_append.mp hsorted).2.1).1
    rcases List.mem_cons.mp hrest with rfl | hafter
    · exact absurd hj (lt_irrefl j)
    · exact absurd hj (lt_asymm (hlater j hafter))

/-- Each limiter that is asked writes the state of its own check. -/
theorem checkRatelimiters_left {check : Nat → CheckReadings} {limiters : List RateLimiter}
    {first k : Nat} {counts : Nat → WindowState} {limiter : RateLimiter}
    (hget : limiters[k]? = some limiter)
    (hearlier : ∀ j other, j < k → limiters[j]? = some other →
      LetsThrough F received check counts (first + j) other) :
    (checkRatelimiters F received check first limiters counts).2 (first + k) =
      (limiter.shouldRequestPass F (counts (first + k))
        (attemptAt received (check (first + k)))).2 := by
  -- Induction on the limiters: the counts of one are left alone by the others.
  induction limiters generalizing first k counts with
  | nil => simp at hget
  | cons head rest ih =>
    cases k with
    | zero =>
      cases hget
      simp only [Nat.add_zero, checkRatelimiters, attemptAt]
      -- the loop writes what the check left, whatever the verdict, and goes on to other limiters
      split
      · rw [checkRatelimiters_lt (Nat.lt_add_one first), Function.update_self]
      · exact Function.update_self ..
      · exact Function.update_self ..
    | succ k =>
      have hhead := hearlier 0 head (Nat.succ_pos k) rfl
      rw [Nat.add_zero] at hhead
      have hindex : first + (k + 1) = first + 1 + k := by omega
      have hne : first + 1 + k ≠ first := by omega
      rw [checkRatelimiters_cons rest hhead, hindex, ih hget]
      · rw [Function.update_of_ne hne]
      · intro j other hj hother
        have hlater : first + 1 + j ≠ first := by omega
        rw [letsThrough_update hlater]
        have hpassed := hearlier (j + 1) other (by omega) hother
        rwa [show first + (j + 1) = first + 1 + j by omega] at hpassed

/-- The checked counts that a received request leaves. -/
theorem handleRequest_checked
    (h : fw.receive crates request peer env.filterNow = .ok received) :
    (fw.handleRequest F crates request peer env found).2.checked =
      (checkRatelimiters F received env.check 0 fw.ratelimiters found.checked).2 := by
  have hdispatch : (fw.dispatch F crates request peer env found).2.checked =
      (checkRatelimiters F received env.check 0 fw.ratelimiters found.checked).2 := by
    cases hlimited : (checkRatelimiters F received env.check 0 fw.ratelimiters
        found.checked).1 with
    | error stop => rw [dispatch_limited h hlimited]
    | ok _ =>
      rw [dispatch_routed h hlimited]
      exact (route_left received).1
  cases hended : (fw.dispatch F crates request peer env found).1 with
  | error stop => rw [(handleRequest_stopped hended).2, hdispatch]
  | ok d =>
    rw [handleRequest_of_dispatch hended]
    exact hdispatch

/-- The sections of the checks find and leave the checked counts. -/
theorem checkSections_at
    (hreceived : fw.receive crates request peer env.filterNow = .ok received)
    {s : Section F fw crates}
    (h : s ∈ checkSections F fw crates received env found.checked
      (List.finRange fw.ratelimiters.length)) :
    s.found = stateAt fw found s.component s.input ∧
      s.left = stateAt fw (fw.handleRequest F crates request peer env found).2 s.component
        s.input := by
  obtain ⟨i, rfl, hpassed⟩ := mem_checkSections_finRange h
  refine ⟨rfl, ?_⟩
  -- In the call, the counts of limiter `i` after the checks are those its own check left.
  show ((fw.limiterAt i).shouldRequestPass F (found.checked i)
    (attemptAt received (env.check i))).2 =
      (fw.handleRequest F crates request peer env found).2.checked i
  have hleft : (checkRatelimiters F received env.check 0 fw.ratelimiters
      found.checked).2 (0 + i) = ((fw.limiterAt i).shouldRequestPass F (found.checked (0 + i))
        (attemptAt received (env.check (0 + i)))).2 := by
    refine checkRatelimiters_left (List.getElem?_eq_getElem i.2) fun j other hj hother => ?_
    obtain ⟨hlt, rfl⟩ := List.getElem?_eq_some_iff.mp hother
    rw [Nat.zero_add]
    exact hpassed ⟨j, hlt⟩ hj
  rw [Nat.zero_add] at hleft
  rw [handleRequest_checked hreceived, hleft]

/-! ## The sections of the routing and of the charges -/

theorem handleRequest_routing_left :
    (fw.handleRequest F crates request peer env found).2.routing =
      (fw.dispatch F crates request peer env found).2.routing := by
  cases hdispatch : (fw.dispatch F crates request peer env found).1 with
  | error stop => rw [(handleRequest_stopped hdispatch).2]
  | ok d => rw [handleRequest_of_dispatch hdispatch]

/-- The sections of the routing find and leave the pin counters and the routing state. -/
theorem routeSections_at
    (hlimited : PassesLimiters F fw crates request peer env found received)
    {s : Section F fw crates}
    (h : s ∈ routeSections F fw crates received env found) :
    s.found = stateAt fw found s.component s.input ∧
      s.left = stateAt fw (fw.handleRequest F crates request peer env found).2 s.component
        s.input := by
  unfold routeSections at h
  dsimp only at h
  generalize hurls : fw.matchingEngine.findMatchingUrls env.health received.info
    received.body = urls at h
  split at h
  · cases h
  · next hmatched =>
    have hne : urls.Nonempty := Finset.card_pos.mp (Nat.pos_of_ne_zero hmatched)
    have hpins : (fw.handleRequest F crates request peer env found).2.pins =
        (fw.limitPin crates received.info.ip env.pinNow
          (findPinned received.info (env.order.list urls)) found.pins).2 := by
      rw [handleRequest_pins, dispatch_pins hlimited.1 hlimited.ok, route_pins]
      dsimp only
      rw [hurls, if_neg hmatched]
    rcases List.mem_append.mp h with hpin | hchoice
    · unfold pinSections at hpin
      split at hpin
      · next node limiter hpinned hlimiter =>
        obtain rfl := List.mem_singleton.mp hpin
        refine ⟨rfl, ?_⟩
        show (Part.serve F crates (.pins : Part fw) found.pins
          (pinCall crates received env node)).2 = _
        have hleft := hpins
        rw [hpinned] at hleft
        simp only [limitPin, hlimiter] at hleft
        simp only [Part.serve, hlimiter]
        exact hleft.symm
      · cases hpin
    · unfold choiceSections at hchoice
      split at hchoice
      · cases hchoice
      · next hdropped =>
        obtain rfl := List.mem_singleton.mp hchoice
        refine ⟨rfl, ?_⟩
        -- the routing mode is asked when there is no pin that counts
        have hleft : (fw.handleRequest F crates request peer env found).2.routing =
            (RoutingModeState.choose F crates found.routing received.info.uri.path
              (env.order.list urls) env.draw).2 := by
          rw [handleRequest_routing_left, dispatch_routed hlimited.1 hlimited.ok]
          dsimp only
          have hrouted : fw.route F crates received env { found with
              checked := (checkRatelimiters F received env.check 0 fw.ratelimiters
                found.checked).2 } = _ := route_unhonored hurls hne hdropped
          rw [hrouted]
        exact hleft.symm

/-- The charges that the answer of the node leads to are those that the relaying makes. -/
theorem relay_left_of_charging {d d' : Dispatch} {reply : Option NodeReply}
    {metrics : Metrics.State} {outcome : Json × StatusCode} {response : Response} {i : Nat}
    (h : answered crates d reply metrics = .charging d' outcome response i)
    (charge : Nat → ChargeReadings) (counts : Nat → WindowState) :
    (fw.relay crates d reply metrics charge counts).2 =
      postIncrements d.received outcome charge 0 fw.ratelimiters counts := by
  obtain ⟨answer, bytes, value, rfl, hbody, hparsed, hcount, rfl⟩ := answered_charging h
  exact relay_left_of_parsed hbody hparsed hcount

/-- The sections of the charges find and leave the charged counts. -/
theorem relaySections_at {d : Dispatch}
    (hdispatched : (fw.dispatch F crates request peer env found).1 = .ok d)
    {s : Section F fw crates}
    (h : s ∈ relaySections F fw crates d env found.charged) :
    s.found = stateAt fw found s.component s.input ∧
      s.left = stateAt fw (fw.handleRequest F crates request peer env found).2 s.component
        s.input := by
  unfold relaySections at h
  split at h
  · next outcome response i hanswered =>
    obtain ⟨j, hj, rfl⟩ := List.mem_map.mp h
    have hafter := (List.mem_filter.mp hj).2
    rw [Bool.not_eq_true'] at hafter
    refine ⟨rfl, ?_⟩
    show (fw.limiterAt j).postIncrement (found.charged j)
      ⟨d.received.info, d.received.body, outcome, (env.charge j).order, (env.charge j).now⟩ =
        (fw.handleRequest F crates request peer env found).2.charged j
    -- the charges of the call are the loop over its limiters, from the counts that it found
    have hcharged : (fw.handleRequest F crates request peer env found).2.charged =
        postIncrements d.received outcome env.charge 0 fw.ratelimiters found.charged := by
      rw [handleRequest_of_dispatch hdispatched, (dispatch_left hdispatched).2]
      exact relay_left_of_charging hanswered env.charge found.charged
    have hget : postIncrements d.received outcome env.charge 0 fw.ratelimiters found.charged
        (0 + j) = (fw.limiterAt j).postIncrement (found.charged (0 + j))
          ⟨d.received.info, d.received.body, outcome, (env.charge (0 + j)).order,
            (env.charge (0 + j)).now⟩ :=
      postIncrements_get found.charged (List.getElem?_eq_getElem j.2) hafter
    rw [Nat.zero_add] at hget
    rw [hcharged, hget]
  · cases h

/-- **Sections**: `handleRequest` reads and writes the states of its critical sections. -/
theorem sections_at {s : Section F fw crates}
    (h : s ∈ sections F fw crates request peer env found) :
    s.found = stateAt fw found s.component s.input ∧
      s.left = stateAt fw (fw.handleRequest F crates request peer env found).2 s.component
        s.input := by
  -- By the part of the call that the section is in: checks, routing or charges.
  unfold sections at h
  split at h
  · cases h
  · next received hreceived =>
    rcases List.mem_append.mp h with hcheck | hrest
    · exact checkSections_at hreceived hcheck
    · split at hrest
      · cases hrest
      · next hlimited =>
        -- what follows the checks is there only if all of them let the request through
        have hpasses : PassesLimiters F fw crates request peer env found received := by
          refine ⟨hreceived, fun i => ?_⟩
          have hthrough := checkRatelimiters_ok_iff.mp hlimited i (fw.limiterAt i)
            (List.getElem?_eq_getElem i.2)
          rwa [Nat.zero_add] at hthrough
        rcases List.mem_append.mp hrest with hroute | hrelay
        · exact routeSections_at hpasses hroute
        · split at hrelay
          · cases hrelay
          · next d hdispatched => exact relaySections_at hdispatched hrelay

end Sections

/-! ## Runs -/

section Runs

variable (F : Type) [F32 F] (fw : Firewall) (crates : Crates)

/-- The parts of a firewall that has not served a request, with limiters built at `start`. -/
def fresh (start : Nat) : ∀ part : Part fw, part.State
  | .limiter i => RateLimiter.newState (fw.limiterAt i).windowDuration start
  | .pins => (∅ : PinState)
  | .routing => fw.routingMode

/-- The system after some events, started with nobody in it. -/
def after (shared : ∀ part : Part fw, part.State)
    (events : List (System.Event (fw.system F crates))) : System.World (fw.system F crates) :=
  final System.step ⟨shared, []⟩ events

/-- The critical sections of some events, each with the place of its request. -/
def logOf (shared : ∀ part : Part fw, part.State)
    (events : List (System.Event (fw.system F crates))) : List (Nat × Section F fw crates) :=
  System.log ⟨shared, []⟩ events

end Runs

section Run

variable {F : Type} [F32 F] {fw : Firewall} {crates : Crates}
  {shared : ∀ part : Part fw, part.State} {events : List (System.Event (fw.system F crates))}

/-- **Run**: at every moment of an interleaving each request is somewhere on its own way through
the firewall. -/
theorem reached_of_mem {i : Nat} {task : Task}
    (h : (after F fw crates shared events).parties[i]? = some task) :
    ∃ incoming found progress, (System.arrivals events)[i]? = some incoming ∧
      task = ⟨incoming.request, incoming.peer, incoming.env, progress⟩ ∧
      Reached F fw crates incoming.request incoming.peer incoming.env found progress
        (System.visitsBy i (logOf F fw crates shared events)) := by
  obtain ⟨incoming, hincoming, hfollows⟩ :=
    (System.run_programs (S := fw.system F crates) shared events).follows i task h
  -- What is kept along the program: the request is where some call has come to by its visits.
  let P : Task → List (Section F fw crates) → Prop := fun task visits =>
    ∃ found progress, task = ⟨incoming.request, incoming.peer, incoming.env, progress⟩ ∧
      Reached F fw crates incoming.request incoming.peer incoming.env found progress visits
  have hstart : P ((fw.system F crates).start incoming) [] :=
    ⟨⟨fun i => ⟨0, ∅, ∅⟩, ∅, fw.routingMode, fun i => ⟨0, ∅, ∅⟩⟩, .arrived, rfl, .arrived⟩
  -- Its own steps and its visits go on along the call, the visits with the state they found.
  have hreached : P task ([] ++ System.visitsBy i (logOf F fw crates shared events)) := by
    refine hfollows.invariant P ?_ ?_ hstart
    · rintro party after visits hnext ⟨found, progress, rfl, hreached⟩
      obtain ⟨later, hlater, hthen⟩ := hreached.own hnext
      exact ⟨found, later, hlater, hthen⟩
    · rintro party part input resume visits hnext ⟨found, progress, rfl, hreached⟩ state
      obtain ⟨now, later, hlater, hthen⟩ := hreached.ask hnext state
      exact ⟨now, later, hlater, hthen⟩
  obtain ⟨found, progress, htask, hthen⟩ := hreached
  exact ⟨incoming, found, progress, hincoming, htask, hthen⟩

/-- **Accounts**: in any interleaving a request that is through was handled as `handleRequest`
handles it, on the states that its own critical sections found; each of these is where a sequential
run of its own part had come to by then. -/
theorem ended_as_handled (F : Type) [F32 F] (fw : Firewall) (crates : Crates)
    (shared : ∀ part : Part fw, part.State)
    (events : List (System.Event (fw.system F crates))) (i : Nat) (task : Task)
    (handled : Handled) (hmem : (after F fw crates shared events).parties[i]? = some task)
    (hended : task.progress = .ended handled) :
    ∃ incoming found, (System.arrivals events)[i]? = some incoming ∧
      (fw.handleRequest F crates incoming.request incoming.peer incoming.env found).1 =
        handled ∧
      System.visitsBy i (logOf F fw crates shared events) =
        sections F fw crates incoming.request incoming.peer incoming.env found ∧
      ∀ (earlier : List (Nat × Section F fw crates)) (s : Section F fw crates)
        (later : List (Nat × Section F fw crates)),
        logOf F fw crates shared events = earlier ++ (i, s) :: later →
        s.found = stateAt fw found s.component s.input ∧
        s.left = stateAt fw (fw.handleRequest F crates incoming.request incoming.peer
          incoming.env found).2 s.component s.input ∧
        s.found = final (s.component.serve F crates) (shared s.component)
          (System.inputsOn s.component earlier) := by
  obtain ⟨incoming, found, progress, hincoming, rfl, hreached⟩ := reached_of_mem hmem
  dsimp only at hended
  subst hended
  generalize hvisits : System.visitsBy i (logOf F fw crates shared events) = visits at hreached
  cases hreached with
  -- an ended request is at the end of its call
  | ended hhandled =>
    refine ⟨incoming, found, hincoming, hhandled, rfl, fun earlier s later hlog => ?_⟩
    have hmember : s ∈ System.visitsBy i (logOf F fw crates shared events) := by
      rw [System.mem_visitsBy, hlog]
      exact List.mem_append_right _ (List.mem_cons_self ..)
    rw [hvisits] at hmember
    obtain ⟨hfound, hleft⟩ := sections_at hmember
    have hexplains := System.run_explains (S := fw.system F crates) ⟨shared, []⟩ events
    -- the lock's own run comes from the log of the interleaving
    exact ⟨hfound, hleft, hexplains.found earlier (i, s) later hlog⟩

end Run

/-! ## Three requests at once -/

/-- The status that a request was answered with, if it is through. -/
def Task.status (task : Task) : Option StatusCode :=
  match task.progress with
  | .ended handled => handled.response.map Response.status
  | _ => none

theorem ended_of_statuses {tasks : List Task} {i : Nat} {status : StatusCode}
    (h : (tasks.map Task.status)[i]? = some (some status)) :
    ∃ task handled, tasks[i]? = some task ∧ task.progress = .ended handled ∧
      handled.response.map Response.status = some status := by
  rw [List.getElem?_map, Option.map_eq_some_iff] at h
  obtain ⟨task, htask, hstatus⟩ := h
  unfold Task.status at hstatus
  split at hstatus
  · next handled hended => exact ⟨task, handled, htask, hended, hstatus⟩
  · cases hstatus

/-- A firewall with one limiter and one node. -/
def servingOne (mode : IncrementMode) (limit : Nat) : Firewall where
  filters := []
  ratelimiters := [RateLimiter.oneBucket mode limit]
  matchingEngine := ⟨[fun _ _ _ _ _ => {getOne}]⟩
  routingMode := .baseRoundRobin
  maxRequestBodySize := 2 ^ 16
  clientIpHeader := none
  pinLimiter := none

def theLimiter (mode : IncrementMode) (limit : Nat) :
    Fin (servingOne mode limit).ratelimiters.length := ⟨0, Nat.one_pos⟩

def nullDocument : Crates := .small [("null", .null)]

/-- A request that the node answers with a status and the document. -/
noncomputable def answeredWith (status : StatusCode) : Incoming where
  request := infoRequest none
  peer := .v4 0
  env := { quietEnv with
    order := (IterOrder.arbitrary NodeEntry).listing [getOne] (by decide)
    reply := some ⟨status, Crates.loopback 5001, .empty, some (Text.utf8 "null")⟩ }

/-- Three requests come in together and take their checks out of order; the first is then
served to its end. -/
noncomputable def threeAtOnce (mode : IncrementMode) (limit : Nat) (status : StatusCode) :
    List (System.Event ((servingOne mode limit).system ℚ nullDocument)) :=
  [.join (answeredWith status), .join (answeredWith status), .join (answeredWith status),
    .turn 0, .turn 1, .turn 2, .turn 1, .turn 0, .turn 2] ++ List.replicate 8 (.turn 0)

noncomputable def afterThree (mode : IncrementMode) (limit : Nat) (status : StatusCode) :
    System.World ((servingOne mode limit).system ℚ nullDocument) :=
  after ℚ (servingOne mode limit) nullDocument (fresh (servingOne mode limit) 0)
    (threeAtOnce mode limit status)

theorem threeAtOnce_statuses :
    (afterThree .attempt 1 200).parties.map Task.status = [some 200, none, some 429] := by
  decide +kernel

/-- The first of them was sent to the node, the third was turned away: each as `handleRequest`
does it with the counts that the others had left. -/
theorem ended_as_handled_threeAtOnce :
    (∃ handled incoming found, handled.response.map Response.status = some 200 ∧
      (System.arrivals (threeAtOnce .attempt 1 200))[0]? = some incoming ∧
      ((servingOne .attempt 1).handleRequest ℚ nullDocument incoming.request incoming.peer
        incoming.env found).1 = handled) ∧
    ∃ handled incoming found, handled.response.map Response.status = some 429 ∧
      (System.arrivals (threeAtOnce .attempt 1 200))[2]? = some incoming ∧
      ((servingOne .attempt 1).handleRequest ℚ nullDocument incoming.request incoming.peer
        incoming.env found).1 = handled := by
  have hfirst : ((afterThree .attempt 1 200).parties.map Task.status)[0]? = some (some 200) := by
    rw [threeAtOnce_statuses]
    rfl
  have hthird : ((afterThree .attempt 1 200).parties.map Task.status)[2]? = some (some 429) := by
    rw [threeAtOnce_statuses]
    rfl
  constructor
  · obtain ⟨task, handled, htask, hended, hresponse⟩ :=
      ended_of_statuses hfirst
    obtain ⟨incoming, found, hincoming, hhandled, -⟩ :=
      ended_as_handled ℚ (servingOne .attempt 1) nullDocument (fresh (servingOne .attempt 1) 0)
        (threeAtOnce .attempt 1 200) 0 task handled htask hended
    exact ⟨handled, incoming, found, hresponse, hincoming, hhandled⟩
  · obtain ⟨task, handled, htask, hended, hresponse⟩ :=
      ended_of_statuses hthird
    obtain ⟨incoming, found, hincoming, hhandled, -⟩ :=
      ended_as_handled ℚ (servingOne .attempt 1) nullDocument (fresh (servingOne .attempt 1) 0)
        (threeAtOnce .attempt 1 200) 2 task handled htask hended
    exact ⟨handled, incoming, found, hresponse, hincoming, hhandled⟩

end AntelopeFirewall.Firewall
