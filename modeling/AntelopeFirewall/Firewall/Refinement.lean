import AntelopeFirewall.Firewall.Interleaving

/-!
# Interleaved Requests Are Handled as One Request Is

`handleRequest` takes a request through the firewall in one go, with a `Guarded` that says
what each of its critical sections finds. In a run of the system the sections of a request lie
apart, and those of others in between.

- `Reached` says how far a request is after some critical sections, and what of its handling
  is settled by then,
- `Reached.own` and `Reached.ask` are the steps of a task, with one lemma for each phase,
- `reached_of_mem` is the run, `ended_as_handled` the result for a request that is through.
-/

namespace AntelopeFirewall.Firewall

open Library Library.Machine Library.Concurrent

/-! ## The limiters of a request -/

section Limiters

variable {F : Type} [F32 F] {fw : Firewall} {crates : Crates} {received : Received} {env : Env}

/-- The checks go on after limiters that let the request through. -/
theorem checkSections_append (crates : Crates) {found : Nat → WindowState}
    {xs : List (Fin fw.ratelimiters.length)}
    (hpassed : ∀ i ∈ xs, LetsThrough F received env.check found i (fw.limiterAt i))
    (ys : List (Fin fw.ratelimiters.length)) :
    checkSections F fw crates received env found (xs ++ ys) =
      xs.map (checkSection F fw crates received env found) ++
        checkSections F fw crates received env found ys := by
  induction xs with
  | nil => rfl
  | cons i rest ih =>
    rw [List.cons_append, checkSections, if_pos (hpassed i (List.mem_cons_self ..)),
      ih fun j hj => hpassed j (List.mem_cons_of_mem _ hj)]
    rfl

/-- The state that another limiter was found in makes no difference to the checks of these. -/
theorem map_checkSection_update {found : Nat → WindowState}
    {xs : List (Fin fw.ratelimiters.length)} {i : Nat} (h : ∀ j ∈ xs, (j : Nat) ≠ i)
    (state : WindowState) :
    xs.map (checkSection F fw crates received env (Function.update found i state)) =
      xs.map (checkSection F fw crates received env found) := by
  refine List.map_congr_left fun j hj => ?_
  unfold checkSection
  rw [Function.update_of_ne (h j hj)]

theorem letsThrough_map_update {found : Nat → WindowState}
    {xs : List (Fin fw.ratelimiters.length)} {i : Nat} (h : ∀ j ∈ xs, (j : Nat) ≠ i)
    (state : WindowState)
    (hpassed : ∀ j ∈ xs, LetsThrough F received env.check found j (fw.limiterAt j)) :
    ∀ j ∈ xs, LetsThrough F received env.check (Function.update found i state) j
      (fw.limiterAt j) := by
  intro j hj
  rw [letsThrough_update (h j hj)]
  exact hpassed j hj

/-- What the verdict of a check makes of a request that it does not let through. -/
def stopOf (limiter : RateLimiter) : Option Bool → Stop
  | some _ => .answer (getRatelimitResponse limiter.windowDuration)
  | none => .panic

/-- The first limiter that does not let a request through stops it. -/
theorem checkRatelimiters_error {check : Nat → CheckReadings} {limiters : List RateLimiter}
    {first k : Nat} {found : Nat → WindowState} {limiter : RateLimiter}
    (hget : limiters[k]? = some limiter)
    (hearlier : ∀ j other, j < k → limiters[j]? = some other →
      LetsThrough F received check found (first + j) other)
    (hstopped : ¬ LetsThrough F received check found (first + k) limiter) :
    (checkRatelimiters F received check first limiters found).1 =
      .error (stopOf limiter (limiter.shouldRequestPass F (found (first + k))
        (attemptAt received (check (first + k)))).1.verdict) := by
  -- Induction on the limiters, by the place of the one that stops the loop.
  induction limiters generalizing first k found with
  | nil => simp at hget
  | cons head rest ih =>
    cases k with
    -- the first one stops it
    | zero =>
      cases hget
      simp only [Nat.add_zero] at hstopped ⊢
      unfold LetsThrough at hstopped
      simp only [checkRatelimiters]
      unfold attemptAt at hstopped ⊢
      split
      · next hverdict => exact absurd hverdict hstopped
      · next hverdict => rw [hverdict]; rfl
      · next hverdict => rw [hverdict]; rfl
    -- the first one lets the request through, and the others find its counts unchanged
    | succ k =>
      have hhead := hearlier 0 head (Nat.succ_pos k) rfl
      rw [Nat.add_zero] at hhead
      have hindex : first + (k + 1) = first + 1 + k := by omega
      have hne : first + 1 + k ≠ first := by omega
      rw [checkRatelimiters_cons rest hhead, hindex]
      rw [hindex] at hstopped
      rw [ih hget]
      · rw [Function.update_of_ne hne]
      · intro j other hj hother
        have hlater : first + 1 + j ≠ first := by omega
        rw [letsThrough_update hlater]
        have hpassed := hearlier (j + 1) other (by omega) hother
        rwa [show first + (j + 1) = first + 1 + j by omega] at hpassed
      · rwa [letsThrough_update hne]

/-- The limiters that come before the one at a place. -/
theorem mem_take_finRange {n i : Nat} {j : Fin n} : j ∈ (List.finRange n).take i ↔ j.1 < i := by
  rw [List.mem_take_iff_getElem]
  constructor
  · rintro ⟨k, hk, rfl⟩
    simp at hk ⊢
    exact hk.1
  · intro hj
    exact ⟨j, by simp [hj], by simp⟩

theorem take_finRange_succ {n i : Nat} (h : i < n) :
    (List.finRange n).take (i + 1) = (List.finRange n).take i ++ [⟨i, h⟩] := by
  rw [List.take_succ_eq_append_getElem (by simpa using h)]
  simp

theorem take_append_finRange {n i : Nat} (h : i < n) :
    (List.finRange n).take i ++ ⟨i, h⟩ :: (List.finRange n).drop (i + 1) = List.finRange n := by
  have hdrop : (List.finRange n).drop i = ⟨i, h⟩ :: (List.finRange n).drop (i + 1) := by
    rw [List.drop_eq_getElem_cons (by simpa using h)]
    simp
  rw [← hdrop, List.take_append_drop]

end Limiters

/-! ## How far a request is -/

section Requests

variable (F : Type) [F32 F] (fw : Firewall) (crates : Crates) (request : Request)
  (peer : IpAddr) (env : Env) (found : Guarded)

/-- The request was received and every limiter lets it through. -/
def PassesLimiters (received : Received) : Prop :=
  fw.receive crates request peer env.filterNow = .ok received ∧
    ∀ i : Fin fw.ratelimiters.length,
      LetsThrough F received env.check found.checked i (fw.limiterAt i)

/-- The critical sections up to the sending of a request. -/
def sectionsToNode (received : Received) : List (Section F fw crates) :=
  checkSections F fw crates received env found.checked (List.finRange fw.ratelimiters.length) ++
    routeSections F fw crates received env found

/-- How far a request can be after some critical sections, given what they found. -/
inductive Reached : Progress → List (Section F fw crates) → Prop where
  | arrived : Reached .arrived []
  | limiting {received : Received} {i : Nat}
      (hreceived : fw.receive crates request peer env.filterNow = .ok received)
      (hpassed : ∀ j ∈ (List.finRange fw.ratelimiters.length).take i,
        LetsThrough F received env.check found.checked j (fw.limiterAt j)) :
      Reached (.limiting received i)
        (((List.finRange fw.ratelimiters.length).take i).map
          (checkSection F fw crates received env found.checked))
  | matching {received : Received}
      (hlimited : PassesLimiters F fw crates request peer env found received) :
      Reached (.matching received)
        (checkSections F fw crates received env found.checked
          (List.finRange fw.ratelimiters.length))
  | pinning {received : Received} {urls : Finset NodeEntry} {node : NodeEntry}
      {limiter : PinLimiter}
      (hlimited : PassesLimiters F fw crates request peer env found received)
      (hurls : fw.matchingEngine.findMatchingUrls env.health received.info received.body = urls)
      (hmatched : urls.Nonempty)
      (hpinned : findPinned received.info (env.order.list urls) = some node)
      (hlimiter : fw.pinLimiter = some limiter) :
      Reached (.pinning received (env.order.list urls) node)
        (checkSections F fw crates received env found.checked
          (List.finRange fw.ratelimiters.length))
  | choosing {received : Received} {urls : Finset NodeEntry}
      (hlimited : PassesLimiters F fw crates request peer env found received)
      (hurls : fw.matchingEngine.findMatchingUrls env.health received.info received.body = urls)
      (hmatched : urls.Nonempty)
      (hdropped : (fw.limitPin crates received.info.ip env.pinNow
        (findPinned received.info (env.order.list urls)) found.pins).1 = none) :
      Reached (.choosing received (env.order.list urls))
        (checkSections F fw crates received env found.checked
            (List.finRange fw.ratelimiters.length) ++
          pinSections F fw crates received env found (env.order.list urls))
  | forwarding {received : Received} {chosen : Option NodeEntry}
      (hlimited : PassesLimiters F fw crates request peer env found received)
      (hrouted : (fw.route F crates received env found).1 = .ok chosen) :
      Reached (.forwarding received chosen)
        (sectionsToNode F fw crates env found received)
  | waiting {d : Dispatch}
      (hdispatched : (fw.dispatch F crates request peer env found).1 = .ok d) :
      Reached (.waiting d) (sectionsToNode F fw crates env found d.received)
  | charging {d : Dispatch} {outcome : Json × StatusCode} {response : Response} {i : Nat}
      (hdispatched : (fw.dispatch F crates request peer env found).1 = .ok d)
      (hanswered : answered crates d env.reply env.metrics = .charging d outcome response 0) :
      Reached (.charging d outcome response i)
        (sectionsToNode F fw crates env found d.received ++
          chargeSections F fw crates d outcome env found.charged
            ((List.finRange fw.ratelimiters.length).take i))
  | ended {handled : Handled}
      (hhandled : (fw.handleRequest F crates request peer env found).1 = handled) :
      Reached (.ended handled) (sections F fw crates request peer env found)

end Requests

/-! ## The steps of a request -/

section Steps

variable {F : Type} [F32 F] {fw : Firewall} {crates : Crates} {request : Request}
  {peer : IpAddr} {env : Env} {found : Guarded} {received : Received}

theorem PassesLimiters.ok
    (h : PassesLimiters F fw crates request peer env found received) :
    (checkRatelimiters F received env.check 0 fw.ratelimiters found.checked).1 = .ok () := by
  rw [checkRatelimiters_ok_iff]
  intro i limiter hget
  obtain ⟨hi, rfl⟩ := List.getElem?_eq_some_iff.mp hget
  have hpassed := h.2 ⟨i, hi⟩
  rwa [Nat.zero_add]

/-- Routing reads the pin counters and the routing state only. -/
theorem route_counts (checked charged : Nat → WindowState) :
    (fw.route F crates received env { found with checked := checked, charged := charged }).1 =
      (fw.route F crates received env found).1 := by
  unfold route
  dsimp only
  split
  · rfl
  · split
    · rfl
    · split
      · rfl
      · rfl

/-- A request that is received ends if it is stopped by a limiter, by the routing or by the
forwarding. -/
theorem handled_of_dispatch_error {stop : Stop}
    (h : (fw.dispatch F crates request peer env found).1 = .error stop) :
    (fw.handleRequest F crates request peer env found).1 = stopped stop := by
  unfold handleRequest
  dsimp only
  rw [h]
  cases stop with
  | answer response => rfl
  | panic => rfl

/-- A request that is not received has no critical section. -/
theorem ended_unreceived {stop : Stop}
    (h : fw.receive crates request peer env.filterNow = .error stop) :
    Reached F fw crates request peer env found (.ended (stopped stop)) [] := by
  have hhandled : (fw.handleRequest F crates request peer env found).1 = stopped stop :=
    handled_of_dispatch_error (congrArg Prod.fst (dispatch_unreceived h))
  have hsections : sections F fw crates request peer env found = [] := by
    unfold sections
    rw [h]
  rw [← hsections]
  exact .ended hhandled

/-- A request that a limiter stops has no critical section after that check. -/
theorem ended_limited (hreceived : fw.receive crates request peer env.filterNow = .ok received)
    {i : Fin fw.ratelimiters.length}
    (hpassed : ∀ j ∈ (List.finRange fw.ratelimiters.length).take i,
      LetsThrough F received env.check found.checked j (fw.limiterAt j))
    (hstopped : ¬ LetsThrough F received env.check found.checked i (fw.limiterAt i)) :
    Reached F fw crates request peer env found
      (.ended (stopped (stopOf (fw.limiterAt i) ((fw.limiterAt i).shouldRequestPass F
        (found.checked i) (attemptAt received (env.check i))).1.verdict)))
      (((List.finRange fw.ratelimiters.length).take i).map
          (checkSection F fw crates received env found.checked) ++
        [checkSection F fw crates received env found.checked i]) := by
  have hget : fw.ratelimiters[i.1]? = some (fw.limiterAt i) :=
    List.getElem?_eq_getElem i.2
  -- In the call, the loop ends at the same limiter and with the same answer.
  have hresult : (checkRatelimiters F received env.check 0 fw.ratelimiters found.checked).1 =
      .error (stopOf (fw.limiterAt i) ((fw.limiterAt i).shouldRequestPass F
        (found.checked (0 + i)) (attemptAt received (env.check (0 + i)))).1.verdict) := by
    refine checkRatelimiters_error hget (fun j other hj hother => ?_) (by rwa [Nat.zero_add])
    obtain ⟨hlt, rfl⟩ := List.getElem?_eq_some_iff.mp hother
    rw [Nat.zero_add]
    exact hpassed ⟨j, hlt⟩ (mem_take_finRange.mpr hj)
  rw [Nat.zero_add] at hresult
  have hdispatch := congrArg Prod.fst (dispatch_limited hreceived hresult)
  have hhandled : (fw.handleRequest F crates request peer env found).1 = _ :=
    handled_of_dispatch_error hdispatch
  -- The call has the sections of the limiters before it and of this one, and no more.
  have hsections : sections F fw crates request peer env found =
      ((List.finRange fw.ratelimiters.length).take i).map
          (checkSection F fw crates received env found.checked) ++
        [checkSection F fw crates received env found.checked i] := by
    unfold sections
    rw [hreceived]
    dsimp only
    rw [hresult]
    dsimp only
    have hchecks := checkSections_append crates hpassed
      (i :: (List.finRange fw.ratelimiters.length).drop (i + 1))
    rw [take_append_finRange i.2, checkSections, if_neg hstopped] at hchecks
    rw [List.append_nil, hchecks]
  rw [← hsections]
  exact .ended hhandled

/-- The critical sections of a request that passes the limiters. -/
theorem sections_of_passesLimiters
    (h : PassesLimiters F fw crates request peer env found received) :
    sections F fw crates request peer env found =
      sectionsToNode F fw crates env found received ++
        match (fw.dispatch F crates request peer env found).1 with
        | .error _ => []
        | .ok d => relaySections F fw crates d env found.charged := by
  unfold sections sectionsToNode
  rw [h.1]
  dsimp only
  rw [h.ok]
  dsimp only
  exact (List.append_assoc ..).symm

theorem dispatch_of_passesLimiters
    (h : PassesLimiters F fw crates request peer env found received) :
    (fw.dispatch F crates request peer env found).1 =
      (fw.route F crates received env found).1.bind fun chosen =>
        (forward crates chosen received).map fun sent => ⟨received, chosen, sent⟩ := by
  rw [dispatch_routed h.1 h.ok, ← route_counts _ found.charged]

/-- A request that is stopped behind the limiters has no critical section after its routing. -/
theorem ended_unsent {stop : Stop}
    (hlimited : PassesLimiters F fw crates request peer env found received)
    (hstopped : (fw.dispatch F crates request peer env found).1 = .error stop) :
    Reached F fw crates request peer env found (.ended (stopped stop))
      (sectionsToNode F fw crates env found received) := by
  have hsections := sections_of_passesLimiters hlimited
  rw [hstopped] at hsections
  dsimp only at hsections
  rw [List.append_nil] at hsections
  rw [← hsections]
  exact .ended (handled_of_dispatch_error hstopped)

/-- The answer of the node ends the request or leads to the charges, and says what the client
gets. -/
theorem answered_cases (fw : Firewall) (d : Dispatch) (reply : Option NodeReply)
    (metrics : Metrics.State) (charge : Nat → ChargeReadings) (counts : Nat → WindowState) :
    (answered crates d reply metrics =
      .ended ⟨some d, (fw.relay crates d reply metrics charge counts).1⟩) ∨
    ∃ outcome response, answered crates d reply metrics = .charging d outcome response 0 ∧
      (fw.relay crates d reply metrics charge counts).1 = some response := by
  -- By the answer: none, one that cannot be read, one that is not JSON, and JSON.
  unfold answered relay
  cases reply with
  | none => exact .inl rfl
  | some reply =>
    dsimp only
    split
    · cases reply.body with
      | none => exact .inl rfl
      | some bytes =>
        dsimp only
        cases crates.fromSlice bytes with
        | none => exact .inl rfl
        | some value => exact .inr ⟨_, _, rfl, rfl⟩
    · -- the request died on its counters
      exact .inl rfl

/-- Charges follow an answer whose counters can be raised and whose body is JSON, and go by its
value and its status. -/
theorem answered_charging {d d' : Dispatch} {reply : Option NodeReply} {metrics : Metrics.State}
    {outcome : Json × StatusCode} {response : Response} {i : Nat}
    (h : answered crates d reply metrics = .charging d' outcome response i) :
    ∃ answer bytes value, reply = some answer ∧ answer.body = some bytes ∧
      crates.fromSlice bytes = some value ∧
      Metrics.CanCount metrics (urlName crates d.chosen) answer.status ∧
      outcome = (value, answer.status) := by
  -- Only an answer that is read and is JSON comes to the charges.
  unfold answered at h
  cases reply with
  | none => cases h
  | some answer =>
    dsimp only at h
    split at h
    · next hcounted =>
      cases hbody : answer.body with
      | none =>
        rw [hbody] at h
        cases h
      | some bytes =>
        rw [hbody] at h
        dsimp only at h
        cases hparsed : crates.fromSlice bytes with
        | none =>
          rw [hparsed] at h
          cases h
        | some value =>
          rw [hparsed] at h
          cases h
          exact ⟨answer, bytes, value, rfl, hbody, hparsed,
            (Metrics.countsAnswer_iff ..).mp hcounted, rfl⟩
    · cases h

/-- A dispatched request passed the limiters. -/
theorem passesLimiters_of_dispatch {d : Dispatch}
    (h : (fw.dispatch F crates request peer env found).1 = .ok d) :
    PassesLimiters F fw crates request peer env found d.received := by
  obtain ⟨hreceived, hlimited, -, -⟩ := dispatch_ok_iff.mp h
  refine ⟨hreceived, fun i => ?_⟩
  have hpassed := checkRatelimiters_ok_iff.mp hlimited i (fw.limiterAt i)
    (List.getElem?_eq_getElem i.2)
  rwa [Nat.zero_add] at hpassed

/-- What the client gets does not depend on the counts that the charges find. -/
theorem relay_response (d : Dispatch) (reply : Option NodeReply) (metrics : Metrics.State)
    (charge : Nat → ChargeReadings) (left right : Nat → WindowState) :
    (fw.relay crates d reply metrics charge left).1 =
      (fw.relay crates d reply metrics charge right).1 := by
  unfold relay
  cases reply with
  | none => rfl
  | some reply =>
    dsimp only
    split
    · cases reply.body with
      | none => rfl
      | some bytes =>
        dsimp only
        cases crates.fromSlice bytes <;> rfl
    · rfl

theorem handled_of_dispatch {d : Dispatch}
    (h : (fw.dispatch F crates request peer env found).1 = .ok d)
    (counts : Nat → WindowState) :
    (fw.handleRequest F crates request peer env found).1 =
      ⟨some d, (fw.relay crates d env.reply env.metrics env.charge counts).1⟩ := by
  rw [handleRequest_of_dispatch h, relay_response _ _ _ _ _ counts]

end Steps

/-! ## Routing in steps -/

section Routing

variable {F : Type} [F32 F] {fw : Firewall} {crates : Crates} {request : Request}
  {peer : IpAddr} {env : Env} {found : Guarded} {received : Received} {urls : Finset NodeEntry}

/-- The routing of a request whose pin is granted. -/
theorem forwarding_pinned {node : NodeEntry}
    (hlimited : PassesLimiters F fw crates request peer env found received)
    (hurls : fw.matchingEngine.findMatchingUrls env.health received.info received.body = urls)
    (hmatched : urls.Nonempty)
    (hgranted : (fw.limitPin crates received.info.ip env.pinNow
      (findPinned received.info (env.order.list urls)) found.pins).1 = some node) :
    Reached F fw crates request peer env found (.forwarding received (some node))
      (checkSections F fw crates received env found.checked
          (List.finRange fw.ratelimiters.length) ++
        pinSections F fw crates received env found (env.order.list urls)) := by
  -- A pin that is granted leaves out the visit to the routing mode.
  have hsections : routeSections F fw crates received env found =
      pinSections F fw crates received env found (env.order.list urls) := by
    unfold routeSections
    rw [hurls]
    dsimp only
    rw [if_neg hmatched.card_ne_zero, choiceSections, hgranted, List.append_nil]
  rw [← hsections]
  exact .forwarding hlimited (route_pinned hurls hmatched hgranted)

/-- The routing of a request whose node the routing mode picks. -/
theorem routeSections_choosing
    (hurls : fw.matchingEngine.findMatchingUrls env.health received.info received.body = urls)
    (hmatched : urls.Nonempty)
    (hdropped : (fw.limitPin crates received.info.ip env.pinNow
      (findPinned received.info (env.order.list urls)) found.pins).1 = none) :
    routeSections F fw crates received env found =
      pinSections F fw crates received env found (env.order.list urls) ++
        [⟨.routing, found.routing, selectionFrom received env (env.order.list urls)⟩] := by
  unfold routeSections
  rw [hurls]
  dsimp only
  rw [if_neg hmatched.card_ne_zero, choiceSections, hdropped]

/-- A request that matches no node ends there. -/
theorem ended_unmatched
    (hlimited : PassesLimiters F fw crates request peer env found received)
    (hnone : (fw.matchingEngine.findMatchingUrls env.health received.info received.body).card =
      0) :
    Reached F fw crates request peer env found
      (.ended (stopped (.answer (getErrorResponse "Failed to find a route for your request."))))
      (checkSections F fw crates received env found.checked
        (List.finRange fw.ratelimiters.length)) := by
  -- Without a matched node the call ends here, too.
  have hroute : (fw.route F crates received env found).1 =
      .error (.answer (getErrorResponse "Failed to find a route for your request.")) := by
    unfold route
    dsimp only
    rw [if_pos hnone]
  -- and asks neither the pins nor the routing mode
  have hsections : routeSections F fw crates received env found = [] := if_pos hnone
  have hunsent : (fw.dispatch F crates request peer env found).1 =
      .error (.answer (getErrorResponse "Failed to find a route for your request.")) := by
    rw [dispatch_of_passesLimiters hlimited, hroute]
    rfl
  have hended := ended_unsent hlimited hunsent
  unfold sectionsToNode at hended
  rwa [hsections, List.append_nil] at hended

/-- Without a pin limiter every pin is granted. -/
theorem forwarding_unlimited {node : NodeEntry}
    (hlimited : PassesLimiters F fw crates request peer env found received)
    (hurls : fw.matchingEngine.findMatchingUrls env.health received.info received.body = urls)
    (hmatched : urls.Nonempty)
    (hpinned : findPinned received.info (env.order.list urls) = some node)
    (hlimiter : fw.pinLimiter = none) :
    Reached F fw crates request peer env found (.forwarding received (some node))
      (checkSections F fw crates received env found.checked
        (List.finRange fw.ratelimiters.length)) := by
  have hgranted : (fw.limitPin crates received.info.ip env.pinNow
      (findPinned received.info (env.order.list urls)) found.pins).1 = some node := by
    rw [hpinned]
    simp only [limitPin, hlimiter]
  have hsections : pinSections F fw crates received env found (env.order.list urls) = [] := by
    simp only [pinSections, hpinned, hlimiter]
  have hforward := forwarding_pinned hlimited hurls hmatched hgranted
  rwa [hsections, List.append_nil] at hforward

/-- A request that names no matched node goes to the routing mode. -/
theorem choosing_unpinned
    (hlimited : PassesLimiters F fw crates request peer env found received)
    (hurls : fw.matchingEngine.findMatchingUrls env.health received.info received.body = urls)
    (hmatched : urls.Nonempty)
    (hpinned : findPinned received.info (env.order.list urls) = none) :
    Reached F fw crates request peer env found (.choosing received (env.order.list urls))
      (checkSections F fw crates received env found.checked
        (List.finRange fw.ratelimiters.length)) := by
  have hdropped : (fw.limitPin crates received.info.ip env.pinNow
      (findPinned received.info (env.order.list urls)) found.pins).1 = none := by
    rw [hpinned]
    rfl
  have hsections : pinSections F fw crates received env found (env.order.list urls) = [] := by
    simp only [pinSections, hpinned]
  have hchoosing := Reached.choosing hlimited hurls hmatched hdropped
  rwa [hsections, List.append_nil] at hchoosing

end Routing

/-! ## The steps between critical sections -/

section Own

variable {F : Type} [F32 F] {fw : Firewall} {crates : Crates} {request : Request}
  {peer : IpAddr} {env : Env} {found : Guarded} {received : Received} {after : Task}

theorem own_arrived
    (hnext : Task.next fw crates ⟨request, peer, env, .arrived⟩ = .own after) :
    ∃ later, after = ⟨request, peer, env, later⟩ ∧
      Reached F fw crates request peer env found later [] := by
  simp only [Task.next] at hnext
  cases hreceive : fw.receive crates request peer env.filterNow with
  | error stop =>
    rw [hreceive] at hnext
    cases hnext
    exact ⟨_, rfl, ended_unreceived hreceive⟩
  | ok received =>
    rw [hreceive] at hnext
    cases hnext
    -- no limiter was asked so far
    exact ⟨_, rfl, .limiting (i := 0) hreceive (by simp)⟩

theorem own_limiting {i : Nat}
    (hreceived : fw.receive crates request peer env.filterNow = .ok received)
    (hpassed : ∀ j ∈ (List.finRange fw.ratelimiters.length).take i,
      LetsThrough F received env.check found.checked j (fw.limiterAt j))
    (hnext : Task.next fw crates ⟨request, peer, env, .limiting received i⟩ = .own after) :
    ∃ later, after = ⟨request, peer, env, later⟩ ∧
      Reached F fw crates request peer env found later
        (((List.finRange fw.ratelimiters.length).take i).map
          (checkSection F fw crates received env found.checked)) := by
  simp only [Task.next] at hnext
  split at hnext
  · -- a limiter that is to be asked is a critical section
    cases hnext
  · next hlast =>
    -- all limiters have been asked, so what comes next is the matching
    cases hnext
    have hall : (List.finRange fw.ratelimiters.length).take i =
        List.finRange fw.ratelimiters.length := List.take_of_length_le (by simpa using hlast)
    rw [hall] at hpassed ⊢
    have hchecks := checkSections_append crates hpassed []
    rw [List.append_nil, checkSections, List.append_nil] at hchecks
    rw [← hchecks]
    exact ⟨_, rfl, .matching ⟨hreceived, fun j => hpassed j (List.mem_finRange j)⟩⟩

theorem own_matching (hlimited : PassesLimiters F fw crates request peer env found received)
    (hnext : Task.next fw crates ⟨request, peer, env, .matching received⟩ = .own after) :
    ∃ later, after = ⟨request, peer, env, later⟩ ∧
      Reached F fw crates request peer env found later
        (checkSections F fw crates received env found.checked
          (List.finRange fw.ratelimiters.length)) := by
  simp only [Task.next] at hnext
  split at hnext
  · next hnone =>
    cases hnext
    exact ⟨_, rfl, ended_unmatched hlimited hnone⟩
  · next hmatched =>
    have hne := Finset.card_pos.mp (Nat.pos_of_ne_zero hmatched)
    -- the request names a matched node and is limited, or not limited, or it names none
    split at hnext
    · next node limiter hpinned hlimiter =>
      cases hnext
      exact ⟨_, rfl, .pinning hlimited rfl hne hpinned hlimiter⟩
    · next node hpinned hlimiter =>
      cases hnext
      exact ⟨_, rfl, forwarding_unlimited hlimited rfl hne hpinned hlimiter⟩
    · next hpinned =>
      cases hnext
      exact ⟨_, rfl, choosing_unpinned hlimited rfl hne hpinned⟩

theorem own_forwarding {chosen : Option NodeEntry}
    (hlimited : PassesLimiters F fw crates request peer env found received)
    (hrouted : (fw.route F crates received env found).1 = .ok chosen)
    (hnext : Task.next fw crates ⟨request, peer, env, .forwarding received chosen⟩ =
      .own after) :
    ∃ later, after = ⟨request, peer, env, later⟩ ∧
      Reached F fw crates request peer env found later
        (sectionsToNode F fw crates env found received) := by
  simp only [Task.next] at hnext
  have hdispatch := dispatch_of_passesLimiters hlimited
  rw [hrouted] at hdispatch
  -- the URL or the host header of the node can fail
  cases hforward : forward crates chosen received with
  | error stop =>
    rw [hforward] at hnext
    cases hnext
    refine ⟨_, rfl, ended_unsent hlimited ?_⟩
    rw [hdispatch]
    show (forward crates chosen received).map _ = _
    rw [hforward]
    rfl
  | ok sent =>
    rw [hforward] at hnext
    cases hnext
    refine ⟨_, rfl, .waiting (d := ⟨received, chosen, sent⟩) ?_⟩
    rw [hdispatch]
    show (forward crates chosen received).map _ = _
    rw [hforward]
    rfl

theorem own_waiting {d : Dispatch}
    (hdispatched : (fw.dispatch F crates request peer env found).1 = .ok d)
    (hnext : Task.next fw crates ⟨request, peer, env, .waiting d⟩ = .own after) :
    ∃ later, after = ⟨request, peer, env, later⟩ ∧
      Reached F fw crates request peer env found later
        (sectionsToNode F fw crates env found d.received) := by
  simp only [Task.next] at hnext
  cases hnext
  refine ⟨_, rfl, ?_⟩
  rcases answered_cases fw d env.reply env.metrics env.charge found.charged with
    hended | ⟨outcome, response, hcharging, -⟩
  · -- an answer that ends the request has no critical section
    have hsections := sections_of_passesLimiters (passesLimiters_of_dispatch hdispatched)
    rw [hdispatched] at hsections
    have hnone : relaySections F fw crates d env found.charged = [] := by
      unfold relaySections
      rw [hended]
    dsimp only at hsections
    rw [hnone, List.append_nil] at hsections
    rw [hended, ← hsections]
    exact .ended (handled_of_dispatch hdispatched found.charged)
  -- the charges begin, and none of them has been made
  · rw [hcharging]
    have hcharges : Reached F fw crates request peer env found _ _ :=
      .charging (i := 0) hdispatched hcharging
    rwa [List.take_zero, chargeSections, List.filter_nil, List.map_nil, List.append_nil]
      at hcharges

/-- After the last charge the client gets the response. -/
theorem ended_charged {d : Dispatch} {outcome : Json × StatusCode} {response : Response}
    (hdispatched : (fw.dispatch F crates request peer env found).1 = .ok d)
    (hanswered : answered crates d env.reply env.metrics = .charging d outcome response 0) :
    Reached F fw crates request peer env found (.ended ⟨some d, some response⟩)
      (sectionsToNode F fw crates env found d.received ++
        chargeSections F fw crates d outcome env found.charged
          (List.finRange fw.ratelimiters.length)) := by
  -- The sections of the call are those to the node and the charges.
  have hsections := sections_of_passesLimiters (passesLimiters_of_dispatch hdispatched)
  rw [hdispatched] at hsections
  simp only [relaySections, hanswered] at hsections
  rw [← hsections]
  -- The relay of the call answers with what the charges were begun with.
  rcases answered_cases fw d env.reply env.metrics env.charge found.charged with
    hended | ⟨outcome', response', hcharging, hrelay⟩
  · rw [hanswered] at hended
    cases hended
  · rw [hanswered] at hcharging
    cases hcharging
    have hhandled := handled_of_dispatch hdispatched found.charged
    rw [hrelay] at hhandled
    exact .ended hhandled

theorem own_charging {d : Dispatch} {outcome : Json × StatusCode} {response : Response} {i : Nat}
    (hdispatched : (fw.dispatch F crates request peer env found).1 = .ok d)
    (hanswered : answered crates d env.reply env.metrics = .charging d outcome response 0)
    (hnext : Task.next fw crates ⟨request, peer, env, .charging d outcome response i⟩ =
      .own after) :
    ∃ later, after = ⟨request, peer, env, later⟩ ∧
      Reached F fw crates request peer env found later
        (sectionsToNode F fw crates env found d.received ++
          chargeSections F fw crates d outcome env found.charged
            ((List.finRange fw.ratelimiters.length).take i)) := by
  simp only [Task.next] at hnext
  split at hnext
  · next hi =>
    split at hnext
    · next hbefore =>
      cases hnext
      -- a limiter that its check charged has no further section
      refine ⟨_, rfl, ?_⟩
      have hcharges : Reached F fw crates request peer env found _ _ :=
        .charging (i := i + 1) hdispatched hanswered
      rw [take_finRange_succ hi, chargeSections, List.filter_append] at hcharges
      have hlast : ([(⟨i, hi⟩ : Fin fw.ratelimiters.length)].filter fun j =>
          !(fw.limiterAt j).incrementMode.shouldRunBeforeRequest) = [] := by
        rw [List.filter_singleton, hbefore]
        rfl
      rw [hlast, List.append_nil] at hcharges
      exact hcharges
    · cases hnext
  · next hlast =>
    cases hnext
    refine ⟨_, rfl, ?_⟩
    rw [List.take_of_length_le (by simpa using hlast)]
    exact ended_charged hdispatched hanswered

/-- **Own step**: what a task does between its critical sections keeps it in step with
`handleRequest`. -/
theorem Reached.own {progress : Progress} {visits : List (Section F fw crates)}
    (h : Reached F fw crates request peer env found progress visits)
    (hnext : Task.next fw crates ⟨request, peer, env, progress⟩ = .own after) :
    ∃ later, after = ⟨request, peer, env, later⟩ ∧
      Reached F fw crates request peer env found later visits := by
  cases h with
  | arrived => exact own_arrived hnext
  | limiting hreceived hpassed => exact own_limiting hreceived hpassed hnext
  | matching hlimited => exact own_matching hlimited hnext
  | forwarding hlimited hrouted => exact own_forwarding hlimited hrouted hnext
  | waiting hdispatched => exact own_waiting hdispatched hnext
  | charging hdispatched hanswered => exact own_charging hdispatched hanswered hnext
  -- the next step of the others is a critical section, or there is none
  | pinning hlimited hurls hmatched hpinned hlimiter => cases hnext
  | choosing hlimited hurls hmatched hdropped => cases hnext
  | ended hhandled => cases hnext

end Own

/-! ## The critical sections -/

section Ask

variable {F : Type} [F32 F] {fw : Firewall} {crates : Crates} {request : Request}
  {peer : IpAddr} {env : Env} {found : Guarded} {received : Received} {part : Part fw}
  {input : part.Input} {resume : part.Answer → Task}

/-- The state that another limiter was found in makes no difference to the charges of these. -/
theorem map_chargeSection_update {d : Dispatch} {outcome : Json × StatusCode}
    {counts : Nat → WindowState} {xs : List (Fin fw.ratelimiters.length)} {i : Nat}
    (h : ∀ j ∈ xs, (j : Nat) ≠ i) (state : WindowState) :
    chargeSections F fw crates d outcome env (Function.update counts i state) xs =
      chargeSections F fw crates d outcome env counts xs := by
  unfold chargeSections
  refine List.map_congr_left fun j hj => ?_
  rw [Function.update_of_ne (h j (List.mem_of_mem_filter hj))]

/-- The counts that the charges find make no difference to the dispatch. -/
theorem dispatch_charged {d : Dispatch} {counts : Nat → WindowState}
    (h : (fw.dispatch F crates request peer env found).1 = .ok d) :
    (fw.dispatch F crates request peer env { found with charged := counts }).1 = .ok d := by
  obtain ⟨hreceived, hlimited, hrouted, hforward⟩ := dispatch_ok_iff.mp h
  refine dispatch_ok_iff.mpr ⟨hreceived, hlimited, ?_, hforward⟩
  rw [← hrouted, route_counts, ← route_counts _ found.charged]

/-- One more limiter has let the request through. -/
theorem limiting_succ {i : Nat} (hi : i < fw.ratelimiters.length)
    (hreceived : fw.receive crates request peer env.filterNow = .ok received)
    (hpassed : ∀ j ∈ (List.finRange fw.ratelimiters.length).take i,
      LetsThrough F received env.check found.checked j (fw.limiterAt j))
    (hthrough : LetsThrough F received env.check found.checked i (fw.limiterAt ⟨i, hi⟩)) :
    Reached F fw crates request peer env found (.limiting received (i + 1))
      (((List.finRange fw.ratelimiters.length).take i).map
          (checkSection F fw crates received env found.checked) ++
        [checkSection F fw crates received env found.checked ⟨i, hi⟩]) := by
  -- The limiters before `i + 1` are those before `i` and limiter `i` itself.
  have hall : ∀ j ∈ (List.finRange fw.ratelimiters.length).take (i + 1),
      LetsThrough F received env.check found.checked j (fw.limiterAt j) := by
    rw [take_finRange_succ hi]
    intro j hj
    rcases List.mem_append.mp hj with hj | hj
    · exact hpassed j hj
    · rw [List.mem_singleton.mp hj]
      exact hthrough
  have hreached := Reached.limiting hreceived hall
  rwa [take_finRange_succ hi, List.map_append, List.map_singleton] at hreached

theorem ask_limiting {i : Nat}
    (hreceived : fw.receive crates request peer env.filterNow = .ok received)
    (hpassed : ∀ j ∈ (List.finRange fw.ratelimiters.length).take i,
      LetsThrough F received env.check found.checked j (fw.limiterAt j))
    (hnext : Task.next fw crates ⟨request, peer, env, .limiting received i⟩ =
      .ask part input resume) (state : part.State) :
    ∃ now later, resume (part.serve F crates state input).1 = ⟨request, peer, env, later⟩ ∧
      Reached F fw crates request peer env now later
        (((List.finRange fw.ratelimiters.length).take i).map
          (checkSection F fw crates received env found.checked) ++ [⟨part, state, input⟩]) := by
  simp only [Task.next] at hnext
  split at hnext
  · next hi =>
    cases hnext
    -- the check finds the state at its own place, and the ones before it keep theirs
    let now : Guarded := { found with checked := Function.update found.checked i state }
    have hothers : ∀ j ∈ (List.finRange fw.ratelimiters.length).take i, (j : Nat) ≠ i :=
      fun j hj => (mem_take_finRange.mp hj).ne
    have hstate : now.checked i = state := Function.update_self ..
    have hpassed' := letsThrough_map_update hothers state hpassed
    have hsection : checkSection F fw crates received env now.checked ⟨i, hi⟩ =
        ⟨.limiter ⟨i, hi⟩, state, checkCall received env i⟩ := by
      unfold checkSection
      rw [hstate]
    have hread : verdictOf ((Part.limiter ⟨i, hi⟩ : Part fw).serve F crates state
        (checkCall received env i)).1 = ((fw.limiterAt ⟨i, hi⟩).shouldRequestPass F
        (now.checked i) (attemptAt received (env.check i))).1.verdict := by
      rw [hstate]
      rfl
    refine ⟨now, ?_⟩
    rw [← map_checkSection_update hothers state, ← hsection]
    by_cases hthrough : LetsThrough F received env.check now.checked i (fw.limiterAt ⟨i, hi⟩)
    · refine ⟨.limiting received (i + 1), ?_, limiting_succ hi hreceived hpassed' hthrough⟩
      dsimp only
      rw [hread, hthrough]
    · refine ⟨_, ?_, ended_limited (i := ⟨i, hi⟩) hreceived hpassed' hthrough⟩
      dsimp only
      rw [hread]
      -- a verdict that does not let the request through
      cases hverdict : ((fw.limiterAt ⟨i, hi⟩).shouldRequestPass F (now.checked i)
          (attemptAt received (env.check i))).1.verdict with
      | none => rfl
      | some passed =>
        cases passed with
        | true => exact absurd hverdict hthrough
        | false => rfl
  · cases hnext

theorem ask_pinning {urls : Finset NodeEntry} {node : NodeEntry} {limiter : PinLimiter}
    (hlimited : PassesLimiters F fw crates request peer env found received)
    (hurls : fw.matchingEngine.findMatchingUrls env.health received.info received.body = urls)
    (hmatched : urls.Nonempty)
    (hpinned : findPinned received.info (env.order.list urls) = some node)
    (hlimiter : fw.pinLimiter = some limiter)
    (hnext : Task.next fw crates
      ⟨request, peer, env, .pinning received (env.order.list urls) node⟩ = .ask part input resume)
    (state : part.State) :
    ∃ now later, resume (part.serve F crates state input).1 = ⟨request, peer, env, later⟩ ∧
      Reached F fw crates request peer env now later
        (checkSections F fw crates received env found.checked
            (List.finRange fw.ratelimiters.length) ++ [⟨part, state, input⟩]) := by
  simp only [Task.next] at hnext
  cases hnext
  let now : Guarded := { found with pins := state }
  have hlimited' : PassesLimiters F fw crates request peer env now received := hlimited
  have hsections : pinSections F fw crates received env now (env.order.list urls) =
      [⟨.pins, state, pinCall crates received env node⟩] := by
    simp only [pinSections, hpinned, hlimiter, now]
  have hserved : (Part.serve F crates (.pins : Part fw) state
      (pinCall crates received env node)).1 =
        (limiter.admits state (pinKey crates received.info.ip node.name) env.pinNow).1 := by
    simp only [Part.serve, hlimiter]
    rfl
  have hlimit : (fw.limitPin crates received.info.ip env.pinNow
      (findPinned received.info (env.order.list urls)) now.pins).1 =
      if (limiter.admits state (pinKey crates received.info.ip node.name) env.pinNow).1 then
        some node else none := by
    simp only [limitPin, hpinned, hlimiter, now]
  rw [← hsections, hserved]
  cases hadmitted : (limiter.admits state (pinKey crates received.info.ip node.name)
      env.pinNow).1 with
  | true =>
    rw [hadmitted, if_pos rfl] at hlimit
    exact ⟨now, _, rfl, forwarding_pinned hlimited' hurls hmatched hlimit⟩
  | false =>
    -- the pin drops, and the routing mode picks
    rw [hadmitted, if_neg Bool.false_ne_true] at hlimit
    exact ⟨now, _, rfl, .choosing hlimited' hurls hmatched hlimit⟩

theorem ask_choosing {urls : Finset NodeEntry}
    (hlimited : PassesLimiters F fw crates request peer env found received)
    (hurls : fw.matchingEngine.findMatchingUrls env.health received.info received.body = urls)
    (hmatched : urls.Nonempty)
    (hdropped : (fw.limitPin crates received.info.ip env.pinNow
      (findPinned received.info (env.order.list urls)) found.pins).1 = none)
    (hnext : Task.next fw crates ⟨request, peer, env, .choosing received (env.order.list urls)⟩ =
      .ask part input resume) (state : part.State) :
    ∃ now later, resume (part.serve F crates state input).1 = ⟨request, peer, env, later⟩ ∧
      Reached F fw crates request peer env now later
        (checkSections F fw crates received env found.checked
            (List.finRange fw.ratelimiters.length) ++
          pinSections F fw crates received env found (env.order.list urls) ++
          [⟨part, state, input⟩]) := by
  simp only [Task.next] at hnext
  cases hnext
  -- The call that is compared with finds the routing state that the visit found.
  let now : Guarded := { found with routing := state }
  have hlimited' : PassesLimiters F fw crates request peer env now received := hlimited
  have hroute : (fw.route F crates received env now).1 = _ :=
    congrArg Prod.fst (route_unhonored hurls hmatched hdropped)
  have hnode : sectionsToNode F fw crates env now received =
      checkSections F fw crates received env found.checked
          (List.finRange fw.ratelimiters.length) ++
        (pinSections F fw crates received env found (env.order.list urls) ++
          [⟨.routing, state, selectionFrom received env (env.order.list urls)⟩]) := by
    unfold sectionsToNode
    have hsections : routeSections F fw crates received env now = _ :=
      routeSections_choosing hurls hmatched hdropped
    rw [hsections]
    rfl
  have hserved : (Part.serve F crates (.routing : Part fw) state
      (selectionFrom received env (env.order.list urls))).1 =
        (RoutingModeState.choose F crates state received.info.uri.path (env.order.list urls)
          env.draw).1 := rfl
  rw [List.append_assoc, ← hnode, hserved]
  dsimp only at hroute
  -- The answer of the visit is what the call chooses.
  cases hchosen : (RoutingModeState.choose F crates state received.info.uri.path
      (env.order.list urls) env.draw).1 with
  | some node =>
    have hrouted : (fw.route F crates received env now).1 = .ok node := by
      rw [hroute]
      simp only [now, hchosen]
    exact ⟨now, _, rfl, .forwarding hlimited' hrouted⟩
  | none =>
    -- an empty choice ends both
    have hrouted : (fw.route F crates received env now).1 = .error .panic := by
      rw [hroute]
      simp only [now, hchosen]
    refine ⟨now, _, rfl, ended_unsent hlimited' ?_⟩
    rw [dispatch_of_passesLimiters hlimited', hrouted]
    rfl

theorem ask_charging {d : Dispatch} {outcome : Json × StatusCode} {response : Response} {i : Nat}
    (hdispatched : (fw.dispatch F crates request peer env found).1 = .ok d)
    (hanswered : answered crates d env.reply env.metrics = .charging d outcome response 0)
    (hnext : Task.next fw crates ⟨request, peer, env, .charging d outcome response i⟩ =
      .ask part input resume) (state : part.State) :
    ∃ now later, resume (part.serve F crates state input).1 = ⟨request, peer, env, later⟩ ∧
      Reached F fw crates request peer env now later
        (sectionsToNode F fw crates env found d.received ++
          chargeSections F fw crates d outcome env found.charged
            ((List.finRange fw.ratelimiters.length).take i) ++ [⟨part, state, input⟩]) := by
  simp only [Task.next] at hnext
  split at hnext
  · next hi =>
    split at hnext
    · cases hnext
    · next hafter =>
      cases hnext
      let now : Guarded := { found with charged := Function.update found.charged i state }
      have hstate : now.charged i = state := Function.update_self ..
      refine ⟨now, .charging d outcome response (i + 1), rfl, ?_⟩
      have hcharges : Reached F fw crates request peer env now _ _ :=
        .charging (i := i + 1) (dispatch_charged hdispatched) hanswered
      rw [take_finRange_succ hi, chargeSections, List.filter_append, List.map_append,
        ← List.append_assoc] at hcharges
      have hlast : ([(⟨i, hi⟩ : Fin fw.ratelimiters.length)].filter fun j =>
          !(fw.limiterAt j).incrementMode.shouldRunBeforeRequest) = [⟨i, hi⟩] := by
        simpa using hafter
      rw [hlast, List.map_singleton] at hcharges
      dsimp only at hcharges
      rw [hstate] at hcharges
      -- the charges before it found what they found
      have hothers : chargeSections F fw crates d outcome env now.charged
          ((List.finRange fw.ratelimiters.length).take i) =
            chargeSections F fw crates d outcome env found.charged
              ((List.finRange fw.ratelimiters.length).take i) :=
        map_chargeSection_update (fun j hj => (mem_take_finRange.mp hj).ne) state
      unfold chargeSections at hothers
      rw [hothers] at hcharges
      exact hcharges
  · cases hnext

/-- **Critical section**: whatever state a section finds, the task is where `handleRequest` is
that finds it there, too. -/
theorem Reached.ask {progress : Progress} {visits : List (Section F fw crates)}
    (h : Reached F fw crates request peer env found progress visits)
    (hnext : Task.next fw crates ⟨request, peer, env, progress⟩ = .ask part input resume)
    (state : part.State) :
    ∃ now later, resume (part.serve F crates state input).1 = ⟨request, peer, env, later⟩ ∧
      Reached F fw crates request peer env now later (visits ++ [⟨part, state, input⟩]) := by
  cases h with
  | limiting hreceived hpassed => exact ask_limiting hreceived hpassed hnext state
  | pinning hlimited hurls hmatched hpinned hlimiter =>
    exact ask_pinning hlimited hurls hmatched hpinned hlimiter hnext state
  | choosing hlimited hurls hmatched hdropped =>
    exact ask_choosing hlimited hurls hmatched hdropped hnext state
  | charging hdispatched hanswered => exact ask_charging hdispatched hanswered hnext state
  -- the others go on without a critical section
  | arrived =>
    simp only [Task.next] at hnext
    split at hnext <;> cases hnext
  | matching hlimited =>
    simp only [Task.next] at hnext
    split at hnext
    · cases hnext
    · split at hnext <;> cases hnext
  | forwarding hlimited hrouted =>
    simp only [Task.next] at hnext
    split at hnext <;> cases hnext
  | waiting hdispatched => cases hnext
  | ended hhandled => cases hnext

end Ask

end AntelopeFirewall.Firewall
