import AntelopeFirewall.Firewall.Ceilings
import AntelopeFirewall.PinLimiter.Lagging

/-!
# How Far a Client Can Steer Its Requests

A client steers a request when it names a node and the request is sent there without the routing
mode being asked. The pin limiter bounds this for a client and a node. Requests ask it in any
order, each with a reading of the clock that it took before it waited for the lock.

- `steered` says of a request that it was steered to a name,
- `pin_visit_of_steered` finds the question to the pin limiter behind it,
- `steered_le` is the ceiling, over any interleaving.
-/

namespace AntelopeFirewall.Firewall

open Library Library.Machine Library.Concurrent Library.FixedWindow

variable {F : Type} [F32 F] {fw : Firewall} {crates : Crates}

/-! ## Questions to the pin limiter -/

/-- What a visit asked of the pin limiter and what it answered. -/
def pinAnswered (s : Section F fw crates) : Option (PinLimiter.PinCall × Bool) :=
  s.answered Part.pins

/-- What the pin limiter was asked, in order. -/
def pinCalls (log : List (Nat × Section F fw crates)) : List PinLimiter.PinCall :=
  System.inputsOn Part.pins log

/-- A visit asks the routing mode. -/
def asksRouting (s : Section F fw crates) : Bool := s.component = Part.routing

/-- A visit gets a pin admitted for a key, with a reading in an interval. -/
def admitsPin (key : String) (length x : Nat) (s : Section F fw crates) : Bool :=
  (pinAnswered s).any fun answered =>
    (answered.1.key = key ∧ answered.2 = true) ∧ inInterval length x answered.1.now

theorem serve_pins (F : Type) [F32 F] (crates : Crates) {limiter : PinLimiter}
    (hlimiter : fw.pinLimiter = some limiter) :
    Part.serve F crates (.pins : Part fw) = limiter.step := by
  funext state call
  unfold Part.serve
  rw [hlimiter]

theorem pinAnswered_self {limiter : PinLimiter} (hlimiter : fw.pinLimiter = some limiter)
    (state : PinState) (call : PinLimiter.PinCall) :
    pinAnswered (⟨.pins, state, call⟩ : Section F fw crates) =
      some (call, (limiter.step state call).1) := by
  rw [← serve_pins F crates hlimiter]
  exact System.Visit.answered_self (S := fw.system F crates) .pins state call

/-- The pins that are admitted are those of the limiter's own run. -/
theorem countP_admitsPin {shared : ∀ part : Part fw, part.State}
    {events : List (System.Event (fw.system F crates))} {limiter : PinLimiter}
    (hlimiter : fw.pinLimiter = some limiter) {state : PinState}
    (hstate : shared .pins = state) (key : String) (length x : Nat) :
    ((logOf F fw crates shared events).countP fun entry => admitsPin key length x entry.2) =
      (PinLimiter.admittedTimes key (trace limiter.step state
        (pinCalls (logOf F fw crates shared events)))).countP (inInterval length x) := by
  -- What the log shows of the pins is the run of the questions, each with its answer.
  have hanswered : (logOf F fw crates shared events).filterMap (fun entry =>
      pinAnswered entry.2) = trace limiter.step state
        (pinCalls (logOf F fw crates shared events)) := by
    rw [← hstate, ← serve_pins F crates hlimiter]
    exact (System.run_explains (S := fw.system F crates) ⟨shared, []⟩ events).answered .pins
  unfold PinLimiter.admittedTimes
  rw [List.countP_map, List.countP_filter, ← hanswered, List.countP_filterMap]
  refine List.countP_congr fun entry _ => ?_
  unfold admitsPin
  cases pinAnswered entry.2 with
  | none => simp
  | some answered => simp [and_comm, and_assoc]

/-! ## What lies behind a steered request -/

/-- A request of a client was sent to a node of a name, and of its critical sections none asks the
routing mode; its reading for the pin is in an interval. -/
def steered (log : List (Nat × Section F fw crates)) (ip : IpAddr) (name : String)
    (length x : Nat) (entry : Task × Nat) : Bool :=
  match entry.1.dispatched with
  | some d =>
    (d.received.info.ip = ip ∧ d.chosen.map NodeEntry.name = some name) ∧
      inInterval length x entry.1.env.pinNow ∧
      (System.visitsBy entry.2 log).all fun s => !asksRouting s
  | none => false

section Reached

variable {request : Request} {peer : IpAddr} {env : Env} {found : Guarded} {d : Dispatch}

theorem routed_of_dispatch (h : (fw.dispatch F crates request peer env found).1 = .ok d) :
    (fw.route F crates d.received env found).1 = .ok d.chosen := by
  have hroute := h
  rw [dispatch_of_passesLimiters (passesLimiters_of_dispatch h)] at hroute
  cases hrouted : (fw.route F crates d.received env found).1 with
  | error stop =>
    rw [hrouted] at hroute
    cases hroute
  | ok chosen =>
    rw [hrouted] at hroute
    cases hforward : forward crates chosen d.received with
    | error stop =>
      simp only [Except.bind, hforward] at hroute
      cases hroute
    | ok sent =>
      simp only [Except.bind, hforward] at hroute
      exact congrArg (fun sent : Dispatch => Except.ok sent.chosen) (Except.ok.inj hroute)

/-- A request that is sent without a question to the routing mode had its pin admitted. -/
theorem pin_visit_of_steered {limiter : PinLimiter} (hlimiter : fw.pinLimiter = some limiter)
    (h : (fw.dispatch F crates request peer env found).1 = .ok d)
    (hunasked : ∀ s ∈ sectionsToNode F fw crates env found d.received,
      s.component ≠ Part.routing) :
    ∃ node, d.chosen = some node ∧
      (limiter.step found.pins (pinCall crates d.received env node)).1 = true ∧
      (⟨.pins, found.pins, pinCall crates d.received env node⟩ : Section F fw crates) ∈
        sectionsToNode F fw crates env found d.received := by
  have hrouted := routed_of_dispatch h
  generalize hurls : fw.matchingEngine.findMatchingUrls env.health d.received.info
    d.received.body = urls
  have hmatched : urls.Nonempty := hurls ▸ route_matched hrouted
  cases hlimited : (fw.limitPin crates d.received.info.ip env.pinNow
      (findPinned d.received.info (env.order.list urls)) found.pins).1 with
  | none =>
    -- without a pin the routing mode is asked
    refine absurd rfl (hunasked ⟨.routing, found.routing,
      selectionFrom d.received env (env.order.list urls)⟩ ?_)
    unfold sectionsToNode
    rw [routeSections_choosing hurls hmatched hlimited]
    exact List.mem_append_right _ (List.mem_append_right _ (List.mem_singleton_self _))
  | some node =>
    have hchosen : d.chosen = some node := by
      rw [route_pinned hurls hmatched hlimited] at hrouted
      exact (Except.ok.inj hrouted).symm
    refine ⟨node, hchosen, ?_⟩
    unfold limitPin at hlimited
    rw [hlimiter] at hlimited
    cases hpinned : findPinned d.received.info (env.order.list urls) with
    | none =>
      rw [hpinned] at hlimited
      cases hlimited
    | some pinned =>
      rw [hpinned] at hlimited
      dsimp only at hlimited
      split at hlimited
      · next hadmitted =>
        cases hlimited
        refine ⟨hadmitted, ?_⟩
        unfold sectionsToNode routeSections
        rw [hurls]
        dsimp only
        rw [if_neg hmatched.card_ne_zero, pinSections, hpinned, hlimiter]
        exact List.mem_append_right _ (List.mem_cons_self ..)
      · cases hlimited

end Reached

/-! ## The ceiling -/

/-- **Steering ceiling**: in any interleaving where no question to the pin limiter lags another by
more than a delay, a client steers at most twice the limit of its requests to a name in an
interval that is shorter than the window by three delays. -/
theorem steered_le (F : Type) [F32 F] (fw : Firewall) (crates : Crates)
    (shared : ∀ part : Part fw, part.State) (events : List (System.Event (fw.system F crates)))
    (limiter : PinLimiter) (delay length : Nat) (hlimiter : fw.pinLimiter = some limiter)
    (hstart : shared .pins = (∅ : PinState))
    (hlag : PinLimiter.LagBy delay (pinCalls (logOf F fw crates shared events)))
    (hshort : length + 3 * delay ≤ limiter.window) (ip : IpAddr) (name : String) (x : Nat) :
    (after F fw crates shared events).parties.zipIdx.countP
        (steered (logOf F fw crates shared events) ip name length x) ≤ 2 * limiter.limit := by
  -- A request that steered was admitted at the pins: its section there shows the admission.
  have hvisits : ∀ i task, (after F fw crates shared events).parties[i]? = some task →
      steered (logOf F fw crates shared events) ip name length x (task, i) = true →
        ∃ visit ∈ System.visitsBy i (logOf F fw crates shared events),
          admitsPin (pinKey crates ip name) length x visit = true := by
    intro i task htask hsteered
    obtain ⟨incoming, found, progress, -, rfl, hreached⟩ := reached_of_mem htask
    unfold steered at hsteered
    split at hsteered
    · next d hsent =>
      simp only [Bool.decide_and, Bool.decide_eq_true, Bool.and_eq_true, decide_eq_true_eq,
        List.all_eq_true, Bool.not_eq_true', asksRouting, decide_eq_false_iff_not] at hsteered
      obtain ⟨⟨rfl, hname⟩, hnow, hunasked⟩ := hsteered
      obtain ⟨hdispatched, hpre⟩ := hreached.dispatched hsent
      -- it never asked the routing mode, so its pin was not dropped
      obtain ⟨node, hchosen, hadmitted, hmem⟩ := pin_visit_of_steered hlimiter hdispatched
        fun s hs => hunasked s (hpre.subset hs)
      rw [hchosen, Option.map_some, Option.some.injEq] at hname
      subst hname
      refine ⟨_, hpre.subset hmem, ?_⟩
      unfold admitsPin
      rw [pinAnswered_self hlimiter, hadmitted]
      simpa [pinCall] using hnow
    · cases hsteered
  -- The admissions are those of the limiter's own run, which bounds them.
  have hcount := System.countP_places_le (S := fw.system F crates) hvisits
  rw [countP_admitsPin hlimiter hstart] at hcount
  exact hcount.trans (PinLimiter.admitted_le hlag hshort _ x)

/-- The one node may be asked for by name once in a minute. -/
def steeringOne : Firewall :=
  { servingOne .attempt 9 with pinLimiter := some (.new 1 60) }

/-- A request that asks for the node, with its reading of the clock. -/
noncomputable def asksForOne (pinNow : Nat) : Incoming where
  request := infoRequest (some "upstream=get_one")
  peer := .v4 0
  env := { (answeredWith 200).env with pinNow := pinNow }

/-- Two requests that ask for the node, the later of which read the clock first. -/
noncomputable def twoAsking : List (System.Event (steeringOne.system ℚ nullDocument)) :=
  [.join (asksForOne 10), .join (asksForOne 5)] ++
    List.replicate 12 (.turn 0) ++ List.replicate 12 (.turn 1)

theorem steered_le_twoAsking :
    (after ℚ steeringOne nullDocument (fresh steeringOne 0) twoAsking).parties.zipIdx.countP
        (steered (logOf ℚ steeringOne nullDocument (fresh steeringOne 0) twoAsking) (.v4 0)
          "get_one" (59 * 10 ^ 9) 0) = 1 ∧
    (after ℚ steeringOne nullDocument (fresh steeringOne 0) twoAsking).parties.zipIdx.countP
        (steered (logOf ℚ steeringOne nullDocument (fresh steeringOne 0) twoAsking) (.v4 0)
          "get_one" (59 * 10 ^ 9) 0) ≤ 2 * 1 := by
  refine ⟨by decide +kernel, ?_⟩
  exact steered_le ℚ steeringOne nullDocument (fresh steeringOne 0) twoAsking (.new 1 60) 5
    (59 * 10 ^ 9) rfl rfl (by decide +kernel) (by decide) (.v4 0) "get_one" 0

end AntelopeFirewall.Firewall
