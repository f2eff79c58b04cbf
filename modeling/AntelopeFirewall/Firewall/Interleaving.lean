import AntelopeFirewall.Firewall.Gates
import AntelopeFirewall.Library.Concurrent
import AntelopeFirewall.RateLimiter.Exemption
import AntelopeFirewall.Routing.RoundRobin

/-!
# Requests in Any Interleaving

Each connection is served by a task of its own, and the tasks share the counts of the rate
limiters, the pin counters and the routing state. A task holds the lock of one of these for
one critical section at a time and suspends in between, so those of many requests interleave.
They share the metrics, too: these are in any state when the answer of a node comes to them.

- `Part` names what is shared, `Progress` how far a task is, `Task.next` its next step: the
  handler as it is written, one step for each part of it that runs without a suspension,
- `system` puts them together as a `Concurrent.System`,
- `sections` lists the critical sections that `handleRequest` has with a given `Guarded`.
-/

namespace AntelopeFirewall.Firewall

open Library Library.Concurrent

/-! ## What is shared -/

/-- The limiter at a place. -/
abbrev limiterAt (fw : Firewall) (i : Fin fw.ratelimiters.length) : RateLimiter :=
  fw.ratelimiters.get i

/-- The parts of a firewall that its requests share. -/
inductive Part (fw : Firewall) where
  | limiter (i : Fin fw.ratelimiters.length)
  | pins
  | routing
  deriving DecidableEq

variable {fw : Firewall}

def Part.State : Part fw → Type
  | .limiter _ => WindowState
  | .pins => PinState
  | .routing => RoutingModeState

def Part.Input : Part fw → Type
  | .limiter _ => RateLimiter.Call
  | .pins => PinLimiter.PinCall
  | .routing => RoutingModeState.Selection

def Part.Answer : Part fw → Type
  | .limiter _ => RateLimiter.Reply
  | .pins => Bool
  | .routing => Option (Option NodeEntry)

/-- One critical section. No request asks a pin limiter that is not there. -/
def Part.serve (F : Type) [F32 F] (crates : Crates) :
    ∀ part : Part fw, part.State → part.Input → part.Answer × part.State
  | .limiter i => fun state call => (fw.limiterAt i).respond F state call
  | .pins => fun state call =>
    match fw.pinLimiter with
    | some pinLimiter => pinLimiter.step state call
    | none => (false, state)
  | .routing => fun state selection => RoutingModeState.select F crates state selection

/-- The verdict of a check; a charge has none. -/
def verdictOf : RateLimiter.Reply → Option Bool
  | .decided decision => decision.verdict
  | .charged _ => none

/-! ## What a request does -/

/-- How far the handling of a request is: what it does next and what it knows by then. -/
inductive Progress where
  | arrived
  | limiting (received : Received) (i : Nat)
  | matching (received : Received)
  | pinning (received : Received) (nodes : List NodeEntry) (node : NodeEntry)
  | choosing (received : Received) (nodes : List NodeEntry)
  | forwarding (received : Received) (chosen : Option NodeEntry)
  | waiting (d : Dispatch)
  | charging (d : Dispatch) (outcome : Json × StatusCode) (response : Response) (i : Nat)
  | ended (handled : Handled)

/-- A request in the firewall, with everything it reads that the code does not decide. -/
structure Task where
  request : Request
  peer : IpAddr
  env : Env
  progress : Progress

/-- What becomes of a request that is not sent to a node. -/
def stopped : Stop → Handled
  | .answer response => ⟨none, some response⟩
  | .panic => ⟨none, none⟩

/-- What the check of limiter number `i` is asked. -/
def checkCall (received : Received) (env : Env) (i : Nat) : RateLimiter.Call :=
  .check (attemptAt received (env.check i))

/-- What the charge of limiter number `i` is asked. -/
def chargeCall (d : Dispatch) (outcome : Json × StatusCode) (env : Env) (i : Nat) :
    RateLimiter.Call :=
  .charge ⟨d.received.info, d.received.body, outcome, (env.charge i).order, (env.charge i).now⟩

/-- What the pin limiter is asked for a node. -/
def pinCall (crates : Crates) (received : Received) (env : Env) (node : NodeEntry) :
    PinLimiter.PinCall :=
  ⟨pinKey crates received.info.ip node.name, env.pinNow⟩

/-- What the routing mode is asked. -/
def selectionFrom (received : Received) (env : Env) (nodes : List NodeEntry) :
    RoutingModeState.Selection :=
  ⟨received.info.uri.path, nodes, env.draw⟩

/-- What follows the answer of the node: the end of the request, or the charges. -/
def answered (crates : Crates) (d : Dispatch) (reply : Option NodeReply)
    (metrics : Metrics.State) : Progress :=
  match reply with
  | none => .ended ⟨some d, some (getErrorResponse "Error forwarding request.")⟩
  | some reply =>
    if Metrics.countsAnswer metrics (urlName crates d.chosen) reply.status then
      let headers := relayHeaders crates d.chosen d.received.info.uri.path reply.url reply.headers
      match reply.body with
      | none => .ended ⟨some d, none⟩
      | some bytes =>
        match crates.fromSlice bytes with
        | none => .ended ⟨some d, some (getErrorResponse "Error forwarding request.")⟩
        | some value => .charging d (value, reply.status) ⟨reply.status, headers, bytes⟩ 0
    else .ended ⟨some d, none⟩

/-- The next step of a task: a critical section, or a step of its own. -/
def Task.next (fw : Firewall) (crates : Crates) (task : Task) :
    Move (@Part.Input fw) (@Part.Answer fw) Task :=
  match task.progress with
  | .arrived =>
    match fw.receive crates task.request task.peer task.env.filterNow with
    | .error stop => .own { task with progress := .ended (stopped stop) }
    | .ok received => .own { task with progress := .limiting received 0 }
  | .limiting received i =>
    if h : i < fw.ratelimiters.length then
      .ask (.limiter ⟨i, h⟩) (checkCall received task.env i) fun reply =>
        match verdictOf reply with
        | some true => { task with progress := .limiting received (i + 1) }
        | some false =>
          { task with progress := .ended (stopped (.answer
              (getRatelimitResponse (fw.limiterAt ⟨i, h⟩).windowDuration))) }
        | none => { task with progress := .ended (stopped .panic) }
    else .own { task with progress := .matching received }
  | .matching received =>
    let urls := fw.matchingEngine.findMatchingUrls task.env.health received.info received.body
    if urls.card = 0 then
      .own { task with progress := .ended (stopped (.answer
          (getErrorResponse "Failed to find a route for your request."))) }
    else
      let nodes := task.env.order.list urls
      match findPinned received.info nodes, fw.pinLimiter with
      | some node, some _ => .own { task with progress := .pinning received nodes node }
      | some node, none => .own { task with progress := .forwarding received (some node) }
      | none, _ => .own { task with progress := .choosing received nodes }
  | .pinning received nodes node =>
    .ask .pins (pinCall crates received task.env node) fun admitted : Bool =>
      if admitted then { task with progress := .forwarding received (some node) }
      else { task with progress := .choosing received nodes }
  | .choosing received nodes =>
    .ask .routing (selectionFrom received task.env nodes) fun chosen : Option (Option NodeEntry) =>
      match chosen with
      | some node => { task with progress := .forwarding received node }
      | none => { task with progress := .ended (stopped .panic) }
  | .forwarding received chosen =>
    match forward crates chosen received with
    | .error stop => .own { task with progress := .ended (stopped stop) }
    | .ok sent => .own { task with progress := .waiting ⟨received, chosen, sent⟩ }
  | .waiting d =>
    .own { task with progress := answered crates d task.env.reply task.env.metrics }
  | .charging d outcome response i =>
    if h : i < fw.ratelimiters.length then
      -- limiters that were charged by their check are passed over
      if (fw.limiterAt ⟨i, h⟩).incrementMode.shouldRunBeforeRequest then
        .own { task with progress := .charging d outcome response (i + 1) }
      else
        .ask (.limiter ⟨i, h⟩) (chargeCall d outcome task.env i) fun _ =>
          { task with progress := .charging d outcome response (i + 1) }
    else .own { task with progress := .ended ⟨some d, some response⟩ }
  | .ended _ => .rest

/-- A task comes to a critical section at a limiter that it has yet to ask, at the pin limiter,
at the routing mode, or at a limiter that charges responses. -/
theorem progress_of_ask {fw : Firewall} {crates : Crates} {task : Task} {part : Part fw}
    {input : part.Input} {resume : part.Answer → Task}
    (h : task.next fw crates = .ask part input resume) :
    (∃ received i, task.progress = .limiting received i ∧ i < fw.ratelimiters.length) ∨
    (∃ received nodes node, task.progress = .pinning received nodes node) ∨
    (∃ received nodes, task.progress = .choosing received nodes) ∨
    (∃ d outcome response i, task.progress = .charging d outcome response i ∧
      ∃ hi : i < fw.ratelimiters.length,
        (fw.limiterAt ⟨i, hi⟩).incrementMode.shouldRunBeforeRequest = false) := by
  obtain ⟨request, peer, env, progress⟩ := task
  -- By the phase: a request enters a critical section in four of them.
  cases progress with
  | limiting received i =>
    simp only [Task.next] at h
    split at h
    · next hi => exact .inl ⟨received, i, rfl, hi⟩
    · cases h
  | pinning received nodes node => exact .inr (.inl ⟨received, nodes, node, rfl⟩)
  | choosing received nodes => exact .inr (.inr (.inl ⟨received, nodes, rfl⟩))
  | charging d outcome response i =>
    simp only [Task.next] at h
    split at h
    · next hi =>
      split at h
      · cases h
      · next hafter =>
        rw [Bool.not_eq_true] at hafter
        exact .inr (.inr (.inr ⟨d, outcome, response, i, rfl, hi, hafter⟩))
    · cases h
  -- the other phases move on their own
  | arrived =>
    simp only [Task.next] at h
    split at h <;> cases h
  | matching received =>
    simp only [Task.next] at h
    split at h
    · cases h
    · split at h <;> cases h
  | forwarding received chosen =>
    simp only [Task.next] at h
    split at h <;> cases h
  | waiting d => cases h
  | ended handled => cases h

/-- A request that comes in, with the readings it will take. -/
structure Incoming where
  request : Request
  peer : IpAddr
  env : Env

/-- The firewall as a system of tasks that share its parts. -/
def system (F : Type) [F32 F] (fw : Firewall) (crates : Crates) : System (Part fw) where
  State := Part.State
  Input := Part.Input
  Answer := Part.Answer
  serve := Part.serve F crates
  Party := Task
  next := Task.next fw crates
  Arrival := Incoming
  start := fun incoming => ⟨incoming.request, incoming.peer, incoming.env, .arrived⟩

/-! ## The critical sections of one request -/

/-- A critical section: the part, the state it was found in, and what it was asked. -/
abbrev Section (F : Type) [F32 F] (fw : Firewall) (crates : Crates) : Type :=
  System.Visit (fw.system F crates)

instance (F : Type) [F32 F] (received : Received) (check : Nat → CheckReadings)
    (found : Nat → WindowState) (i : Nat) (limiter : RateLimiter) :
    Decidable (LetsThrough F received check found i limiter) :=
  inferInstanceAs (Decidable (_ = some true))

section Sections

variable (F : Type) [F32 F] (fw : Firewall) (crates : Crates)

def checkSection (received : Received) (env : Env) (found : Nat → WindowState)
    (i : Fin fw.ratelimiters.length) : Section F fw crates :=
  ⟨.limiter i, found i, checkCall received env i⟩

/-- The checks of some limiters, up to the first that does not let the request through. -/
def checkSections (received : Received) (env : Env) (found : Nat → WindowState) :
    List (Fin fw.ratelimiters.length) → List (Section F fw crates)
  | [] => []
  | i :: rest =>
    checkSection F fw crates received env found i ::
      if LetsThrough F received env.check found i (fw.limiterAt i) then
        checkSections received env found rest
      else []

/-- The question to the pin limiter: there is one for a pin that it bounds. -/
def pinSections (received : Received) (env : Env) (found : Guarded) (nodes : List NodeEntry) :
    List (Section F fw crates) :=
  match findPinned received.info nodes, fw.pinLimiter with
  | some node, some _ => [⟨.pins, found.pins, pinCall crates received env node⟩]
  | _, _ => []

/-- The question to the routing mode: there is one unless a pin decides. -/
def choiceSections (received : Received) (env : Env) (found : Guarded)
    (nodes : List NodeEntry) : List (Section F fw crates) :=
  match (fw.limitPin crates received.info.ip env.pinNow (findPinned received.info nodes)
    found.pins).1 with
  | some _ => []
  | none => [⟨.routing, found.routing, selectionFrom received env nodes⟩]

/-- The critical sections of the routing of a received request. -/
def routeSections (received : Received) (env : Env) (found : Guarded) :
    List (Section F fw crates) :=
  let urls := fw.matchingEngine.findMatchingUrls env.health received.info received.body
  if urls.card = 0 then []
  else
    let nodes := env.order.list urls
    pinSections F fw crates received env found nodes ++
      choiceSections F fw crates received env found nodes

/-- The charges of some limiters: those that are not charged by their check. -/
def chargeSections (d : Dispatch) (outcome : Json × StatusCode) (env : Env)
    (found : Nat → WindowState) (is : List (Fin fw.ratelimiters.length)) :
    List (Section F fw crates) :=
  (is.filter fun i => !(fw.limiterAt i).incrementMode.shouldRunBeforeRequest).map fun i =>
    ⟨.limiter i, found i, chargeCall d outcome env i⟩

/-- The critical sections after the answer of the node. -/
def relaySections (d : Dispatch) (env : Env) (found : Nat → WindowState) :
    List (Section F fw crates) :=
  match answered crates d env.reply env.metrics with
  | .charging _ outcome _ _ =>
    chargeSections F fw crates d outcome env found (List.finRange fw.ratelimiters.length)
  | _ => []

/-- The critical sections of a request that is handled with a given state in each. -/
def sections (request : Request) (peer : IpAddr) (env : Env) (found : Guarded) :
    List (Section F fw crates) :=
  match fw.receive crates request peer env.filterNow with
  | .error _ => []
  | .ok received =>
    checkSections F fw crates received env found.checked
        (List.finRange fw.ratelimiters.length) ++
      match (checkRatelimiters F received env.check 0 fw.ratelimiters found.checked).1 with
      | .error _ => []
      | .ok _ =>
        routeSections F fw crates received env found ++
          match (fw.dispatch F crates request peer env found).1 with
          | .error _ => []
          | .ok d => relaySections F fw crates d env found.charged

end Sections

end AntelopeFirewall.Firewall
