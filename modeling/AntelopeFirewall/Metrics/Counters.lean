import AntelopeFirewall.Http
import Mathlib.Data.Finset.Insert

/-!
# The Counters of a Node

Every node that a request is sent to has four counters, which the first request to it
registers. A name can be registered once; the code unwraps the result, so a second attempt
kills the request.

- `NodeMetric.name` and `GlobalMetric.name` are the names,
- `move` is one step of a request on its way to a node and back,
- `countsAnswer` is the last of these steps, the one between the answer of the node and the
  response, and `countsAnswer_iff` says when a request survives it.
-/

namespace AntelopeFirewall.Metrics

/-! ## Names -/

/-- The counters of a node. -/
inductive NodeMetric where
  | processed
  | success
  | clientError
  | serverError
  deriving DecidableEq, Repr

def NodeMetric.ending : NodeMetric → String
  | .processed => "_processed"
  | .success => "_success"
  | .clientError => "_client_error"
  | .serverError => "_server_error"

/-- The name under which a counter of a node is registered. -/
def NodeMetric.name (metric : NodeMetric) (prometheusUrlName : String) : String :=
  "node_" ++ prometheusUrlName ++ metric.ending

/-- The order in which they are registered. -/
def NodeMetric.all : List NodeMetric := [.processed, .success, .clientError, .serverError]

/-- The counters that are not those of a node. Each is registered at its first use. -/
inductive GlobalMetric where
  | requestsReceived
  | requestsFailedToRoute
  | clientErrorNodeResponses
  | serverErrorNodeResponses
  | successNodeResponses
  deriving DecidableEq, Repr

def GlobalMetric.name : GlobalMetric → String
  | .requestsReceived => "reqs_received"
  | .requestsFailedToRoute => "reqs_failed_to_route"
  | .clientErrorNodeResponses => "node_responses_client_error"
  | .serverErrorNodeResponses => "node_responses_server_error"
  | .successNodeResponses => "node_responses_success"

/-- The host of a URL, fit for the name of a metric. `isAlphanumeric` is
`char::is_alphanumeric`. -/
def prometheusUrlName (isAlphanumeric : Char → Bool) (url : Url) : String :=
  String.ofList ((url.hostStr.getD "unknown").toList.map fun c =>
    if c ≠ '_' ∧ ¬ isAlphanumeric c = true then '_' else c)

/-! ## Requests on their way -/

/-- How far a request to a node has come with its metrics. -/
inductive Phase where
  /-- It is about to look for the counters of the node. -/
  | test
  /-- It found none, and has some registrations left to make. -/
  | register (left : List NodeMetric)
  /-- It has raised its own counter, and is about to insert the counters. -/
  | insert
  | send
  /-- It was forwarded. -/
  | answer
  | done
  | aborted
  deriving DecidableEq, Repr

/-- A request whose node is chosen: the name that stands for the host, the status of the
answer to come, if one comes, and the counters that it has raised. -/
structure Task where
  name : String
  status : Option StatusCode
  phase : Phase
  raised : List String
  deriving DecidableEq, Repr

/-- The registered names, the keys of `MATCHING_COUNTERS`, the global counters that were
registered and those whose registration failed, and the requests. All counters that are
stored for a name are one and the same, so the keys stand for them. -/
structure State where
  registered : Finset String
  matchingCounters : Finset String
  forced : Finset GlobalMetric
  poisoned : Finset GlobalMetric
  tasks : List Task

/-- A registration that is attempted, and whether its name was taken. -/
structure Registration where
  name : String
  taken : Bool
  deriving DecidableEq, Repr

/-- Use a global counter: the first use registers it, and it panics when that fails, like
every use after it. Returns whether there is a counter to use. -/
def force (state : State) (global : GlobalMetric) : Option Registration × Bool × State :=
  if global ∈ state.poisoned then (none, false, state)
  else if global ∈ state.forced then (none, true, state)
  else if global.name ∈ state.registered then
    (some ⟨global.name, true⟩, false, { state with poisoned := insert global state.poisoned })
  else
    (some ⟨global.name, false⟩, true, { state with
      registered := insert global.name state.registered
      forced := insert global state.forced })

/-- The counters that an answer raises. -/
def answeredBy (status : StatusCode) : Option (GlobalMetric × NodeMetric) :=
  if status.isSuccess then some (.successNodeResponses, .success)
  else if status.isClientError then some (.clientErrorNodeResponses, .clientError)
  else if status.isServerError then some (.serverErrorNodeResponses, .serverError)
  else none

/-- The next step of a request. Each step is one critical section or one registration. -/
def move (state : State) (task : Task) : Option Registration × Task × State :=
  match task.phase with
  | .test =>
    if task.name ∈ state.matchingCounters then
      -- the counter is raised under the read lock of the test
      (none, { task with phase := .send, raised := [NodeMetric.processed.name task.name] }, state)
    else (none, { task with phase := .register NodeMetric.all }, state)
  | .register [] =>
    (none, { task with phase := .insert, raised := [NodeMetric.processed.name task.name] }, state)
  | .register (metric :: left) =>
    if metric.name task.name ∈ state.registered then
      -- `unwrap` on the failed registration
      (some ⟨metric.name task.name, true⟩, { task with phase := .aborted }, state)
    else
      (some ⟨metric.name task.name, false⟩, { task with phase := .register left },
        { state with registered := insert (metric.name task.name) state.registered })
  | .insert =>
    (none, { task with phase := .send },
      { state with matchingCounters := insert task.name state.matchingCounters })
  | .send => (none, { task with phase := .answer }, state)
  | .answer =>
    match task.status with
    | none => (none, { task with phase := .done }, state)
    | some status =>
      if task.name ∉ state.matchingCounters then (none, { task with phase := .aborted }, state)
      else
        match answeredBy status with
        | none => (none, { task with phase := .done }, state)
        | some (global, metric) =>
          let used := force state global
          if used.2.1 then
            (used.1, { task with
              phase := .done
              raised := task.raised ++ [global.name, metric.name task.name] }, used.2.2)
          else (used.1, { task with phase := .aborted }, used.2.2)
  | .done => (none, task, state)
  | .aborted => (none, task, state)

/-! ## The answer -/

/-- The step after the answer of a node, with the metrics as it finds them: whether the request
survives it. `name` stands for the host of the node. -/
def countsAnswer (state : State) (name : String) (status : StatusCode) : Bool :=
  (move state ⟨name, some status, .answer, []⟩).2.1.phase ≠ .aborted

/-- The counters of an answer can be raised: those of the host are stored, and the global one of
the status was registered at an earlier use, or its name is free. -/
structure CanCount (state : State) (name : String) (status : StatusCode) : Prop where
  stored : name ∈ state.matchingCounters
  usable : ∀ global metric, answeredBy status = some (global, metric) →
    global ∉ state.poisoned ∧ (global ∈ state.forced ∨ global.name ∉ state.registered)

/-- A global counter can be used unless its registration has failed or fails now. -/
theorem force_usable_iff (state : State) (global : GlobalMetric) :
    (force state global).2.1 = true ↔
      global ∉ state.poisoned ∧ (global ∈ state.forced ∨ global.name ∉ state.registered) := by
  unfold force
  by_cases hpoisoned : global ∈ state.poisoned
  · simp [hpoisoned]
  · by_cases hforced : global ∈ state.forced
    · simp [hpoisoned, hforced]
    · -- the first use, which registers it
      by_cases htaken : global.name ∈ state.registered
      · simp [hpoisoned, hforced, htaken]
      · simp [hpoisoned, hforced, htaken]

theorem countsAnswer_iff (state : State) (name : String) (status : StatusCode) :
    countsAnswer state name status = true ↔ CanCount state name status := by
  unfold countsAnswer
  rw [decide_eq_true_iff]
  simp only [move]
  by_cases hstored : name ∈ state.matchingCounters
  · rw [if_neg (not_not.mpr hstored)]
    cases hanswered : answeredBy status with
    | none =>
      -- no counter is raised for such a status
      refine iff_of_true nofun ⟨hstored, ?_⟩
      rw [hanswered]
      exact nofun
    | some counters =>
      obtain ⟨global, metric⟩ := counters
      dsimp only
      by_cases husable : (force state global).2.1 = true
      · rw [if_pos husable]
        refine iff_of_true nofun ⟨hstored, ?_⟩
        rintro global' metric' hsame
        obtain ⟨rfl, rfl⟩ := Prod.mk.inj (Option.some.inj (hanswered.symm.trans hsame))
        exact (force_usable_iff state global).mp husable
      · rw [if_neg husable]
        refine iff_of_false (not_not.mpr rfl) fun h => husable ?_
        exact (force_usable_iff state global).mpr (h.usable global metric hanswered)
  · rw [if_pos hstored]
    exact iff_of_false (not_not.mpr rfl) fun h => hstored h.stored

end AntelopeFirewall.Metrics
