import AntelopeFirewall.Config.Basic
import AntelopeFirewall.Metrics.Counters

/-!
# Node Metrics

Requests that are on their way to a node at the same time share its counters.

- `name_inj` and `eq_responses_of_name_eq` say which of the names can coincide,
- `step` lets any number of requests take their steps one at a time.
-/

namespace AntelopeFirewall.Metrics

/-! ## Names -/

/-- The names that are registered while a firewall is built: those of its filter and of its
limiters. -/
def builtNames (config : Config) : List String :=
  ["filter_Filter_processed", "filter_Filter_denied", "filter_Filter_accepted"] ++
    config.ratelimit.flatMap fun ratelimit =>
      ["ratelimiter_" ++ ratelimit.name ++ "_processed",
        "ratelimiter_" ++ ratelimit.name ++ "_denied",
        "ratelimiter_" ++ ratelimit.name ++ "_accepted"]

theorem ending_inj {metric metric' : NodeMetric}
    (h : metric.ending.toList <:+ metric'.ending.toList) : metric = metric' := by
  cases metric <;> cases metric' <;> first
    | rfl
    | exact absurd h (by decide)

/-- The name of a counter of a node tells which counter of which node it is. -/
theorem name_inj {metric metric' : NodeMetric} {n n' : String}
    (h : metric.name n = metric'.name n') : metric = metric' ∧ n = n' := by
  have hlist : ("node_".toList ++ n.toList) ++ metric.ending.toList =
      ("node_".toList ++ n'.toList) ++ metric'.ending.toList := by
    have htexts := congrArg String.toList h
    unfold NodeMetric.name at htexts
    simpa only [String.toList_append] using htexts
  -- of two ends of one name one is an end of the other
  have hmetric : metric = metric' := by
    rcases List.suffix_or_suffix_of_suffix (List.suffix_append _ metric.ending.toList)
      (hlist ▸ List.suffix_append _ metric'.ending.toList) with hends | hends
    · exact ending_inj hends
    · exact (ending_inj hends).symm
  refine ⟨hmetric, ?_⟩
  rw [hmetric] at hlist
  exact String.toList_inj.mp (List.append_cancel_left (List.append_cancel_right hlist))

/-- The counters of the requests as such are named otherwise than those of the nodes. -/
theorem name_ne_reqs {metric : NodeMetric} {n : String} {global : GlobalMetric}
    (h : global = .requestsReceived ∨ global = .requestsFailedToRoute) :
    metric.name n ≠ global.name := by
  intro hsame
  have hn : (metric.name n).toList.head? = some 'n' := by
    unfold NodeMetric.name
    simp
  rw [hsame] at hn
  rcases h with rfl | rfl
  · cases hn
  · cases hn

/-- The only host whose counters are named like other ones. -/
theorem eq_responses_of_name_eq {metric : NodeMetric} {n : String} {global : GlobalMetric}
    (h : metric.name n = global.name) : n = "responses" := by
  cases global with
  | requestsReceived => exact absurd h (name_ne_reqs (.inl rfl))
  | requestsFailedToRoute => exact absurd h (name_ne_reqs (.inr rfl))
  | clientErrorNodeResponses =>
    exact (name_inj (h.trans (show _ = NodeMetric.clientError.name "responses" from rfl))).2
  | serverErrorNodeResponses =>
    exact (name_inj (h.trans (show _ = NodeMetric.serverError.name "responses" from rfl))).2
  | successNodeResponses =>
    exact (name_inj (h.trans (show _ = NodeMetric.success.name "responses" from rfl))).2

theorem global_name_inj {global global' : GlobalMetric} (h : global.name = global'.name) :
    global = global' := by
  cases global <;> cases global' <;> first
    | rfl
    | exact absurd h (by decide)

/-- What a firewall registers while it is built starts otherwise. -/
theorem builtNames_start {config : Config} {text : String} (h : text ∈ builtNames config) :
    text.toList.take 2 = ['f', 'i'] ∨ text.toList.take 2 = ['r', 'a'] := by
  unfold builtNames at h
  rcases List.mem_append.mp h with hfilter | hlimiter
  · left
    simp only [List.mem_cons, List.not_mem_nil, or_false] at hfilter
    rcases hfilter with rfl | rfl | rfl
    · rfl
    · rfl
    · rfl
  · right
    obtain ⟨ratelimit, -, hname⟩ := List.mem_flatMap.mp hlimiter
    simp only [List.mem_cons, List.not_mem_nil, or_false] at hname
    rcases hname with rfl | rfl | rfl
    · simp
    · simp
    · simp

theorem name_not_built (config : Config) (metric : NodeMetric) (n : String) :
    metric.name n ∉ builtNames config := by
  intro h
  have hstart : (metric.name n).toList.take 2 = ['n', 'o'] := by
    unfold NodeMetric.name
    simp
  rcases builtNames_start h with hother | hother
  · rw [hstart] at hother
    cases hother
  · rw [hstart] at hother
    cases hother

theorem global_not_built (config : Config) (global : GlobalMetric) :
    global.name ∉ builtNames config := by
  intro h
  have hstart : ∀ global : GlobalMetric, global.name.toList.take 2 ≠ ['f', 'i'] ∧
      global.name.toList.take 2 ≠ ['r', 'a'] := by
    intro global
    cases global <;> decide
  rcases builtNames_start h with hother | hother
  · exact (hstart global).1 hother
  · exact (hstart global).2 hother

/-! ## Requests on their way -/

variable (isAlphanumeric : Char → Bool)

/-- A request for which a node was just chosen, with the URL of the node. -/
def Task.chosen (url : Url) (status : Option StatusCode) : Task :=
  ⟨prometheusUrlName isAlphanumeric url, status, .test, []⟩

/-- What happens next: a request is received, or cannot be routed, or its node is chosen, with
the URL of the node, or one of the requests on their way takes its next step. -/
inductive Event where
  | receive
  | unrouted
  | choose (url : Url) (status : Option StatusCode)
  | advance (i : Nat)
  deriving DecidableEq, Repr

/-- One event, with the registration that it attempts. -/
def step (state : State) : Event → Option Registration × State
  | .receive => ((force state .requestsReceived).1, (force state .requestsReceived).2.2)
  | .unrouted =>
    ((force state .requestsFailedToRoute).1, (force state .requestsFailedToRoute).2.2)
  | .choose url status =>
    (none, { state with tasks := state.tasks ++ [.chosen isAlphanumeric url status] })
  | .advance i =>
    match state.tasks[i]? with
    | none => (none, state)
    | some task =>
      let moved := move state task
      (moved.1, { moved.2.2 with tasks := state.tasks.set i moved.2.1 })

/-- The use of a global counter leaves the requests and the counters of the hosts alone. -/
theorem force_frame (state : State) (global : GlobalMetric) :
    (force state global).2.2.tasks = state.tasks ∧
      (force state global).2.2.matchingCounters = state.matchingCounters := by
  unfold force
  split_ifs
  · exact ⟨rfl, rfl⟩
  · exact ⟨rfl, rfl⟩
  · exact ⟨rfl, rfl⟩
  · exact ⟨rfl, rfl⟩

/-- Before the first request. -/
def initial (config : Config) : State := ⟨(builtNames config).toFinset, ∅, ∅, ∅, []⟩

end AntelopeFirewall.Metrics
