import AntelopeFirewall.Library.Machine
import AntelopeFirewall.Metrics.Basic

/-!
# The Counters of an Answer

A request that comes back raises the counters of its answer, and panics when there are none. The
first use of a global counter registers it, so it matters what was registered before.

- `AvoidsResponses` is the condition on a step, `Accounted` the invariant,
- `Accounted.move` is about the steps of a request, one case for each phase,
- `answers_counted` says that no answer fails on its counters unless a host stands for
  `responses`, however the requests get into each other's way.
-/

namespace AntelopeFirewall.Metrics

open Library

variable (isAlphanumeric : Char → Bool)

/-- The node that is chosen does not stand for `responses`. -/
def AvoidsResponses : Event → Prop
  | .choose url _ => prometheusUrlName isAlphanumeric url ≠ "responses"
  | _ => True

instance : ∀ event, Decidable (AvoidsResponses isAlphanumeric event)
  | .choose url _ => inferInstanceAs (Decidable (prometheusUrlName isAlphanumeric url ≠ _))
  | .receive => inferInstanceAs (Decidable True)
  | .unrouted => inferInstanceAs (Decidable True)
  | .advance _ => inferInstanceAs (Decidable True)

/-- A request that was sent finds the counters of its host, and every registered name is one of
the firewall's own, one of a global counter in use, or one of a host that is not `responses`. -/
structure Accounted (config : Config) (state : State) : Prop where
  apart : ∀ task ∈ state.tasks, task.name ≠ "responses"
  stored : ∀ task ∈ state.tasks, task.phase = .send ∨ task.phase = .answer →
    task.name ∈ state.matchingCounters
  unpoisoned : state.poisoned = ∅
  named : ∀ text ∈ state.registered, text ∈ builtNames config ∨
    (∃ global ∈ state.forced, text = global.name) ∨
    ∃ (metric : NodeMetric) (n : String), text = metric.name n ∧ n ≠ "responses"

theorem accounted_initial (config : Config) : Accounted config (initial config) where
  apart := by simp [initial]
  stored := by simp [initial]
  unpoisoned := rfl
  named := fun _ htext => .inl (List.mem_toFinset.mp htext)

section Steps

variable {config : Config} {state : State} (h : Accounted config state)

include h

/-- Every global counter can be used. -/
theorem Accounted.usable (global : GlobalMetric) :
    global ∉ state.poisoned ∧ (global ∈ state.forced ∨ global.name ∉ state.registered) := by
  refine ⟨by simp [h.unpoisoned], ?_⟩
  by_cases hforced : global ∈ state.forced
  · exact .inl hforced
  · refine .inr fun hregistered => ?_
    rcases h.named _ hregistered with hbuilt | ⟨other, hother, hsame⟩ | ⟨metric, n, hsame, hn⟩
    · exact global_not_built config global hbuilt
    · exact hforced (global_name_inj hsame ▸ hother)
    · -- only a host that stands for `responses` takes the name of a global counter
      exact hn (eq_responses_of_name_eq hsame.symm)

theorem Accounted.force (global : GlobalMetric) :
    Accounted config (force state global).2.2 := by
  obtain ⟨hclean, hfree⟩ := h.usable global
  unfold Metrics.force
  rw [if_neg hclean]
  split_ifs with hforced hregistered
  · exact h
  · exact absurd hregistered (hfree.resolve_left hforced)
  · -- its first use
    exact { h with
      named := by
        intro text htext
        rcases Finset.mem_insert.mp htext with rfl | hold
        · exact .inr (.inl ⟨global, Finset.mem_insert_self .., rfl⟩)
        · refine (h.named text hold).imp_right fun hnamed => hnamed.imp_left ?_
          rintro ⟨other, hother, hsame⟩
          exact ⟨other, Finset.mem_insert_of_mem hother, hsame⟩ }

/-- The registration of a counter of a host. -/
theorem Accounted.register (metric : NodeMetric) {n : String} (hn : n ≠ "responses") :
    Accounted config { state with registered := insert (metric.name n) state.registered } :=
  { h with
    named := by
      intro text htext
      rcases Finset.mem_insert.mp htext with rfl | hold
      · exact .inr (.inr ⟨metric, n, rfl, hn⟩)
      · exact h.named text hold }

/-- A request takes a step, and is sent only with the counters of its host in the map. -/
theorem Accounted.update {i : Nat} {task : Task} (hi : state.tasks[i]? = some task)
    {phase : Phase} {raised : List String} {matching : Finset String}
    (hgrows : state.matchingCounters ⊆ matching)
    (hsent : phase = .send ∨ phase = .answer → task.name ∈ matching) :
    Accounted config { state with
      matchingCounters := matching
      tasks := state.tasks.set i { task with phase := phase, raised := raised } } :=
  { h with
    apart := by
      intro other hother
      rcases List.mem_or_eq_of_mem_set hother with hold | rfl
      · exact h.apart other hold
      · exact h.apart task (List.mem_of_getElem? hi)
    stored := by
      intro other hother hphase
      rcases List.mem_or_eq_of_mem_set hother with hold | rfl
      · exact hgrows (h.stored other hold hphase)
      · exact hsent hphase }

/-- **Step**: the next step of a request leaves the names accounted for. -/
theorem Accounted.move {i : Nat} {task : Task} (hi : state.tasks[i]? = some task) :
    Accounted config
      { (move state task).2.2 with tasks := state.tasks.set i (move state task).2.1 } := by
  have htask : task ∈ state.tasks := List.mem_of_getElem? hi
  have hsame := Finset.Subset.refl state.matchingCounters
  obtain ⟨name, status, phase, raised⟩ := task
  cases phase with
  | test =>
    simp only [Metrics.move]
    split
    · next hstored => exact h.update hi hsame fun _ => hstored
    · exact h.update hi hsame (by simp)
  | register left =>
    cases left with
    | nil => exact h.update hi hsame (by simp)
    | cons metric left =>
      simp only [Metrics.move]
      split
      · -- the name is taken
        exact h.update hi hsame (by simp)
      · exact (h.register metric (h.apart _ htask)).update hi hsame (by simp)
  | insert =>
    exact h.update hi (Finset.subset_insert name _) fun _ => Finset.mem_insert_self ..
  | send => exact h.update hi hsame fun _ => h.stored _ htask (.inl rfl)
  | answer =>
    simp only [Metrics.move]
    split
    · exact h.update hi hsame (by simp)
    · split
      · exact h.update hi hsame (by simp)
      · split
        · exact h.update hi hsame (by simp)
        · next global metric hanswered =>
          -- the use of the global counter comes first
          have hforced := h.force global
          rw [← (force_frame state global).1] at hi ⊢
          split
          · exact hforced.update hi (Finset.Subset.refl _) (by simp)
          · exact hforced.update hi (Finset.Subset.refl _) (by simp)
  | done => exact h.update hi hsame (by simp)
  | aborted => exact h.update hi hsame (by simp)

theorem Accounted.step (event : Event) (havoids : AvoidsResponses isAlphanumeric event) :
    Accounted config (step isAlphanumeric state event).2 := by
  -- By the event: only a request that advances can come to wait for its answer.
  cases event with
  | receive => exact h.force .requestsReceived
  | unrouted => exact h.force .requestsFailedToRoute
  | choose url status =>
    exact { h with
      apart := by
        intro task htask
        rcases List.mem_append.mp htask with hold | hnew
        · exact h.apart task hold
        · rw [List.mem_singleton.mp hnew]
          exact havoids
      stored := by
        intro task htask hphase
        rcases List.mem_append.mp htask with hold | hnew
        · exact h.stored task hold hphase
        · -- a request whose node was just chosen was not sent yet
          rw [List.mem_singleton.mp hnew] at hphase
          rcases hphase with hphase | hphase
          · cases hphase
          · cases hphase }
  | advance i =>
    simp only [Metrics.step]
    split
    · exact h
    · next task hi => exact h.move hi

end Steps

/-- **Answers are counted**: in any run in which no chosen node stands for `responses`, the counters
of an answer can be raised whenever a request that was sent comes back, whatever the status is. -/
theorem answers_counted (config : Config) (events : List Event)
    (havoids : ∀ event ∈ events, AvoidsResponses isAlphanumeric event) (task : Task)
    (htask : task ∈ (Machine.final (step isAlphanumeric) (initial config) events).tasks)
    (hsent : task.phase = .answer) (status : StatusCode) :
    CanCount (Machine.final (step isAlphanumeric) (initial config) events) task.name status := by
  have hsteps : Machine.AtEachStep (step isAlphanumeric) (initial config) events
      (fun _ event => AvoidsResponses isAlphanumeric event) := by
    rintro before event after rfl
    exact havoids event (List.mem_append_right _ (List.mem_cons_self ..))
  have haccounted := (Machine.atEachStep_invariant (step isAlphanumeric) (Accounted config)
    (fun _ => True) (fun _ event => AvoidsResponses isAlphanumeric event)
    (fun state event h hevent => ⟨h.step isAlphanumeric event hevent, trivial⟩)
    (accounted_initial config) hsteps).1
  exact ⟨haccounted.stored task htask (.inr hsent), fun global _ _ => haccounted.usable global⟩

/-- The steps of a request to a host, up to its answer. -/
def sentTo (host : String) : List Event :=
  .choose { getOne.url with hostStr := some host } (some 404) :: List.replicate 8 (.advance 0)

/-- A request to the local node comes back with a status that is counted. -/
theorem answers_counted_getOne :
    CanCount (Machine.final (step Text.isAsciiAlphanumeric) (initial (oneGetNode []))
      (sentTo "127.0.0.1")) "127_0_0_1" 404 := by
  have hone : ((Machine.final (step Text.isAsciiAlphanumeric) (initial (oneGetNode []))
      (sentTo "127.0.0.1")).tasks.map fun task => (task.name, task.phase)) =
        [("127_0_0_1", .answer)] := by decide +kernel
  obtain ⟨task, htask, hmarks⟩ := List.mem_map.mp (hone ▸ List.mem_singleton_self _)
  obtain ⟨hname, hphase⟩ := Prod.mk.inj hmarks
  rw [← hname]
  exact answers_counted Text.isAsciiAlphanumeric (oneGetNode []) (sentTo "127.0.0.1")
    (by decide +kernel) task htask hphase 404

-- the host `responses` has registered the name of the global counter of such an answer
example : ¬ CanCount (Machine.final (step Text.isAsciiAlphanumeric) (initial (oneGetNode []))
    (sentTo "responses")) "responses" 404 := by
  rw [← countsAnswer_iff]
  decide +kernel

end AntelopeFirewall.Metrics
