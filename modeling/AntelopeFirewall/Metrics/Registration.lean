import AntelopeFirewall.Metrics.Basic
import AntelopeFirewall.Library.Machine

/-!
# The Registration of Node Metrics

The test for the counters of a host and their insertion are two critical sections, and the
registration between them is done once only if no other request gets in between.

- `Apart` is the condition on a step,
- `Inv` is what the registered names have to do with the requests: `Inv.update` moves one
  request, `Inv.register` and `Inv.force` add a name,
- `move_test` to `move_answer` are the steps of a request, one for each phase,
- `registered_once` says in which runs no name is registered twice.
-/

namespace AntelopeFirewall.Metrics

open Library

variable (isAlphanumeric : Char → Bool)

/-! ## The condition -/

/-- The request is between its failed test and its insertion. -/
def Task.registering (task : Task) : Bool :=
  match task.phase with
  | .register _ => true
  | .insert => true
  | _ => false

/-- While a host stands for `responses`, no node gives an answer that is counted. -/
def Clear (tasks : List Task) : Prop :=
  ∀ task ∈ tasks, ∀ other ∈ tasks, task.name = "responses" → other.status.bind answeredBy = none

/-- A request that finds no counters for its host is at that moment the only one that is about
to insert them, and no host brings the counters of the answers into conflict. -/
def Apart (state : State) : Event → Prop
  | .choose url status => Clear (state.tasks ++ [.chosen isAlphanumeric url status])
  | .advance i => ∀ task ∈ state.tasks[i]?, task.phase = .test →
    task.name ∉ state.matchingCounters →
    ∀ other ∈ state.tasks, other.name = task.name → other.registering = false
  | _ => True

instance (tasks : List Task) : Decidable (Clear tasks) := by
  unfold Clear
  infer_instance

instance (state : State) : ∀ event, Decidable (Apart isAlphanumeric state event)
  | .receive => inferInstanceAs (Decidable True)
  | .unrouted => inferInstanceAs (Decidable True)
  | .choose url status =>
    inferInstanceAs (Decidable (Clear (state.tasks ++ [.chosen isAlphanumeric url status])))
  | .advance i =>
    inferInstanceAs (Decidable (∀ task ∈ state.tasks[i]?, task.phase = .test →
      task.name ∉ state.matchingCounters →
      ∀ other ∈ state.tasks, other.name = task.name → other.registering = false))

/-! ## The invariant -/

/-- The request has raised the counter of the requests to its node. -/
def Task.counted (task : Task) : Bool :=
  match task.phase with
  | .insert | .send | .answer | .done => true
  | _ => false

/-- The request was sent to its node. -/
def Task.forwarded (task : Task) : Bool :=
  match task.phase with
  | .answer | .done => true
  | _ => false

/-- The request has registered a counter that it has not inserted yet. -/
def Task.Made (task : Task) (metric : NodeMetric) : Prop :=
  match task.phase with
  | .register left => metric ∉ left
  | .insert => True
  | _ => False

theorem Task.Made.registering {task : Task} {metric : NodeMetric} (h : task.Made metric) :
    task.registering = true := by
  unfold Task.Made at h
  unfold Task.registering
  split at h
  · rfl
  · rfl
  · exact h.elim

/-- What a request knows about the stored counters. -/
structure Sound (matchingCounters : Finset String) (task : Task) : Prop where
  alive : task.phase ≠ .aborted
  left : ∀ left, task.phase = .register left → left <:+ NodeMetric.all
  absent : task.registering = true → task.name ∉ matchingCounters
  present : task.phase = .send ∨ task.phase = .answer → task.name ∈ matchingCounters
  unraised : task.counted = false → task.raised = []
  raised : task.counted = true → ∀ n, task.raised.count (NodeMetric.processed.name n) =
    if n = task.name then 1 else 0

/-- The counters of a node that are registered are stored, or some request made them. -/
def Covered (state : State) (metric : NodeMetric) (n : String) : Prop :=
  n ∈ state.matchingCounters ∨ ∃ task ∈ state.tasks, task.name = n ∧ task.Made metric

/-- The registered names and the requests, while no name is registered twice. -/
structure Inv (config : Config) (state : State) : Prop where
  sound : ∀ task ∈ state.tasks, Sound state.matchingCounters task
  /-- No two requests are registering the counters of one host. -/
  alone : ∀ {i j : Nat} {task other : Task}, state.tasks[i]? = some task →
    state.tasks[j]? = some other → task.registering = true → other.registering = true →
    task.name = other.name → i = j
  /-- Counters are stored by requests only. -/
  stored : ∀ n ∈ state.matchingCounters, ∃ task ∈ state.tasks, task.name = n
  unpoisoned : state.poisoned = ∅
  clear : Clear state.tasks
  /-- A counter of the answers is registered for an answer. -/
  forced : ∀ global ∈ state.forced,
    (global = .requestsReceived ∨ global = .requestsFailedToRoute) ∨
      ∃ task ∈ state.tasks, task.status.bind answeredBy ≠ none
  /-- Every registered name is accounted for. -/
  named : ∀ text ∈ state.registered, text ∈ builtNames config ∨
    (∃ global ∈ state.forced, text = global.name) ∨
    ∃ metric n, text = metric.name n ∧ Covered state metric n

theorem initial_inv (config : Config) : Inv config (initial config) where
  sound := by simp [initial]
  alone := by simp [initial]
  stored := by simp [initial]
  unpoisoned := rfl
  clear := by simp [initial, Clear]
  forced := by simp [initial]
  named := by
    intro text htext
    exact .inl (List.mem_toFinset.mp htext)

/-- What is left of a list of parties when one of them has taken a step. -/
theorem getElem?_set_eq_some {α : Type} {xs : List α} {i j : Nat} {x x' other : α}
    (hi : xs[i]? = some x) :
    (xs.set i x')[j]? = some other ↔ (j = i ∧ other = x') ∨ (j ≠ i ∧ xs[j]? = some other) := by
  obtain ⟨hlt, -⟩ := List.getElem?_eq_some_iff.mp hi
  rw [List.getElem?_set]
  by_cases hij : i = j
  · subst hij
    simp [hlt, eq_comm]
  · simp [hij, Ne.symm hij]

theorem mem_set_of_getElem? {α : Type} {xs : List α} {i : Nat} {x x' : α}
    (hi : xs[i]? = some x) : x' ∈ xs.set i x' :=
  List.mem_iff_getElem?.mpr ⟨i, (getElem?_set_eq_some hi).mpr (.inl ⟨rfl, rfl⟩)⟩

/-- Only the party that has taken the step may be gone. -/
theorem eq_or_mem_set {α : Type} {xs : List α} {i : Nat} {x x' other : α}
    (hi : xs[i]? = some x) (h : other ∈ xs) : other = x ∨ other ∈ xs.set i x' := by
  obtain ⟨j, hj⟩ := List.mem_iff_getElem?.mp h
  by_cases hji : j = i
  · subst hji
    exact .inl (Option.some.inj (hj.symm.trans hi))
  · exact .inr (List.mem_iff_getElem?.mpr ⟨j, (getElem?_set_eq_some hi).mpr (.inr ⟨hji, hj⟩)⟩)

section Update

variable {config : Config} {state : State} {i : Nat} {task task' : Task}
  (hinv : Inv config state) (hi : state.tasks[i]? = some task)
  (hname : task'.name = task.name) (hstatus : task'.status = task.status)

include hi hname hstatus in
/-- Names and statuses of the requests stay. -/
theorem exists_set {other : Task} (h : other ∈ state.tasks) :
    ∃ other' ∈ state.tasks.set i task',
      other'.name = other.name ∧ other'.status = other.status := by
  rcases eq_or_mem_set hi h with rfl | hmem
  · -- the request that moved stands for what it was
    exact ⟨task', mem_set_of_getElem? hi, hname, hstatus⟩
  · exact ⟨other, hmem, rfl, rfl⟩

include hi hname hstatus in
theorem exists_of_set {other : Task} (h : other ∈ state.tasks.set i task') :
    ∃ other' ∈ state.tasks, other'.name = other.name ∧ other'.status = other.status := by
  rcases List.mem_or_eq_of_mem_set h with hold | rfl
  · exact ⟨other, hold, rfl, rfl⟩
  · exact ⟨task, List.mem_of_getElem? hi, hname.symm, hstatus.symm⟩

include hinv hi in
/-- A request that is registering has another name than one that inserts. -/
theorem Inv.sound_others {matching' : Finset String}
    (hmatching : matching' = state.matchingCounters ∨
      task.registering = true ∧ matching' = insert task.name state.matchingCounters)
    {j : Nat} {other : Task} (hj : state.tasks[j]? = some other) (hne : j ≠ i) :
    Sound matching' other := by
  have hother := hinv.sound other (List.mem_of_getElem? hj)
  rcases hmatching with rfl | ⟨hmine, rfl⟩
  · exact hother
  · refine { hother with absent := ?_, present := ?_ }
    · intro hregistering
      rw [Finset.mem_insert]
      rintro (hsame | hold)
      · exact hne (hinv.alone hj hi hregistering hmine hsame)
      · exact hother.absent hregistering hold
    · intro h
      exact Finset.mem_insert_of_mem (hother.present h)

include hinv hi hname in
/-- A request that registers after its step was registering before, or it is alone now. -/
theorem Inv.alone_set
    (halone : task'.registering = true → task.registering = true ∨
      ∀ other ∈ state.tasks, other.name = task.name → other.registering = false)
    {j k : Nat} {first second : Task} (hj : (state.tasks.set i task')[j]? = some first)
    (hk : (state.tasks.set i task')[k]? = some second) (hfirst : first.registering = true)
    (hsecond : second.registering = true) (hsame : first.name = second.name) : j = k := by
  -- A task that has just begun to register finds no other one of its name registering.
  have hmoved : ∀ k other, state.tasks[k]? = some other → k ≠ i → task'.registering = true →
      other.registering = true → other.name ≠ task.name := by
    intro k other hk hne hmine hregistering hsame
    rcases halone hmine with hbefore | hnone
    · exact hne (hinv.alone hk hi hregistering hbefore hsame)
    · rw [hnone other (List.mem_of_getElem? hk) hsame] at hregistering
      cases hregistering
  -- The two tasks are the one that moved, or two that were there before.
  rcases (getElem?_set_eq_some hi).mp hj with ⟨rfl, rfl⟩ | ⟨hjne, hjold⟩
  · rcases (getElem?_set_eq_some hi).mp hk with ⟨rfl, rfl⟩ | ⟨hkne, hkold⟩
    · rfl
    · exact absurd (hsame.symm.trans hname) (hmoved k second hkold hkne hfirst hsecond)
  · rcases (getElem?_set_eq_some hi).mp hk with ⟨rfl, rfl⟩ | ⟨-, hkold⟩
    · exact absurd (hsame.trans hname) (hmoved j first hjold hjne hsecond hfirst)
    · exact hinv.alone hjold hkold hfirst hsecond hsame

include hi hname in
/-- Counters stay accounted for: what a request made is still its own, or stored now. -/
theorem Covered.update {matching' : Finset String} (hgrows : state.matchingCounters ⊆ matching')
    (hmade : ∀ metric, task.Made metric → task'.Made metric ∨ task.name ∈ matching')
    {metric : NodeMetric} {n : String} (h : Covered state metric n) :
    Covered { state with
      matchingCounters := matching'
      tasks := state.tasks.set i task' } metric n := by
  rcases h with hn | ⟨other, hother, rfl, hmetric⟩
  · exact .inl (hgrows hn)
  · rcases eq_or_mem_set hi hother with rfl | hmem
    · rcases hmade metric hmetric with hkept | hin
      · exact .inr ⟨task', mem_set_of_getElem? hi, hname, hkept⟩
      · exact .inl hin
    · exact .inr ⟨other, hmem, rfl, hmetric⟩

include hinv hi hname hstatus in
/-- A request takes a step, in which it may insert the counters that it registered. -/
theorem Inv.update {matching' : Finset String} (hsound : Sound matching' task')
    (hmatching : matching' = state.matchingCounters ∨
      task.registering = true ∧ matching' = insert task.name state.matchingCounters)
    (halone : task'.registering = true → task.registering = true ∨
      ∀ other ∈ state.tasks, other.name = task.name → other.registering = false)
    (hmade : ∀ metric, task.Made metric → task'.Made metric ∨ task.name ∈ matching') :
    Inv config { state with
      matchingCounters := matching'
      tasks := state.tasks.set i task' } := by
  have htask : task ∈ state.tasks := List.mem_of_getElem? hi
  have hgrows : state.matchingCounters ⊆ matching' := by
    rcases hmatching with rfl | ⟨-, rfl⟩
    · exact Finset.Subset.refl _
    · exact Finset.subset_insert _ _
  constructor
  case sound =>
    intro other hother
    obtain ⟨j, hj⟩ := List.mem_iff_getElem?.mp hother
    rcases (getElem?_set_eq_some hi).mp hj with ⟨-, rfl⟩ | ⟨hne, hold⟩
    · exact hsound
    · exact hinv.sound_others hi hmatching hold hne
  case alone => exact hinv.alone_set hi hname halone
  case stored =>
    intro n hn
    -- the name that is inserted is that of the request itself
    have hold : ∃ other ∈ state.tasks, other.name = n := by
      rcases hmatching with rfl | ⟨-, rfl⟩
      · exact hinv.stored n hn
      · rcases Finset.mem_insert.mp hn with rfl | hn
        · exact ⟨task, htask, rfl⟩
        · exact hinv.stored n hn
    obtain ⟨other, hother, rfl⟩ := hold
    obtain ⟨other', hmem, hsame, -⟩ := exists_set hi hname hstatus hother
    exact ⟨other', hmem, hsame⟩
  case unpoisoned => exact hinv.unpoisoned
  case clear =>
    intro first hfirst second hsecond hresponses
    obtain ⟨first', hfirst', hsame, -⟩ := exists_of_set hi hname hstatus hfirst
    obtain ⟨second', hsecond', -, hanswer⟩ := exists_of_set hi hname hstatus hsecond
    rw [← hanswer]
    exact hinv.clear first' hfirst' second' hsecond' (hsame.trans hresponses)
  case forced =>
    intro global hglobal
    refine (hinv.forced global hglobal).imp_right ?_
    rintro ⟨other, hother, hcounted⟩
    obtain ⟨other', hmem, -, hanswer⟩ := exists_set hi hname hstatus hother
    exact ⟨other', hmem, hanswer ▸ hcounted⟩
  case named =>
    intro text htext
    refine (hinv.named text htext).imp_right fun h => h.imp_right ?_
    rintro ⟨metric, n, rfl, hcovered⟩
    exact ⟨metric, n, rfl, hcovered.update hi hname hgrows hmade⟩

end Update

/-- A name of a counter of a node that is not covered is not registered. -/
theorem Inv.name_not_registered {config : Config} {state : State} (hinv : Inv config state)
    {task : Task} (htask : task ∈ state.tasks) {metric : NodeMetric}
    (h : ¬ Covered state metric task.name) : metric.name task.name ∉ state.registered := by
  intro hregistered
  rcases hinv.named _ hregistered with
    hbuilt | ⟨global, hglobal, hsame⟩ | ⟨metric', n, hsame, hcovered⟩
  · exact name_not_built config metric task.name hbuilt
  · -- a counter of the answers, of a host that stands for `responses`
    rcases hinv.forced global hglobal with hreqs | ⟨other, hother, hcounted⟩
    · exact name_ne_reqs hreqs hsame
    · exact hcounted (hinv.clear task htask other hother (eq_responses_of_name_eq hsame))
  · obtain ⟨rfl, rfl⟩ := name_inj hsame
    exact h hcovered

/-- The registration of a covered counter. -/
theorem Inv.register {config : Config} {state : State} (hinv : Inv config state)
    {metric : NodeMetric} {n : String} (h : Covered state metric n) :
    Inv config { state with registered := insert (metric.name n) state.registered } where
  sound := hinv.sound
  alone := hinv.alone
  stored := hinv.stored
  unpoisoned := hinv.unpoisoned
  clear := hinv.clear
  forced := hinv.forced
  named := by
    intro text htext
    rcases Finset.mem_insert.mp htext with rfl | hold
    · exact .inr (.inr ⟨metric, n, rfl, h⟩)
    · exact hinv.named text hold

/-- A global counter that is used can be used, and its registration does not fail. -/
theorem Inv.force {config : Config} {state : State} (hinv : Inv config state)
    {global : GlobalMetric}
    (hused : (global = .requestsReceived ∨ global = .requestsFailedToRoute) ∨
      ∃ task ∈ state.tasks, task.status.bind answeredBy ≠ none) :
    (∀ registration, (force state global).1 = some registration → registration.taken = false) ∧
      (force state global).2.1 = true ∧ Inv config (force state global).2.2 := by
  -- No creation has failed, so the metric is there already or its name is looked up.
  have hclean : global ∉ state.poisoned := by
    rw [hinv.unpoisoned]
    exact Finset.notMem_empty global
  unfold Metrics.force
  rw [if_neg hclean]
  by_cases hforced : global ∈ state.forced
  · rw [if_pos hforced]
    exact ⟨by simp, rfl, hinv⟩
  · have hfree : global.name ∉ state.registered := by
      intro hregistered
      -- The name is the firewall's own, a global one, or that of a node's counter.
      rcases hinv.named _ hregistered with
        hbuilt | ⟨global', hglobal', hsame⟩ | ⟨metric, n, hsame, hcovered⟩
      · exact global_not_built config global hbuilt
      · exact hforced (global_name_inj hsame ▸ hglobal')
      · -- a counter of a node, whose host stands for `responses`
        have hn : ∃ task ∈ state.tasks, task.name = n := by
          rcases hcovered with hn | ⟨task, htask, hn, -⟩
          · exact hinv.stored n hn
          · exact ⟨task, htask, hn⟩
        obtain ⟨task, htask, rfl⟩ := hn
        rcases hused with hreqs | ⟨other, hother, hcounted⟩
        · exact name_ne_reqs hreqs hsame.symm
        · exact hcounted (hinv.clear task htask other hother (eq_responses_of_name_eq hsame.symm))
    rw [if_neg hforced, if_neg hfree]
    refine ⟨?_, rfl, ?_⟩
    · rintro registration ⟨⟩
      rfl
    -- the metric and its name are the only news
    · exact { hinv with
        forced := by
          intro other hother
          rcases Finset.mem_insert.mp hother with rfl | hold
          · exact hused
          · exact hinv.forced other hold
        named := by
          intro text htext
          rcases Finset.mem_insert.mp htext with rfl | hold
          · exact .inr (.inl ⟨global, Finset.mem_insert_self .., rfl⟩)
          · rcases hinv.named text hold with hbuilt | ⟨other, hother, hsame⟩ | hnode
            · exact .inl hbuilt
            · exact .inr (.inl ⟨other, Finset.mem_insert_of_mem hother, hsame⟩)
            · exact .inr (.inr hnode) }

/-! ## The steps of a request -/

theorem count_processed (name n : String) :
    [NodeMetric.processed.name name].count (NodeMetric.processed.name n) =
      if n = name then 1 else 0 := by
  rw [List.count_singleton]
  by_cases hn : n = name
  · rw [hn]
    simp
  · have hne : NodeMetric.processed.name name ≠ NodeMetric.processed.name n :=
      fun h => hn (name_inj h).2.symm
    rw [if_neg hn, if_neg (by simpa using hne)]

/-- No other counter that a request raises is a processed counter. -/
theorem count_answered {status : StatusCode} {global : GlobalMetric} {metric : NodeMetric}
    (h : answeredBy status = some (global, metric)) (name n : String) :
    [global.name, metric.name name].count (NodeMetric.processed.name n) = 0 := by
  have hcases : (global = .successNodeResponses ∧ metric = .success) ∨
      (global = .clientErrorNodeResponses ∧ metric = .clientError) ∨
      (global = .serverErrorNodeResponses ∧ metric = .serverError) := by
    unfold answeredBy at h
    grind
  have hmetric : metric ≠ .processed ∧ global.name = metric.name "responses" := by
    rcases hcases with ⟨rfl, rfl⟩ | ⟨rfl, rfl⟩ | ⟨rfl, rfl⟩
    · exact ⟨nofun, rfl⟩
    · exact ⟨nofun, rfl⟩
    · exact ⟨nofun, rfl⟩
  have hne : ∀ m, NodeMetric.processed.name n ≠ metric.name m :=
    fun m hsame => hmetric.1 (name_inj hsame).1.symm
  rw [List.count_eq_zero, hmetric.2]
  simp [hne]

section Phases

variable {matchingCounters : Finset String} {task : Task}

/-- A request with registrations left to make. -/
theorem sound_register {left : List NodeMetric} (hphase : task.phase = .register left)
    (hleft : left <:+ NodeMetric.all) (habsent : task.name ∉ matchingCounters)
    (hraised : task.raised = []) : Sound matchingCounters task := by
  constructor
  case alive => simp [hphase]
  case left =>
    intro rest hrest
    rw [hphase] at hrest
    cases hrest
    exact hleft
  case absent => exact fun _ => habsent
  case present => simp [hphase]
  case unraised => exact fun _ => hraised
  case raised => simp [Task.counted, hphase]

/-- A request that has its counters from the map. -/
theorem sound_stored
    (hphase : task.phase = .send ∨ task.phase = .answer ∨ task.phase = .done)
    (hpresent : task.name ∈ matchingCounters)
    (hraised : ∀ n, task.raised.count (NodeMetric.processed.name n) =
      if n = task.name then 1 else 0) : Sound matchingCounters task := by
  have hregistering : task.registering = false := by
    rcases hphase with h | h | h <;> simp [Task.registering, h]
  have hcounted : task.counted = true := by
    rcases hphase with h | h | h <;> simp [Task.counted, h]
  constructor
  case alive => rcases hphase with h | h | h <;> simp [h]
  case left => rcases hphase with h | h | h <;> simp [h]
  case absent => simp [hregistering]
  case present => exact fun _ => hpresent
  case unraised => simp [hcounted]
  case raised => exact fun _ => hraised

end Phases

section Steps

variable {config : Config} {state : State} {i : Nat} {task : Task}

/-- The next step of request `i` registers no name twice and keeps the invariant. -/
def MovesWell (config : Config) (state : State) (i : Nat) (task : Task) : Prop :=
  (∀ registration, (move state task).1 = some registration → registration.taken = false) ∧
    Inv config { (move state task).2.2 with tasks := state.tasks.set i (move state task).2.1 }

variable (hinv : Inv config state) (hi : state.tasks[i]? = some task)

include hinv hi

/-- A request that registers nothing goes on with counters that are in the map. -/
theorem update_stored {task' : Task} (hmade : ∀ metric, ¬ task.Made metric)
    (hname : task'.name = task.name) (hstatus : task'.status = task.status)
    (hphase : task'.phase = .send ∨ task'.phase = .answer ∨ task'.phase = .done)
    (hpresent : task.name ∈ state.matchingCounters)
    (hraised : ∀ n, task'.raised.count (NodeMetric.processed.name n) =
      if n = task.name then 1 else 0) :
    Inv config { state with tasks := state.tasks.set i task' } := by
  refine hinv.update hi hname hstatus ?_ (.inl rfl) ?_ ?_
  · rw [← hname] at hpresent hraised
    exact sound_stored hphase hpresent hraised
  · rcases hphase with h | h | h <;> simp [Task.registering, h]
  · exact fun metric h => absurd h (hmade metric)

theorem move_test (hphase : task.phase = .test)
    (hapart : task.name ∉ state.matchingCounters →
      ∀ other ∈ state.tasks, other.name = task.name → other.registering = false) :
    MovesWell config state i task := by
  have hsound := hinv.sound task (List.mem_of_getElem? hi)
  have hmade : ∀ metric, ¬ task.Made metric := by
    simp [Task.Made, hphase]
  by_cases hname : task.name ∈ state.matchingCounters
  · -- the counters are stored already, and only one of them is raised
    have hmove : move state task = (none, { task with
        phase := .send, raised := [NodeMetric.processed.name task.name] }, state) := by
      simp [move, hphase, hname]
    rw [MovesWell, hmove]
    refine ⟨by simp, update_stored hinv hi hmade rfl rfl (.inl rfl) hname ?_⟩
    exact count_processed task.name
  -- The counters are still to be registered, and no other task is at it.
  · have hmove : move state task =
        (none, { task with phase := .register NodeMetric.all }, state) := by
      simp [move, hphase, hname]
    rw [MovesWell, hmove]
    refine ⟨by simp, hinv.update hi ?_ ?_ ?_ (.inl rfl) ?_ ?_⟩
    · rfl
    · rfl
    · exact sound_register rfl (List.suffix_refl _) hname
        (hsound.unraised (by simp [Task.counted, hphase]))
    · exact fun _ => .inr (hapart hname)
    · exact fun metric h => absurd h (hmade metric)

theorem move_register {left : List NodeMetric} (hphase : task.phase = .register left) :
    MovesWell config state i task := by
  have htask : task ∈ state.tasks := List.mem_of_getElem? hi
  have hsound := hinv.sound task htask
  have hregistering : task.registering = true := by
    simp [Task.registering, hphase]
  have habsent := hsound.absent hregistering
  cases left with
  | nil =>
    have hmove : move state task = (none, { task with
        phase := .insert, raised := [NodeMetric.processed.name task.name] }, state) := by
      simp [move, hphase]
    rw [MovesWell, hmove]
    refine ⟨by simp, hinv.update hi ?_ ?_ ?_ (.inl rfl) ?_ ?_⟩
    · rfl
    · rfl
    · constructor
      case alive => simp
      case left => simp
      case absent => exact fun _ => habsent
      case present => simp
      case unraised => simp [Task.counted]
      case raised => exact fun _ => count_processed task.name
    · exact fun _ => .inl hregistering
    · exact fun metric _ => .inl (by simp [Task.Made])
  | cons metric left =>
    have hsuffix := hsound.left _ hphase
    have hnodup : metric ∉ left := by
      have hall : (metric :: left).Nodup := hsuffix.sublist.nodup (by decide)
      exact (List.nodup_cons.mp hall).1
    -- the request itself has not made the counter, and no other one is registering the name
    have hfree : metric.name task.name ∉ state.registered := by
      apply hinv.name_not_registered htask
      rintro (hin | ⟨other, hother, hsame, hmade⟩)
      · exact habsent hin
      · obtain ⟨j, hj⟩ := List.mem_iff_getElem?.mp hother
        obtain rfl := hinv.alone hj hi hmade.registering hregistering hsame
        obtain rfl := Option.some.inj (hi.symm.trans hj)
        simp [Task.Made, hphase] at hmade
    have hmove : move state task = (some ⟨metric.name task.name, false⟩,
        { task with phase := .register left },
        { state with registered := insert (metric.name task.name) state.registered }) := by
      simp [move, hphase, hfree]
    have hmoved : Inv config { state with
        tasks := state.tasks.set i { task with phase := .register left } } := by
      refine hinv.update hi ?_ ?_ ?_ (.inl rfl) ?_ ?_
      · rfl
      · rfl
      · exact sound_register rfl ((List.suffix_cons metric left).trans hsuffix) habsent
          (hsound.unraised (by simp [Task.counted, hphase]))
      · exact fun _ => .inl hregistering
      · intro other hother
        left
        simp only [Task.Made, hphase, List.mem_cons, not_or] at hother ⊢
        exact hother.2
    rw [MovesWell, hmove]
    constructor
    · rintro registration ⟨⟩
      rfl
    · exact hmoved.register (.inr ⟨_, List.mem_iff_getElem?.mpr
        ⟨i, (getElem?_set_eq_some hi).mpr (.inl ⟨rfl, rfl⟩)⟩, rfl, hnodup⟩)

theorem move_insert (hphase : task.phase = .insert) : MovesWell config state i task := by
  have hsound := hinv.sound task (List.mem_of_getElem? hi)
  have hmove : move state task = (none, { task with phase := .send },
      { state with matchingCounters := insert task.name state.matchingCounters }) := by
    simp [move, hphase]
  rw [MovesWell, hmove]
  refine ⟨by simp, hinv.update hi ?_ ?_ ?_ (.inr ⟨?_, rfl⟩) ?_ ?_⟩
  · rfl
  · rfl
  · exact sound_stored (.inl rfl) (Finset.mem_insert_self ..)
      (hsound.raised (by simp [Task.counted, hphase]))
  · simp [Task.registering, hphase]
  · simp [Task.registering]
  · exact fun metric _ => .inr (Finset.mem_insert_self ..)

theorem move_send (hphase : task.phase = .send) : MovesWell config state i task := by
  have hsound := hinv.sound task (List.mem_of_getElem? hi)
  have hmove : move state task = (none, { task with phase := .answer }, state) := by
    simp [move, hphase]
  rw [MovesWell, hmove]
  refine ⟨by simp, update_stored hinv hi ?_ rfl rfl (.inr (.inl rfl)) ?_ ?_⟩
  · simp [Task.Made, hphase]
  · exact hsound.present (.inl hphase)
  · exact hsound.raised (by simp [Task.counted, hphase])

theorem move_answer (hphase : task.phase = .answer) : MovesWell config state i task := by
  have htask : task ∈ state.tasks := List.mem_of_getElem? hi
  have hsound := hinv.sound task htask
  have hmade : ∀ metric, ¬ task.Made metric := by
    simp [Task.Made, hphase]
  have hname := hsound.present (.inr hphase)
  have hraised := hsound.raised (by simp [Task.counted, hphase])
  cases hanswer : task.status.bind answeredBy with
  | none =>
    have hmove : move state task = (none, { task with phase := .done }, state) := by
      unfold move
      rw [hphase]
      cases hstatus : task.status with
      | none => rfl
      | some status =>
        rw [hstatus] at hanswer
        simp only [Option.bind_some] at hanswer
        simp [hname, hanswer]
    rw [MovesWell, hmove]
    exact ⟨by simp, update_stored hinv hi hmade rfl rfl (.inr (.inr rfl)) hname hraised⟩
  | some counters =>
    obtain ⟨global, metric⟩ := counters
    obtain ⟨status, hstatus, hanswered⟩ := Option.bind_eq_some_iff.mp hanswer
    have hused : (global = .requestsReceived ∨ global = .requestsFailedToRoute) ∨
        ∃ task ∈ state.tasks, task.status.bind answeredBy ≠ none :=
      .inr ⟨task, htask, by simp [hanswer]⟩
    -- forcing the counters of the answers finds them registered or registers them
    obtain ⟨htaken, husable, hkept⟩ := hinv.force hused
    have hmove : move state task = ((force state global).1, { task with
        phase := .done
        raised := task.raised ++ [global.name, metric.name task.name] },
        (force state global).2.2) := by
      simp [move, hphase, hstatus, hname, hanswered, husable]
    rw [MovesWell, hmove]
    refine ⟨htaken, ?_⟩
    obtain ⟨htasks, hmatching⟩ := force_frame state global
    rw [← htasks] at hi ⊢
    rw [← hmatching] at hname
    refine update_stored hkept hi hmade rfl rfl (.inr (.inr rfl)) hname ?_
    intro n
    rw [List.count_append, count_answered hanswered, Nat.add_zero, hraised]

end Steps

/-- Each step of a request that is apart from the others keeps the invariant. -/
theorem move_inv {config : Config} {state : State} {i : Nat} {task : Task}
    (hinv : Inv config state) (hi : state.tasks[i]? = some task)
    (hapart : task.phase = .test → task.name ∉ state.matchingCounters →
      ∀ other ∈ state.tasks, other.name = task.name → other.registering = false) :
    MovesWell config state i task := by
  have hstay : move state task = (none, task, state) → MovesWell config state i task := by
    intro hmove
    obtain ⟨hlt, hsame⟩ := List.getElem?_eq_some_iff.mp hi
    rw [MovesWell, hmove, ← hsame, List.set_getElem_self]
    exact ⟨by simp, hinv⟩
  -- By the phase of the task that moves.
  cases hphase : task.phase with
  | test => exact move_test hinv hi hphase (hapart hphase)
  | register left => exact move_register hinv hi hphase
  | insert => exact move_insert hinv hi hphase
  | send => exact move_send hinv hi hphase
  | answer => exact move_answer hinv hi hphase
  | done => exact hstay (by simp [move, hphase])
  | aborted => exact hstay (by simp [move, hphase])

/-! ## Runs -/

/-- A request whose node was just chosen has made nothing and raised nothing. -/
theorem sound_chosen (url : Url) (status : Option StatusCode) (matchingCounters : Finset String) :
    Sound matchingCounters (.chosen isAlphanumeric url status) where
  alive := nofun
  left := nofun
  absent := nofun
  present := by
    rintro (h | h)
    · cases h
    · cases h
  unraised _ := rfl
  raised := nofun

/-- Choosing a node registers nothing. -/
theorem Inv.choose {config : Config} {state : State} (hinv : Inv config state) (url : Url)
    (status : Option StatusCode)
    (hclear : Clear (state.tasks ++ [.chosen isAlphanumeric url status])) :
    Inv config { state with tasks := state.tasks ++ [.chosen isAlphanumeric url status] } := by
  have hfresh : (Task.chosen isAlphanumeric url status).registering = false := rfl
  -- a request that is registering was there before
  have hold : ∀ {j : Nat} {task : Task},
      (state.tasks ++ [Task.chosen isAlphanumeric url status])[j]? = some task →
      task.registering = true → state.tasks[j]? = some task := by
    intro j task hj hregistering
    rw [List.getElem?_append] at hj
    split at hj
    · exact hj
    · obtain rfl := List.mem_singleton.mp (List.mem_of_getElem? hj)
      rw [hfresh] at hregistering
      cases hregistering
  exact { hinv with
    sound := by
      intro task htask
      rcases List.mem_append.mp htask with hbefore | hnew
      · exact hinv.sound task hbefore
      · rw [List.mem_singleton.mp hnew]
        exact sound_chosen isAlphanumeric url status _
    alone := by
      intro j k task other hj hk htask hother hsame
      exact hinv.alone (hold hj htask) (hold hk hother) htask hother hsame
    stored := by
      intro n hn
      obtain ⟨task, htask, hname⟩ := hinv.stored n hn
      exact ⟨task, List.mem_append_left _ htask, hname⟩
    clear := hclear
    forced := by
      intro global hglobal
      refine (hinv.forced global hglobal).imp_right ?_
      rintro ⟨task, htask, hcounted⟩
      exact ⟨task, List.mem_append_left _ htask, hcounted⟩
    named := by
      intro text htext
      refine (hinv.named text htext).imp_right fun h => h.imp_right ?_
      rintro ⟨metric, n, rfl, hcovered⟩
      refine ⟨metric, n, rfl, hcovered.imp_right ?_⟩
      rintro ⟨task, htask, hname, hmade⟩
      exact ⟨task, List.mem_append_left _ htask, hname, hmade⟩ }

/-- Each event that is apart from the requests on their way keeps the invariant. -/
theorem step_inv {config : Config} (state : State) (event : Event) (hinv : Inv config state)
    (hapart : Apart isAlphanumeric state event) :
    Inv config (step isAlphanumeric state event).2 ∧
      ∀ registration, (step isAlphanumeric state event).1 = some registration →
        registration.taken = false := by
  -- By the event: the first two force a metric, and the third only adds a task.
  cases event with
  | receive =>
    obtain ⟨htaken, -, hkept⟩ := hinv.force (.inl (.inl rfl))
    exact ⟨hkept, htaken⟩
  | unrouted =>
    obtain ⟨htaken, -, hkept⟩ := hinv.force (.inl (.inr rfl))
    exact ⟨hkept, htaken⟩
  | choose url status => exact ⟨hinv.choose isAlphanumeric url status hapart, nofun⟩
  | advance i =>
    cases hi : state.tasks[i]? with
    | none =>
      simp only [step, hi]
      exact ⟨hinv, by simp⟩
    | some task =>
      obtain ⟨htaken, hkept⟩ := move_inv hinv hi (hapart task hi)
      simp only [step, hi]
      exact ⟨hkept, htaken⟩

/-- In a run in which no request tests for the counters of a host while another one is about to
insert them, no name is registered twice and no request is killed, and each request that is
forwarded has raised the processed counter of one node, by one. -/
theorem registered_once (config : Config) (events : List Event)
    (h : Machine.AtEachStep (step isAlphanumeric) (initial config) events
      (Apart isAlphanumeric)) :
    (∀ e ∈ Machine.trace (step isAlphanumeric) (initial config) events,
      ∀ registration, e.2 = some registration → registration.taken = false) ∧
    ∀ task ∈ (Machine.final (step isAlphanumeric) (initial config) events).tasks,
      task.phase ≠ .aborted ∧
      (task.forwarded = true → ∀ n, task.raised.count (NodeMetric.processed.name n) =
        if n = task.name then 1 else 0) := by
  obtain ⟨hinv, htaken⟩ := Machine.atEachStep_invariant (step isAlphanumeric) (Inv config)
    (fun out => ∀ registration, out = some registration → registration.taken = false)
    (Apart isAlphanumeric) (step_inv isAlphanumeric) (initial_inv config) h
  refine ⟨htaken, fun task htask => ?_⟩
  have hsound := hinv.sound task htask
  refine ⟨hsound.alive, fun hforwarded n => ?_⟩
  -- a forwarded request is past the counter of its node
  apply hsound.raised
  unfold Task.forwarded at hforwarded
  unfold Task.counted
  split at hforwarded
  · simp [*]
  · simp [*]
  · cases hforwarded

/-- A request is answered before the next one to the same node comes. -/
theorem registered_once_oneAfterOther :
    let events := [.receive, .choose getOne.url (some 200)] ++ List.replicate 8 (.advance 0) ++
      [.receive, .choose getOne.url (some 500)] ++ List.replicate 3 (.advance 1)
    let machine := step Text.isAsciiAlphanumeric
    (∀ e ∈ Machine.trace machine (initial (oneGetNode [])) events,
      ∀ registration, e.2 = some registration → registration.taken = false) ∧
    ∀ task ∈ (Machine.final machine (initial (oneGetNode [])) events).tasks,
      task.phase ≠ .aborted ∧
      (task.forwarded = true → ∀ n, task.raised.count (NodeMetric.processed.name n) =
        if n = task.name then 1 else 0) :=
  registered_once Text.isAsciiAlphanumeric (oneGetNode []) _ (by decide +kernel)

/-- Two first requests to one node both find no counters, and both register them. -/
theorem twoFirst_registers_twice :
    ∃ fw, fromConfig (.small []) (oneGetNode []) = .ok fw ∧
      let events := [.choose getOne.url none, .choose getOne.url none,
        .advance 0, .advance 1, .advance 0, .advance 1]
      let machine := step Text.isAsciiAlphanumeric
      (.advance 1, some ⟨"node_127_0_0_1_processed", true⟩) ∈
        Machine.trace machine (initial (oneGetNode [])) events ∧
      ∃ task ∈ (Machine.final machine (initial (oneGetNode [])) events).tasks,
        task.phase = .aborted := by
  have hlimiters : addRatelimiters (.small []) (selectAccounts []) [] [] = .ok [] := rfl
  obtain ⟨checked, hbuild, -⟩ := oneGetNode_built rfl hlimiters
  exact ⟨checked.firewall, hbuild, by decide +kernel, by decide +kernel⟩

end AntelopeFirewall.Metrics
