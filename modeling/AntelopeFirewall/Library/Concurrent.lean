import AntelopeFirewall.Library.Machine
import Mathlib.Data.List.Nodup
import Mathlib.Data.List.Perm.Subperm
import Mathlib.Logic.Function.Basic

/-!
# Parties That Share Components

Several parties run at once and share some components, each of which serves one call at a
time. Between two calls of one party those of others run, in any order.

- `System` is what the components answer and what the parties do, `step` one event of a run,
- `log` lists the visits that the parties paid to the components,
- `run_explains` projects a run to one component: it sees a sequential run of its own `serve`,
- `run_programs` projects a run to one party: it runs its own program on the answers of its
  visits,
- `countP_parties_le` bounds the parties of a kind by the visits of a kind,
- `level_add_owing_le` bounds the level of a component that hears of its parties late.

Hence a property of sequential runs of one component carries over to any interleaving of
parties that use many.
-/

namespace Library.Concurrent

open Machine

/-! ## Systems -/

/-- What a party does next: ask a component and go on with its answer, take a step that
touches no component, or rest. -/
inductive Move {κ : Type} (Input Answer : κ → Type) (Party : Type) where
  | ask (k : κ) (input : Input k) (resume : Answer k → Party)
  | own (after : Party)
  | rest

/-- A move takes a party below a bound, or it is a rest at bound zero. -/
def Move.Lowers {κ : Type} {Input Answer : κ → Type} {Party : Type} (measure : Party → Nat)
    (bound : Nat) : Move Input Answer Party → Prop
  | .ask _ _ resume => ∀ answer, measure (resume answer) < bound
  | .own after => measure after < bound
  | .rest => bound = 0

/-- Components and the programs of the parties that use them. -/
structure System (κ : Type) where
  State : κ → Type
  Input : κ → Type
  Answer : κ → Type
  serve : ∀ k, State k → Input k → Answer k × State k
  Party : Type
  next : Party → Move Input Answer Party
  Arrival : Type
  start : Arrival → Party

namespace System

variable {κ : Type} (S : System κ)

/-- One visit to a component: the state it was found in and what it was asked. -/
structure Visit where
  component : κ
  found : S.State component
  input : S.Input component

/-- The components and the parties at one moment. -/
structure World where
  shared : ∀ k, S.State k
  parties : List S.Party

/-- What can happen: a party joins, or the party at a place takes its next step. -/
inductive Event where
  | join (arrival : S.Arrival)
  | turn (party : Nat)

variable {S}

def Visit.answer (visit : Visit S) : S.Answer visit.component :=
  (S.serve visit.component visit.found visit.input).1

def Visit.left (visit : Visit S) : S.State visit.component :=
  (S.serve visit.component visit.found visit.input).2

/-- The parties that join in a run, in order. -/
def arrivals (events : List (Event S)) : List S.Arrival :=
  events.filterMap fun
    | .join arrival => some arrival
    | .turn _ => none

/-- The visits that the party at a place paid. -/
def visitsBy (i : Nat) (log : List (Nat × Visit S)) : List (Visit S) :=
  log.filterMap fun entry => if entry.1 = i then some entry.2 else none

/-- A party runs its program: paying these visits takes it from the one state to the other. -/
inductive Follows : S.Party → List (Visit S) → S.Party → Prop where
  | here (party : S.Party) : Follows party [] party
  | own {party after last : S.Party} {visits : List (Visit S)} :
      S.next party = .own after → Follows after visits last → Follows party visits last
  | ask {party last : S.Party} {k : κ} {input : S.Input k} {resume : S.Answer k → S.Party}
      {visits : List (Visit S)} (found : S.State k) :
      S.next party = .ask k input resume →
      Follows (resume (S.serve k found input).1) visits last →
      Follows party (⟨k, found, input⟩ :: visits) last

/-- **Invariant rule for a party**: what holds of it before its first visit and is kept by each
of its steps holds wherever it is. -/
theorem Follows.invariant {first last : S.Party} {visits : List (Visit S)}
    (h : Follows first visits last) (P : S.Party → List (Visit S) → Prop)
    (own : ∀ {party after visits}, S.next party = .own after → P party visits → P after visits)
    (ask : ∀ {party k input resume visits}, S.next party = .ask k input resume →
      P party visits → ∀ found,
      P (resume (S.serve k found input).1) (visits ++ [⟨k, found, input⟩]))
    {before : List (Visit S)} (start : P first before) : P last (before ++ visits) := by
  induction h generalizing before with
  | here party => simpa using start
  | own hnext _ ih => exact ih (own hnext start)
  | ask found hnext _ ih =>
    have hrest := ih (ask hnext start found)
    rwa [List.append_assoc, List.singleton_append] at hrest

theorem arrivals_concat_join (events : List (Event S)) (arrival : S.Arrival) :
    arrivals (events ++ [.join arrival]) = arrivals events ++ [arrival] := by
  simp [arrivals]

theorem arrivals_concat_turn (events : List (Event S)) (i : Nat) :
    arrivals (events ++ [.turn i]) = arrivals events := by
  simp [arrivals]

theorem visitsBy_append (i : Nat) (xs ys : List (Nat × Visit S)) :
    visitsBy i (xs ++ ys) = visitsBy i xs ++ visitsBy i ys := List.filterMap_append

theorem mem_visitsBy {i : Nat} {log : List (Nat × Visit S)} {visit : Visit S} :
    visit ∈ visitsBy i log ↔ (i, visit) ∈ log := by
  unfold visitsBy
  rw [List.mem_filterMap]
  constructor
  · rintro ⟨⟨j, other⟩, hmem, hentry⟩
    split at hentry
    · next hplace =>
      obtain rfl : other = visit := Option.some.inj hentry
      obtain rfl : j = i := hplace
      exact hmem
    · cases hentry
  · intro hmem
    exact ⟨(i, visit), hmem, if_pos rfl⟩

section Runs

variable [DecidableEq κ]

/-- One event, with the visit that was paid in it. -/
def step (world : World S) : Event S → Option (Nat × Visit S) × World S
  | .join arrival => (none, { world with parties := world.parties ++ [S.start arrival] })
  | .turn i =>
    match world.parties[i]? with
    | none => (none, world)
    | some party =>
      match S.next party with
      | .rest => (none, world)
      | .own after => (none, { world with parties := world.parties.set i after })
      | .ask k input resume =>
        let visit : Visit S := ⟨k, world.shared k, input⟩
        (some (i, visit),
          ⟨Function.update world.shared k visit.left,
            world.parties.set i (resume visit.answer)⟩)

/-- The visits of a run, each with the place of its party. -/
def log (world : World S) (events : List (Event S)) : List (Nat × Visit S) :=
  (trace step world events).filterMap Prod.snd

/-- What a visit to this component asked. -/
def Visit.on (k : κ) (visit : Visit S) : Option (S.Input k) :=
  if h : visit.component = k then some (h ▸ visit.input) else none

/-- What a visit to this component asked, with the answer. -/
def Visit.answered (k : κ) (visit : Visit S) : Option (S.Input k × S.Answer k) :=
  if h : visit.component = k then some (h ▸ (visit.input, visit.answer)) else none

/-- What a component was asked in a log. -/
def inputsOn (k : κ) (log : List (Nat × Visit S)) : List (S.Input k) :=
  log.filterMap fun entry => entry.2.on k

/-- What a component was asked in a log and what it answered. -/
def answeredOn (k : κ) (log : List (Nat × Visit S)) : List (S.Input k × S.Answer k) :=
  log.filterMap fun entry => entry.2.answered k

/-! ## What one event does -/

/-- Everything an event can do: let a party join, nothing, move a party on its own, or take a
party through a visit. -/
theorem step_cases (world : World S) (event : Event S) :
    (∃ arrival, event = .join arrival ∧
      step world event = (none, { world with parties := world.parties ++ [S.start arrival] })) ∨
    (∃ i, event = .turn i ∧ step world event = (none, world)) ∨
    (∃ i party after, event = .turn i ∧ world.parties[i]? = some party ∧
      S.next party = .own after ∧
      step world event = (none, { world with parties := world.parties.set i after })) ∨
    (∃ i party k input resume, event = .turn i ∧ world.parties[i]? = some party ∧
      S.next party = .ask k input resume ∧
      step world event = (some (i, ⟨k, world.shared k, input⟩),
        ⟨Function.update world.shared k (S.serve k (world.shared k) input).2,
          world.parties.set i (resume (S.serve k (world.shared k) input).1)⟩)) := by
  cases event with
  | join arrival => exact .inl ⟨arrival, rfl, rfl⟩
  | turn i =>
    cases hparty : world.parties[i]? with
    | none => exact .inr (.inl ⟨i, rfl, by simp only [step, hparty]⟩)
    | some party =>
      -- what a turn does is what its party does next
      cases hnext : S.next party with
      | rest => exact .inr (.inl ⟨i, rfl, by simp only [step, hparty, hnext]⟩)
      | own after =>
        exact .inr (.inr (.inl ⟨i, party, after, rfl, hparty, hnext,
          by simp only [step, hparty, hnext]⟩))
      | ask k input resume =>
        refine .inr (.inr (.inr ⟨i, party, k, input, resume, rfl, hparty, hnext, ?_⟩))
        simp only [step, hparty, hnext, Visit.left, Visit.answer]

theorem log_concat (world : World S) (events : List (Event S)) (event : Event S) :
    log world (events ++ [event]) =
      log world events ++ (step (final step world events) event).1.toList := by
  unfold log
  rw [trace_concat, List.filterMap_append]
  cases (step (final step world events) event).1 <;> rfl

@[simp] theorem Visit.on_self (k : κ) (found : S.State k) (input : S.Input k) :
    Visit.on k (⟨k, found, input⟩ : Visit S) = some input := dif_pos rfl

theorem Visit.on_of_ne {k : κ} {visit : Visit S} (h : visit.component ≠ k) :
    visit.on k = none := dif_neg h

@[simp] theorem Visit.answered_self (k : κ) (found : S.State k) (input : S.Input k) :
    Visit.answered k (⟨k, found, input⟩ : Visit S) =
      some (input, (S.serve k found input).1) := dif_pos rfl

theorem Visit.answered_of_ne {k : κ} {visit : Visit S} (h : visit.component ≠ k) :
    visit.answered k = none := dif_neg h

theorem inputsOn_append (k : κ) (xs ys : List (Nat × Visit S)) :
    inputsOn k (xs ++ ys) = inputsOn k xs ++ inputsOn k ys := List.filterMap_append

theorem answeredOn_append (k : κ) (xs ys : List (Nat × Visit S)) :
    answeredOn k (xs ++ ys) = answeredOn k xs ++ answeredOn k ys := List.filterMap_append

/-! ## One component in a run -/

/-- A log explains the components: each is left by the run of its visits, each visit found
what the ones before it had left, and the answers are those of that run. -/
structure Explains (first : ∀ k, S.State k) (log : List (Nat × Visit S))
    (shared : ∀ k, S.State k) : Prop where
  shared : ∀ k, shared k = final (S.serve k) (first k) (inputsOn k log)
  found : ∀ before entry after, log = before ++ entry :: after →
    entry.2.found =
      final (S.serve entry.2.component) (first entry.2.component)
        (inputsOn entry.2.component before)
  answered : ∀ k, answeredOn k log = trace (S.serve k) (first k) (inputsOn k log)

theorem explains_nil (first : ∀ k, S.State k) : Explains first [] first where
  shared := fun _ => rfl
  found := fun before entry after h => by simp at h
  answered := fun _ => rfl

/-- **Visit step**: one more visit is one more step of its component, and none of another. -/
theorem Explains.visit {first shared : ∀ k, S.State k} {log : List (Nat × Visit S)}
    (h : Explains first log shared) (i : Nat) (k : κ) (input : S.Input k) :
    Explains first (log ++ [(i, ⟨k, shared k, input⟩)])
      (Function.update shared k (S.serve k (shared k) input).2) where
  shared := by
    intro other
    rw [inputsOn_append]
    -- a visit moves its own component and no other one
    by_cases hother : k = other
    · subst hother
      have hinput : inputsOn k [(i, (⟨k, shared k, input⟩ : Visit S))] = [input] := by
        simp [inputsOn]
      rw [Function.update_self, hinput, final_concat, ← h.shared k]
    · have hnone : Visit.on other (⟨k, shared k, input⟩ : Visit S) = none :=
        Visit.on_of_ne hother
      rw [Function.update_of_ne (Ne.symm hother), h.shared other]
      simp [inputsOn, hnone]
  found := by
    intro before entry after hlog
    rcases List.eq_nil_or_concat after with rfl | ⟨earlier, last, rfl⟩
    · -- the visit itself
      obtain ⟨rfl, hentry⟩ := List.append_inj' hlog rfl
      obtain rfl := List.singleton_inj.mp hentry
      exact h.shared k
    · -- one of the visits before it
      rw [List.concat_eq_append, ← List.cons_append, ← List.append_assoc] at hlog
      exact h.found before entry earlier (List.append_inj' hlog rfl).1
  answered := by
    intro other
    rw [answeredOn_append, inputsOn_append]
    -- the run of a component grows by its own visits only
    by_cases hother : k = other
    · subst hother
      have hinput : inputsOn k [(i, (⟨k, shared k, input⟩ : Visit S))] = [input] := by
        simp [inputsOn]
      have hanswer : answeredOn k [(i, (⟨k, shared k, input⟩ : Visit S))] =
          [(input, (S.serve k (shared k) input).1)] := by
        simp [answeredOn]
      rw [hinput, hanswer, trace_concat, h.answered k, ← h.shared k]
    · have hnone : Visit.on other (⟨k, shared k, input⟩ : Visit S) = none :=
        Visit.on_of_ne hother
      have hnone' : Visit.answered other (⟨k, shared k, input⟩ : Visit S) = none :=
        Visit.answered_of_ne hother
      rw [h.answered other]
      simp [inputsOn, answeredOn, hnone, hnone']

/-- **Run**: in any interleaving the log explains every component. -/
theorem run_explains (world : World S) (events : List (Event S)) :
    Explains world.shared (log world events) (final step world events).shared := by
  induction events using List.reverseRecOn with
  | nil => exact explains_nil world.shared
  | append_singleton events event ih =>
    rw [log_concat, final_concat]
    rcases step_cases (final step world events) event with
      ⟨arrival, -, hstep⟩ | ⟨i, -, hstep⟩ | ⟨i, party, after, -, -, -, hstep⟩ |
      ⟨i, party, k, input, resume, -, -, -, hstep⟩
    · rw [hstep]
      simpa using ih
    · rw [hstep]
      simpa using ih
    · rw [hstep]
      simpa using ih
    · rw [hstep]
      exact ih.visit i k input

/-- The questions of the answered visits are all questions. -/
theorem answeredOn_map_fst (k : κ) (log : List (Nat × Visit S)) :
    (answeredOn k log).map Prod.fst = inputsOn k log := by
  unfold answeredOn inputsOn
  rw [List.map_filterMap]
  refine List.filterMap_congr fun entry _ => ?_
  by_cases hk : entry.2.component = k
  · obtain ⟨i, component, found, input⟩ := entry
    subst hk
    rw [Visit.answered_self, Visit.on_self]
    rfl
  · rw [Visit.answered_of_ne hk, Visit.on_of_ne hk]
    rfl

/-- The first visits of a log are answered as the run of the component answers them. -/
theorem Explains.answered_initial {first shared : ∀ k, S.State k}
    {log before after : List (Nat × Visit S)} (h : Explains first log shared)
    (hlog : log = before ++ after) (k : κ) :
    answeredOn k before = trace (S.serve k) (first k) (inputsOn k before) := by
  have hall := h.answered k
  rw [hlog, answeredOn_append, inputsOn_append, trace_append] at hall
  refine (List.append_inj hall ?_).1
  rw [← List.length_map Prod.fst, answeredOn_map_fst, ← List.length_map Prod.fst, trace_map_fst]

/-- The state that a visit to this component found, with what it asked. -/
def Visit.encounter (k : κ) (visit : Visit S) : Option (S.State k × S.Input k) :=
  if h : visit.component = k then some (h ▸ (visit.found, visit.input)) else none

@[simp] theorem Visit.encounter_self (k : κ) (found : S.State k) (input : S.Input k) :
    Visit.encounter k (⟨k, found, input⟩ : Visit S) = some (found, input) := dif_pos rfl

theorem Visit.encounter_of_ne {k : κ} {visit : Visit S} (h : visit.component ≠ k) :
    visit.encounter k = none := dif_neg h

/-- A step of a component, which shows the state that the input finds. -/
def serveFrom (S : System κ) (k : κ) (state : S.State k) (input : S.Input k) :
    (S.State k × S.Input k) × S.State k :=
  ((state, input), (S.serve k state input).2)

/-- What the first visits of a log found and asked is what the run of the component had come to
and was asked. -/
theorem Explains.encounters {first shared : ∀ k, S.State k}
    {log before after : List (Nat × Visit S)} (h : Explains first log shared)
    (hlog : log = before ++ after) (k : κ) :
    before.filterMap (fun entry => entry.2.encounter k) =
      (trace (serveFrom S k) (first k) (inputsOn k before)).map Prod.snd := by
  -- Induction on the visits; each one found what the visits before it had come to.
  induction before using List.reverseRecOn generalizing after with
  | nil => rfl
  | append_singleton before entry ih =>
    rw [List.append_assoc] at hlog
    rw [List.filterMap_append, ih hlog, inputsOn_append]
    obtain ⟨i, visit⟩ := entry
    by_cases hk : visit.component = k
    · obtain ⟨component, found, input⟩ := visit
      subst hk
      have hfound : found = final (S.serve component) (first component)
          (inputsOn component before) := h.found before _ after hlog
      have hinput : inputsOn component [(i, (⟨component, found, input⟩ : Visit S))] = [input] := by
        simp [inputsOn]
      have hfinal : final (serveFrom S component) (first component) (inputsOn component before) =
          found := hfound.symm
      rw [hinput, trace_concat, List.map_append, hfinal]
      simp [serveFrom]
    -- a visit of another component adds nothing on either side
    · have hnone : visit.encounter k = none := Visit.encounter_of_ne hk
      have hinput : inputsOn k [(i, visit)] = [] := by
        simp [inputsOn, Visit.on_of_ne hk]
      rw [hinput, List.append_nil]
      simp [hnone]

end Runs

/-! ## One party in a run -/

theorem Follows.concat_own {party middle after : S.Party} {visits : List (Visit S)}
    (h : Follows party visits middle) (hnext : S.next middle = .own after) :
    Follows party visits after := by
  induction h with
  | here party => exact .own hnext (.here after)
  | own hfirst _ ih => exact .own hfirst (ih hnext)
  | ask found hfirst _ ih => exact .ask found hfirst (ih hnext)

theorem Follows.concat_ask {party middle : S.Party} {visits : List (Visit S)}
    (h : Follows party visits middle) {k : κ} {input : S.Input k}
    {resume : S.Answer k → S.Party} (hnext : S.next middle = .ask k input resume)
    (found : S.State k) :
    Follows party (visits ++ [⟨k, found, input⟩]) (resume (S.serve k found input).1) := by
  induction h with
  | here party => exact .ask found hnext (.here _)
  | own hfirst _ ih => exact .own hfirst (ih hnext)
  | ask earlier hfirst _ ih => exact .ask earlier hfirst (ih hnext)

/-- The parties of a world come from the arrivals, each by following its program on the
visits that the log has for it, and the log has none for a party that is not there. -/
structure Programs (joined : List S.Arrival) (log : List (Nat × Visit S))
    (parties : List S.Party) : Prop where
  length : parties.length = joined.length
  known : ∀ entry ∈ log, entry.1 < parties.length
  follows : ∀ i party, parties[i]? = some party →
    ∃ arrival, joined[i]? = some arrival ∧ Follows (S.start arrival) (visitsBy i log) party

theorem programs_nil : Programs (S := S) [] [] [] where
  length := rfl
  known := by simp
  follows := by simp

/-- **Join step**: a new party has paid no visit yet. -/
theorem Programs.join {joined : List S.Arrival} {log : List (Nat × Visit S)}
    {parties : List S.Party} (h : Programs joined log parties) (arrival : S.Arrival) :
    Programs (joined ++ [arrival]) log (parties ++ [S.start arrival]) where
  length := by rw [List.length_append, List.length_append, h.length]; rfl
  known := by
    intro entry hentry
    rw [List.length_append]
    exact Nat.lt_add_right _ (h.known entry hentry)
  follows := by
    intro i party hparty
    -- the parties that were there have followed their programs already
    by_cases hi : i < parties.length
    · rw [List.getElem?_append_left hi] at hparty
      obtain ⟨first, hfirst, hfollows⟩ := h.follows i party hparty
      exact ⟨first, by rw [List.getElem?_append_left (h.length ▸ hi)]; exact hfirst, hfollows⟩
    · -- the new one
      have hplace : i = parties.length := by
        have hbound := (List.getElem?_eq_some_iff.mp hparty).1
        rw [List.length_append, List.length_singleton] at hbound
        omega
      subst hplace
      -- it has made no visit yet
      have hnone : visitsBy parties.length log = [] := by
        unfold visitsBy
        rw [List.filterMap_eq_nil_iff]
        intro entry hentry
        exact if_neg (Nat.ne_of_lt (h.known entry hentry))
      rw [List.getElem?_concat_length, Option.some.injEq] at hparty
      refine ⟨arrival, by rw [h.length]; exact List.getElem?_concat_length, ?_⟩
      rw [hnone, ← hparty]
      exact .here _

/-- **Turn step**: a party that moves follows its program, and the others stay. -/
theorem Programs.turn {joined : List S.Arrival} {log more : List (Nat × Visit S)}
    {parties : List S.Party} (h : Programs joined log parties) {i : Nat} {party after : S.Party}
    (hparty : parties[i]? = some party) (hmore : ∀ entry ∈ more, entry.1 = i)
    (hfollows : ∀ first visits, Follows first visits party →
      Follows first (visits ++ visitsBy i more) after) :
    Programs joined (log ++ more) (parties.set i after) where
  length := by rw [List.length_set, h.length]
  known := by
    intro entry hentry
    rw [List.length_set]
    rcases List.mem_append.mp hentry with hold | hnew
    · exact h.known entry hold
    · rw [hmore entry hnew]
      exact (List.getElem?_eq_some_iff.mp hparty).1
  follows := by
    intro j other hother
    rw [visitsBy_append]
    -- the party whose turn it is goes on, and the others stand where they were
    by_cases hj : i = j
    · subst hj
      obtain ⟨arrival, harrival, hsofar⟩ := h.follows i party hparty
      have hset : (parties.set i after)[i]? = some after :=
        List.getElem?_set_self (List.getElem?_eq_some_iff.mp hparty).1
      obtain rfl : after = other := Option.some.inj (hset.symm.trans hother)
      exact ⟨arrival, harrival, hfollows _ _ hsofar⟩
    · rw [List.getElem?_set_ne hj] at hother
      obtain ⟨arrival, harrival, hsofar⟩ := h.follows j other hother
      have hnone : visitsBy j more = [] := by
        unfold visitsBy
        rw [List.filterMap_eq_nil_iff]
        intro entry hentry
        exact if_neg (by rw [hmore entry hentry]; exact hj)
      rw [hnone, List.append_nil]
      exact ⟨arrival, harrival, hsofar⟩

/-- **Run**: in any interleaving every party runs its own program. -/
theorem run_programs [DecidableEq κ] (shared : ∀ k, S.State k) (events : List (Event S)) :
    Programs (arrivals events) (log ⟨shared, []⟩ events)
      (final step (⟨shared, []⟩ : World S) events).parties := by
  induction events using List.reverseRecOn with
  | nil => exact programs_nil
  | append_singleton events event ih =>
    rw [log_concat, final_concat]
    -- By the four kinds of a step: one joins, nothing happens, one moves, one visits.
    rcases step_cases (final step (⟨shared, []⟩ : World S) events) event with
      ⟨arrival, rfl, hstep⟩ | ⟨i, rfl, hstep⟩ | ⟨i, party, after, rfl, hparty, hnext, hstep⟩ |
      ⟨i, party, k, input, resume, rfl, hparty, hnext, hstep⟩
    · rw [hstep, arrivals_concat_join]
      simpa using ih.join arrival
    · rw [hstep, arrivals_concat_turn]
      simpa using ih
    · rw [hstep, arrivals_concat_turn]
      refine ih.turn hparty (by simp) fun first visits hfollows => ?_
      simpa [visitsBy] using hfollows.concat_own hnext
    · rw [hstep, arrivals_concat_turn]
      refine ih.turn hparty (by simp) fun first visits hfollows => ?_
      simpa [visitsBy] using hfollows.concat_ask hnext _

/-! ## Progress -/

section Progress

variable [DecidableEq κ]

/-- Whether an event is a turn of the party at a place. -/
def Event.isTurn (i : Nat) : Event S → Bool
  | .join _ => false
  | .turn j => i = j

/-- What an event does to one party: a turn of another or a join leaves it where it is. -/
theorem step_party {world : World S} {i : Nat} {party : S.Party}
    (hparty : world.parties[i]? = some party) (event : Event S) :
    (event.isTurn i = false ∧ (step world event).2.parties[i]? = some party) ∨
    (event.isTurn i = true ∧ ∃ after, (step world event).2.parties[i]? = some after ∧
      ((S.next party = .rest ∧ after = party) ∨ S.next party = .own after ∨
        ∃ k input resume answer, S.next party = .ask k input resume ∧ after = resume answer)) := by
  have hi : i < world.parties.length := (List.getElem?_eq_some_iff.mp hparty).1
  -- another party's step leaves this one where it is
  cases event with
  | join arrival =>
    refine .inl ⟨rfl, ?_⟩
    rw [← hparty]
    exact List.getElem?_append_left hi
  | turn j =>
    by_cases hj : i = j
    · subst hj
      refine .inr ⟨by simp [Event.isTurn], ?_⟩
      have hset : ∀ after, (world.parties.set i after)[i]? = some after :=
        fun after => List.getElem?_set_self hi
      simp only [step, hparty]
      cases hnext : S.next party with
      | rest => exact ⟨party, hparty, .inl ⟨rfl, rfl⟩⟩
      | own after => exact ⟨after, hset after, .inr (.inl rfl)⟩
      | ask k input resume =>
        exact ⟨_, hset _, .inr (.inr ⟨k, input, resume, _, rfl, rfl⟩)⟩
    · refine .inl ⟨by simp [Event.isTurn, hj], ?_⟩
      rcases step_cases world (.turn j) with
        ⟨arrival, hevent, -⟩ | ⟨k, -, hstep⟩ | ⟨k, other, after, hevent, -, -, hstep⟩ |
        ⟨k, other, c, input, resume, hevent, -, -, hstep⟩
      · cases hevent
      · rw [hstep]
        exact hparty
      · cases hevent
        rw [hstep, ← hparty]
        exact List.getElem?_set_ne (Ne.symm hj)
      · cases hevent
        rw [hstep, ← hparty]
        exact List.getElem?_set_ne (Ne.symm hj)

/-- **Progress rule**: if each step of a party lowers a measure, which is zero where it rests,
then the measure is zero after as many turns of the party, whatever the others do in between. -/
theorem measure_zero_of_turns (measure : S.Party → Nat)
    (hlowers : ∀ party, (S.next party).Lowers measure (measure party))
    {world : World S} {i : Nat} {party : S.Party} (hparty : world.parties[i]? = some party)
    {events : List (Event S)} (hturns : measure party ≤ events.countP (Event.isTurn i)) :
    ∃ last, (final step world events).parties[i]? = some last ∧ measure last = 0 := by
  -- what is left of the measure and the turns taken stay within the first measure
  have hrun : ∃ last, (final step world events).parties[i]? = some last ∧
      (measure last = 0 ∨ measure last + events.countP (Event.isTurn i) ≤ measure party) := by
    clear hturns
    induction events using List.reverseRecOn with
    | nil => exact ⟨party, hparty, .inr (Nat.le_refl _)⟩
    | append_singleton events event ih =>
      obtain ⟨last, hlast, hbound⟩ := ih
      rw [final_concat, List.countP_append, List.countP_singleton]
      rcases step_party hlast event with ⟨hother, hsame⟩ | ⟨hturn, after, hafter, hmoved⟩
      · rw [hother]
        exact ⟨last, hsame, hbound⟩
      · rw [hturn, if_pos rfl]
        refine ⟨after, hafter, ?_⟩
        have hless := hlowers last
        rcases hmoved with ⟨hrest, rfl⟩ | hown | ⟨k, input, resume, answer, hask, rfl⟩
        · rw [hrest] at hless
          exact .inl hless
        · rw [hown] at hless
          have hsmaller : measure after < measure last := hless
          omega
        · rw [hask] at hless
          have hsmaller : measure (resume answer) < measure last := hless answer
          omega
  obtain ⟨last, hlast, hzero | hbound⟩ := hrun
  · exact ⟨last, hlast, hzero⟩
  · exact ⟨last, hlast, by omega⟩

end Progress

/-! ## Counting parties by their visits -/

/-- **Counting rule**: if the party at every place of a kind has paid a visit of a kind, there are
at most as many such places as such visits. -/
theorem countP_places_le {parties : List S.Party} {log : List (Nat × Visit S)}
    {kind : S.Party × Nat → Bool} {shows : Visit S → Bool}
    (h : ∀ i party, parties[i]? = some party → kind (party, i) = true →
      ∃ visit ∈ visitsBy i log, shows visit = true) :
    parties.zipIdx.countP kind ≤ log.countP fun entry => shows entry.2 := by
  -- the places of such parties are among those of such visits, and differ
  let places := (parties.zipIdx.filter kind).map Prod.snd
  let visited := (log.filter fun entry => shows entry.2).map Prod.fst
  have hnodup : places.Nodup := by
    apply List.Nodup.sublist (List.Sublist.map _ List.filter_sublist)
    rw [List.zipIdx_map_snd]
    exact List.nodup_range'
  have hsub : places ⊆ visited := by
    intro i hi
    obtain ⟨⟨party, place⟩, hmem, rfl⟩ := List.mem_map.mp hi
    obtain ⟨hplace, hkind⟩ := List.mem_filter.mp hmem
    obtain ⟨visit, hvisit, hshows⟩ :=
      h place party (List.mem_zipIdx_iff_getElem?.mp hplace) hkind
    refine List.mem_map.mpr ⟨(place, visit), List.mem_filter.mpr ⟨?_, hshows⟩, rfl⟩
    exact mem_visitsBy.mp hvisit
  calc parties.zipIdx.countP kind = places.length := by
        rw [List.length_map, List.countP_eq_length_filter]
    _ ≤ visited.length := (List.subperm_of_subset hnodup hsub).length_le
    _ = log.countP fun entry => shows entry.2 := by
      rw [List.length_map, List.countP_eq_length_filter]

/-- The same for parties of a kind that does not depend on their places. -/
theorem countP_parties_le {parties : List S.Party} {log : List (Nat × Visit S)}
    {kind : S.Party → Bool} {shows : Visit S → Bool}
    (h : ∀ i party, parties[i]? = some party → kind party = true →
      ∃ visit ∈ visitsBy i log, shows visit = true) :
    parties.countP kind ≤ log.countP fun entry => shows entry.2 := by
  have hmap : parties.countP kind = (parties.zipIdx.map Prod.fst).countP kind := by
    rw [List.zipIdx_map_fst]
  rw [hmap, List.countP_map]
  exact countP_places_le h

/-- The visits of one party among those of a log. -/
theorem countP_visitsBy (i : Nat) (log : List (Nat × Visit S)) (shows : Visit S → Bool) :
    (visitsBy i log).countP shows = log.countP fun entry => entry.1 = i ∧ shows entry.2 := by
  unfold visitsBy
  rw [List.countP_filterMap]
  refine List.countP_congr fun entry _ => ?_
  by_cases hi : entry.1 = i
  · simp [hi]
  · simp [hi]

/-- **Places rule**: if the party at each place has paid one visit of a kind at most, there are at
least as many places with such a visit as there are such visits. -/
theorem countP_log_le {n : Nat} {log : List (Nat × Visit S)} {shows : Visit S → Bool}
    (hknown : ∀ entry ∈ log, entry.1 < n)
    (h : ∀ i < n, (visitsBy i log).countP shows ≤ 1) :
    (log.countP fun entry => shows entry.2) ≤
      (List.range n).countP fun i => (visitsBy i log).any shows := by
  -- Every place of the log that shows something is the place of one visit, and of no other.
  let visited := (log.filter fun entry => shows entry.2).map Prod.fst
  let places := (List.range n).filter fun i => (visitsBy i log).any shows
  have hcount : ∀ i, visited.count i = (visitsBy i log).countP shows := by
    intro i
    rw [countP_visitsBy, List.count, List.countP_map, List.countP_filter]
    refine List.countP_congr fun entry _ => ?_
    simp
  have hnodup : visited.Nodup := by
    rw [List.nodup_iff_count_le_one]
    intro i
    by_cases hi : i < n
    · exact Nat.le_trans (Nat.le_of_eq (hcount i)) (h i hi)
    · have habsent : i ∉ visited := by
        intro hmem
        obtain ⟨entry, hentry, rfl⟩ := List.mem_map.mp hmem
        exact hi (hknown entry (List.mem_filter.mp hentry).1)
      rw [List.count_eq_zero_of_not_mem habsent]
      exact Nat.zero_le 1
  have hsub : visited ⊆ places := by
    intro i hi
    obtain ⟨⟨place, visit⟩, hmem, rfl⟩ := List.mem_map.mp hi
    obtain ⟨hentry, hshows⟩ := List.mem_filter.mp hmem
    refine List.mem_filter.mpr ⟨List.mem_range.mpr (hknown _ hentry), ?_⟩
    exact List.any_eq_true.mpr ⟨visit, mem_visitsBy.mpr hentry, hshows⟩
  calc (log.countP fun entry => shows entry.2) = visited.length := by
        rw [List.length_map, List.countP_eq_length_filter]
    _ ≤ places.length := (List.subperm_of_subset hnodup hsub).length_le
    _ = (List.range n).countP fun i => (visitsBy i log).any shows := by
      rw [List.countP_eq_length_filter]

/-! ## What parties still owe a component -/

section Debts

theorem countP_set_add {parties : List S.Party} {i : Nat} {before : S.Party}
    (hbefore : parties[i]? = some before) (after : S.Party) (owes : S.Party → Bool) :
    (parties.set i after).countP owes + (if owes before then 1 else 0) =
      parties.countP owes + if owes after then 1 else 0 := by
  obtain ⟨hi, hget⟩ := List.getElem?_eq_some_iff.mp hbefore
  rw [List.countP_set hi, hget]
  by_cases howes : owes before = true
  · have hpos : 0 < parties.countP owes :=
      List.countP_pos_iff.mpr ⟨before, List.mem_of_getElem? hbefore, howes⟩
    simp only [if_pos howes]
    omega
  · simp only [if_neg howes]
    omega

/-- Parties raise the level of a component after the fact: a party gets to owe it only by a visit
that leaves it below a cap, and any other visit raises the level by no more than it takes off
what is owed. -/
structure Owing (S : System κ) (k : κ) (level : S.State k → Nat) (owes : S.Party → Bool)
    (cap : Nat) : Prop where
  start : ∀ arrival, owes (S.start arrival) = false
  own : ∀ {party after}, S.next party = .own after → owes after = true → owes party = true
  other : ∀ {party c input resume}, S.next party = .ask c input resume → c ≠ k →
    ∀ answer, owes (resume answer) = true → owes party = true
  visit : ∀ {party input resume}, S.next party = .ask k input resume → ∀ state,
    level (S.serve k state input).2 < cap ∨
      level (S.serve k state input).2 +
          (if owes (resume (S.serve k state input).1) then 1 else 0) ≤
        level state + if owes party then 1 else 0

variable [DecidableEq κ]

/-- **Debt step**: level and debts stay within the cap and the parties that owe at once. -/
theorem Owing.step {k : κ} {level : S.State k → Nat} {owes : S.Party → Bool} {cap few : Nat}
    (hrules : Owing S k level owes cap) (world : World S) (event : Event S)
    (hfew : (System.step world event).2.parties.countP owes ≤ few)
    (hle : level (world.shared k) + world.parties.countP owes ≤ cap - 1 + few) :
    level ((System.step world event).2.shared k) +
      (System.step world event).2.parties.countP owes ≤ cap - 1 + few := by
  -- By the four kinds of a step; only a visit of `k` can raise the level.
  rcases step_cases world event with ⟨arrival, -, hstep⟩ | ⟨i, -, hstep⟩ |
    ⟨i, party, after, -, hparty, hnext, hstep⟩ |
    ⟨i, party, c, input, resume, -, hparty, hnext, hstep⟩
  · rw [hstep, List.countP_append, List.countP_singleton, hrules.start]
    exact hle
  · rw [hstep]
    exact hle
  · rw [hstep]
    have hset := countP_set_add hparty after owes
    -- a party that moves alone takes on no debt
    have hmore : (if owes after then 1 else 0) ≤ if owes party then 1 else 0 := by
      split_ifs with hafter hbefore
      · exact Nat.le_refl _
      · exact absurd (hrules.own hnext hafter) hbefore
      · exact Nat.zero_le _
      · exact Nat.le_refl _
    dsimp only
    omega
  · rw [hstep] at hfew ⊢
    dsimp only at hfew ⊢
    have hset := countP_set_add hparty (resume (S.serve c (world.shared c) input).1) owes
    by_cases hc : c = k
    · subst hc
      rw [Function.update_self]
      -- a visit of `k` has room for what it adds, or pays for it with its own debt
      rcases hrules.visit hnext (world.shared c) with hroom | hpaid
      · omega
      · omega
    · rw [Function.update_of_ne (Ne.symm hc)]
      -- another component's answer makes no debt
      have hmore : (if owes (resume (S.serve c (world.shared c) input).1) then 1 else 0) ≤
          if owes party then 1 else 0 := by
        split_ifs with hafter hbefore
        · exact Nat.le_refl _
        · exact absurd (hrules.other hnext hc _ hafter) hbefore
        · exact Nat.zero_le _
        · exact Nat.le_refl _
      omega

/-- **Debt rule**: while no more than `few` parties owe at once, the level with what is owed never
exceeds the cap by more than that. -/
theorem level_add_owing_le {k : κ} {level : S.State k → Nat} {owes : S.Party → Bool}
    {cap few : Nat} (hrules : Owing S k level owes cap) {shared : ∀ k, S.State k}
    (hstart : level (shared k) ≤ cap - 1) {events : List (Event S)}
    (hfew : ∀ earlier, earlier <+: events →
      (final System.step ⟨shared, []⟩ earlier).parties.countP owes ≤ few) :
    level ((final System.step ⟨shared, []⟩ events).shared k) +
      (final System.step ⟨shared, []⟩ events).parties.countP owes ≤ cap - 1 + few := by
  induction events using List.reverseRecOn with
  | nil => exact Nat.add_le_add hstart (Nat.zero_le _)
  | append_singleton events event ih =>
    have hlater := hfew _ (List.prefix_refl _)
    rw [final_concat] at hlater ⊢
    exact hrules.step _ event hlater
      (ih fun earlier hpre => hfew earlier (hpre.trans (List.prefix_append ..)))

end Debts

end System

end Library.Concurrent
