import AntelopeFirewall.Library.Concurrent
import Mathlib.Data.List.Forall2

/-!
# Two Runs in Lockstep

A run of a system can be compared with another one in which the parties carry other data. If the
data makes no difference to where a party goes next, nor to what a component does with what it is
asked, the two runs leave the same components, and each party is where its counterpart is.

- `Alike` is such a relation, `Alike.step` one event of two runs, `Alike.run` whole runs.
-/

namespace Library.Concurrent

open Machine

namespace System

variable {κ : Type} {S : System κ}

/-- Two parties go the same way: they ask the same component and go on alike whatever it answers,
take a step of their own alike, or both rest. -/
inductive MovesAlike (same : S.Party → S.Party → Prop)
    (asks : ∀ k, S.Input k → S.Input k → Prop) :
    Move S.Input S.Answer S.Party → Move S.Input S.Answer S.Party → Prop where
  | ask {k : κ} {input input' : S.Input k} {resume resume' : S.Answer k → S.Party} :
      asks k input input' → (∀ answer, same (resume answer) (resume' answer)) →
      MovesAlike same asks (.ask k input resume) (.ask k input' resume')
  | own {after after' : S.Party} : same after after' →
      MovesAlike same asks (.own after) (.own after')
  | rest : MovesAlike same asks .rest .rest

/-- Parties are alike when they start alike, go the same way, and no component sees a difference
between what they ask it. -/
structure Alike (same : S.Party → S.Party → Prop) (asks : ∀ k, S.Input k → S.Input k → Prop)
    (arrive : S.Arrival → S.Arrival → Prop) : Prop where
  start : ∀ {a a'}, arrive a a' → same (S.start a) (S.start a')
  next : ∀ {party party'}, same party party' → MovesAlike same asks (S.next party) (S.next party')
  serve : ∀ {k input input'}, asks k input input' →
    ∀ state, S.serve k state input = S.serve k state input'

/-- Events that differ in what arrives only. -/
inductive EventsAlike (arrive : S.Arrival → S.Arrival → Prop) : Event S → Event S → Prop where
  | join {a a' : S.Arrival} : arrive a a' → EventsAlike arrive (.join a) (.join a')
  | turn (i : Nat) : EventsAlike arrive (.turn i) (.turn i)

/-- The same components, and parties that are alike. -/
structure WorldsAlike (same : S.Party → S.Party → Prop) (world world' : World S) : Prop where
  shared : world.shared = world'.shared
  parties : List.Forall₂ same world.parties world'.parties

variable {same : S.Party → S.Party → Prop} {asks : ∀ k, S.Input k → S.Input k → Prop}
  {arrive : S.Arrival → S.Arrival → Prop}

theorem forall₂_set {α : Type} {R : α → α → Prop} {xs ys : List α} (h : List.Forall₂ R xs ys)
    {x y : α} (hxy : R x y) (i : Nat) : List.Forall₂ R (xs.set i x) (ys.set i y) := by
  induction h generalizing i with
  | nil => exact .nil
  | cons hfirst hrest ih =>
    cases i with
    | zero => exact .cons hxy hrest
    | succ i => exact .cons hfirst (ih i)

/-- A place is empty in both lists or in neither, and then it holds related elements. -/
theorem forall₂_getElem? {α : Type} {R : α → α → Prop} {xs ys : List α}
    (h : List.Forall₂ R xs ys) (i : Nat) :
    (xs[i]? = none ∧ ys[i]? = none) ∨
      ∃ x y, xs[i]? = some x ∧ ys[i]? = some y ∧ R x y := by
  induction h generalizing i with
  | nil => exact .inl ⟨rfl, rfl⟩
  | cons hfirst hrest ih =>
    cases i with
    | zero => exact .inr ⟨_, _, rfl, rfl, hfirst⟩
    | succ i => exact ih i

variable [DecidableEq κ]

/-- **Step**: one event keeps two worlds alike. -/
theorem Alike.step (h : Alike same asks arrive) {world world' : World S}
    (hworlds : WorldsAlike same world world') {event event' : Event S}
    (hevent : EventsAlike arrive event event') :
    WorldsAlike same (System.step world event).2 (System.step world' event').2 := by
  obtain ⟨shared, parties⟩ := world
  obtain ⟨shared', parties'⟩ := world'
  obtain ⟨rfl, hparties⟩ := hworlds
  dsimp only at hparties
  cases hevent with
  | join harrive =>
    exact ⟨rfl, List.rel_append hparties (.cons (h.start harrive) .nil)⟩
  | turn i =>
    rcases forall₂_getElem? hparties i with ⟨hnone, hnone'⟩ | ⟨party, party', hget, hget', hsame⟩
    · simp only [System.step, hnone, hnone']
      exact ⟨rfl, hparties⟩
    · simp only [System.step, hget, hget']
      -- the two parties move alike
      generalize hmove : S.next party = move
      generalize hmove' : S.next party' = move'
      have hmoves := h.next hsame
      rw [hmove, hmove'] at hmoves
      cases hmoves with
      | ask hasks hresume =>
        have hserve := h.serve hasks (shared _)
        simp only [Visit.left, Visit.answer, hserve]
        exact ⟨rfl, forall₂_set hparties (hresume _) i⟩
      | own hafter => exact ⟨rfl, forall₂_set hparties hafter i⟩
      | rest => exact ⟨rfl, hparties⟩

/-- **Run**: events that are alike keep two worlds alike. -/
theorem Alike.run (h : Alike same asks arrive) {world world' : World S}
    (hworlds : WorldsAlike same world world') {events events' : List (Event S)}
    (hevents : List.Forall₂ (EventsAlike arrive) events events') :
    WorldsAlike same (final System.step world events) (final System.step world' events') := by
  induction hevents generalizing world world' with
  | nil => exact hworlds
  | cons hevent _ ih => exact ih (h.step hworlds hevent)

end System

end Library.Concurrent
