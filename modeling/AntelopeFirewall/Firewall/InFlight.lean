import AntelopeFirewall.Firewall.Ceilings
import AntelopeFirewall.RateLimiter.Overlap

/-!
# What Requests in Flight Cost a Failure-Mode Limiter

A limiter that charges failures hears of one when the answer is back. Requests that passed its
check before are on their way by then, and each of them may fail, too. How far the failures of a
window can go past twice the limit is bounded by how many requests are on their way at once.

- `owes` says that a request may yet charge a bucket,
- `owes_own` and `within_ask` say what a step of a request does to the count and to what is
  owed,
- `failures_within` is the bound, over any interleaving.
-/

namespace AntelopeFirewall

open Library Library.Machine Library.Concurrent

namespace RateLimiter

variable {F : Type} [F32 F] {limiter : RateLimiter} {limit : Nat}

/-- A check in failure mode raises no count. -/
theorem check_count_le (hlimits : LimitsFailures limiter limit) (state : WindowState)
    (attempt : Attempt) (bucket : String) :
    (shouldRequestPass F limiter state attempt).2.currentBuckets.count bucket ≤
      state.currentBuckets.count bucket := by
  rw [shouldRequestPass_state_failure hlimits.mode, count_updateCurrentWindow]
  split
  · exact Nat.le_refl _
  · exact Nat.zero_le _

/-- The charge after a response raises the count of a bucket of its request by one at most. -/
theorem charge_count_le (hlimits : LimitsFailures limiter limit) (state : WindowState)
    (outcome : Outcome) (bucket : String) :
    (postIncrement limiter state outcome).currentBuckets.count bucket ≤
      state.currentBuckets.count bucket +
        if bucket ∈ limiter.requestBuckets (outcome.info, outcome.data) then 1 else 0 := by
  rw [count_postIncrement hlimits]
  split_ifs <;> omega

end RateLimiter

namespace Firewall

/-- A received request has a bucket at a limiter. -/
def hasBucket (fw : Firewall) (i : Fin fw.ratelimiters.length) (bucket : String)
    (received : Received) : Bool :=
  bucket ∈ (fw.limiterAt i).requestBuckets (received.info, received.body)

/-- A request with the bucket has passed the check of a limiter and may yet be charged. -/
def owes (fw : Firewall) (i : Fin fw.ratelimiters.length) (bucket : String) : Progress → Bool
  | .arrived => false
  | .limiting received j => i < j && hasBucket fw i bucket received
  | .matching received => hasBucket fw i bucket received
  | .pinning received _ _ => hasBucket fw i bucket received
  | .choosing received _ => hasBucket fw i bucket received
  | .forwarding received _ => hasBucket fw i bucket received
  | .waiting d => hasBucket fw i bucket d.received
  | .charging d _ _ j => j ≤ i && hasBucket fw i bucket d.received
  | .ended _ => false

section Steps

variable {F : Type} [F32 F] {fw : Firewall} {crates : Crates} {i : Fin fw.ratelimiters.length}
  {bucket : String} {task : Task}

theorem owes_answered {d : Dispatch} {reply : Option NodeReply} {metrics : Metrics.State}
    (h : owes fw i bucket (answered crates d reply metrics) = true) :
    hasBucket fw i bucket d.received = true := by
  unfold answered at h
  split at h
  · cases h
  · dsimp only at h
    split at h
    · split at h
      · cases h
      · split at h
        · cases h
        · -- the charges are ahead
          simp only [owes, Bool.and_eq_true] at h
          exact h.2
    · cases h

/-- A step of its own does not make a request owe more. -/
theorem owes_own {later : Task} (hnext : task.next fw crates = .own later)
    (howes : owes fw i bucket later.progress = true) : owes fw i bucket task.progress = true := by
  obtain ⟨request, peer, env, progress⟩ := task
  cases progress with
  | arrived =>
    -- it is refused, or comes to the first limiter, which it has yet to pass
    simp only [Task.next] at hnext
    split at hnext
    · cases hnext
      cases howes
    · cases hnext
      simp [owes] at howes
  | limiting received j =>
    simp only [Task.next] at hnext
    split at hnext
    · cases hnext
    · next hlast =>
      cases hnext
      -- no limiter is left, so this one is behind it
      have hpast : i.1 < j := Nat.lt_of_lt_of_le i.2 (Nat.le_of_not_lt hlast)
      exact Bool.and_eq_true_iff.mpr ⟨decide_eq_true hpast, howes⟩
  | matching received =>
    -- the received request stays what it is until it is sent
    simp only [Task.next] at hnext
    split at hnext
    · cases hnext
      cases howes
    · split at hnext
      · cases hnext
        exact howes
      · cases hnext
        exact howes
      · cases hnext
        exact howes
  | pinning received nodes node => cases hnext
  | choosing received nodes => cases hnext
  | forwarding received chosen =>
    simp only [Task.next] at hnext
    split at hnext
    · cases hnext
      cases howes
    · cases hnext
      exact howes
  | waiting d =>
    cases hnext
    exact owes_answered howes
  | charging d outcome response j =>
    simp only [Task.next] at hnext
    split at hnext
    · split at hnext
      · -- a limiter that is passed over is another one, or is not owed any more
        cases hnext
        simp only [owes, Bool.and_eq_true, decide_eq_true_eq] at howes ⊢
        exact ⟨by omega, howes.2⟩
      · cases hnext
    · cases hnext
      cases howes
  | ended handled => cases hnext

/-- A visit to another part does not make a request owe more. -/
theorem owes_ask_other {part : Part fw} {input : part.Input} {resume : part.Answer → Task}
    (hnext : task.next fw crates = .ask part input resume) (hother : part ≠ .limiter i)
    (answer : part.Answer) (howes : owes fw i bucket (resume answer).progress = true) :
    owes fw i bucket task.progress = true := by
  obtain ⟨request, peer, env, progress⟩ := task
  -- By the visit: a request owes this limiter only after its check and before its charge.
  rcases progress_of_ask hnext with ⟨received, j, hprogress, hj⟩ |
    ⟨received, nodes, node, hprogress⟩ | ⟨received, nodes, hprogress⟩ |
    ⟨d, outcome, response, j, hprogress, hj, hafter⟩
  -- the check of another limiter, which the request passes or ends at
  · dsimp only at hprogress
    subst hprogress
    simp only [Task.next, dif_pos hj] at hnext
    cases hnext
    have hne : j ≠ i.1 := by
      rintro rfl
      exact hother rfl
    dsimp only at howes
    split at howes
    · simp only [owes, Bool.and_eq_true, decide_eq_true_eq] at howes ⊢
      exact ⟨by omega, howes.2⟩
    · cases howes
    · cases howes
  -- the pins: it goes on to the node or to the routing mode
  · dsimp only at hprogress
    subst hprogress
    cases hnext
    dsimp only at howes
    split at howes
    · exact howes
    · exact howes
  -- the routing mode: it goes on to the node or ends
  · dsimp only at hprogress
    subst hprogress
    cases hnext
    dsimp only at howes
    split at howes
    · exact howes
    · cases howes
  -- the charge of another limiter
  · dsimp only at hprogress
    subst hprogress
    simp only [Task.next, dif_pos hj, hafter] at hnext
    cases hnext
    simp only [owes, Bool.and_eq_true, decide_eq_true_eq] at howes ⊢
    exact ⟨by omega, howes.2⟩

/-- A request that its check stops owes nothing. -/
theorem owes_checked {received : Received} {j : Nat} (hj : j < fw.ratelimiters.length)
    {call : RateLimiter.Call} {resume : RateLimiter.Reply → Task} {request : Request}
    {peer : IpAddr} {env : Env}
    (hnext : Task.next fw crates ⟨request, peer, env, .limiting received j⟩ =
      .ask (.limiter ⟨j, hj⟩) call resume) {reply : RateLimiter.Reply}
    (howes : owes fw ⟨j, hj⟩ bucket (resume reply).progress = true) :
    verdictOf reply = some true ∧ hasBucket fw ⟨j, hj⟩ bucket received = true := by
  simp only [Task.next, dif_pos hj] at hnext
  cases hnext
  dsimp only at howes
  split at howes
  · next hverdict =>
    simp only [owes, Bool.and_eq_true] at howes
    exact ⟨hverdict, howes.2⟩
  · cases howes
  · cases howes

/-- **Visit to the limiter**: a request that passes finds fewer failures than twice the limit and
leaves as many; otherwise what is counted and what the request owes do not grow together. -/
theorem within_ask {limit : Nat} (hlimits : RateLimiter.LimitsFailures (fw.limiterAt i) limit)
    {call : RateLimiter.Call} {resume : RateLimiter.Reply → Task}
    (hnext : task.next fw crates = .ask (.limiter i) call resume) (state : WindowState) :
    let served := (fw.limiterAt i).respond F state call
    served.2.currentBuckets.count bucket < 2 * limit ∨
      served.2.currentBuckets.count bucket +
          (if owes fw i bucket (resume served.1).progress then 1 else 0) ≤
        state.currentBuckets.count bucket +
          (if owes fw i bucket task.progress then 1 else 0) := by
  obtain ⟨request, peer, env, progress⟩ := task
  rcases progress_of_ask hnext with ⟨received, j, hprogress, hj⟩ |
    ⟨received, nodes, node, hprogress⟩ | ⟨received, nodes, hprogress⟩ |
    ⟨d, outcome, response, j, hprogress, hj, hafter⟩
  · dsimp only at hprogress
    subst hprogress
    obtain ⟨rfl, rfl⟩ : i = ⟨j, hj⟩ ∧ call = checkCall received env j := by
      simp only [Task.next, dif_pos hj] at hnext
      cases hnext
      exact ⟨rfl, rfl⟩
    have hle := RateLimiter.check_count_le (F := F) hlimits state
      (attemptAt received (env.check j)) bucket
    by_cases howes : owes fw ⟨j, hj⟩ bucket (resume (RateLimiter.respond F
        (fw.limiterAt ⟨j, hj⟩) state
        (checkCall received env j)).1).progress = true
    · left
      obtain ⟨hpassed, hbucket⟩ := owes_checked hj hnext howes
      have hroom := RateLimiter.passed_room hlimits hpassed (of_decide_eq_true hbucket)
      rwa [← RateLimiter.shouldRequestPass_state_failure (F := F) hlimits.mode] at hroom
    · right
      simp only [if_neg howes]
      exact Nat.le_trans hle (Nat.le_add_right _ _)
  · dsimp only at hprogress
    subst hprogress
    cases hnext
  · dsimp only at hprogress
    subst hprogress
    cases hnext
  · dsimp only at hprogress
    subst hprogress
    simp only [Task.next, dif_pos hj, hafter] at hnext
    cases hnext
    right
    -- the charge is what the request owed
    have hle := RateLimiter.charge_count_le hlimits state ⟨d.received.info, d.received.body,
      outcome, (env.charge j).order, (env.charge j).now⟩ bucket
    have hbefore : owes fw ⟨j, hj⟩ bucket (.charging d outcome response j) =
        hasBucket fw ⟨j, hj⟩ bucket d.received := by
      simp only [owes, Nat.le_refl, decide_true, Bool.true_and]
    have hlater : owes fw ⟨j, hj⟩ bucket (.charging d outcome response (j + 1)) = false := by
      simp only [owes, Nat.not_succ_le_self, decide_false, Bool.false_and]
    simp only [hbefore, hlater]
    simp only [hasBucket, decide_eq_true_eq, Bool.false_eq_true, if_false, Nat.add_zero]
    exact hle

/-- The requests of the firewall owe a limiter that charges failures. -/
theorem owing {limit : Nat} (hlimits : RateLimiter.LimitsFailures (fw.limiterAt i) limit) :
    System.Owing (fw.system F crates) (Part.limiter i)
      (fun state : WindowState => state.currentBuckets.count bucket)
      (fun task : Task => owes fw i bucket task.progress) (2 * limit) where
  start := fun _ => rfl
  own := fun hnext => owes_own hnext
  other := fun hnext hother => owes_ask_other hnext hother
  visit := fun hnext => within_ask hlimits hnext

end Steps

/-- How many requests have passed the check of a limiter with the bucket and may yet be charged
for it. -/
def inFlight {F : Type} [F32 F] {fw : Firewall} {crates : Crates}
    (i : Fin fw.ratelimiters.length) (bucket : String)
    (world : System.World (fw.system F crates)) : Nat :=
  world.parties.countP fun task : Task => owes fw i bucket task.progress

/-- How many failures a limiter has counted for a bucket in its window. -/
def counted {F : Type} [F32 F] {fw : Firewall} {crates : Crates}
    (i : Fin fw.ratelimiters.length) (bucket : String)
    (world : System.World (fw.system F crates)) : Nat :=
  let state : WindowState := world.shared (Part.limiter i)
  state.currentBuckets.count bucket

/-- **Failure ceiling of the firewall**: in any interleaving where at most `few` requests with a
bucket are on their way at once, a limiter that charges failures counts at most `few - 1` more
of them in a window than twice its limit; what may yet come back is within that, too. The limiter
has no document to fetch, as those of a configuration do not. -/
theorem failures_within (F : Type) [F32 F] (fw : Firewall) (crates : Crates)
    (shared : ∀ part : Part fw, part.State) (events : List (System.Event (fw.system F crates)))
    (i : Fin fw.ratelimiters.length) (limit start few : Nat) (bucket : String)
    (hlimits : RateLimiter.LimitsFailures (fw.limiterAt i) limit)
    (hstart : shared (.limiter i) =
      RateLimiter.newState (fw.limiterAt i).windowDuration start)
    (hfew : ∀ earlier, earlier <+: events →
      inFlight i bucket (after F fw crates shared earlier) ≤ few) :
    counted i bucket (after F fw crates shared events) +
      inFlight i bucket (after F fw crates shared events) ≤ 2 * limit - 1 + few := by
  have hidle : (WindowState.currentBuckets (shared (.limiter i))).count bucket ≤ 2 * limit - 1 := by
    rw [hstart]
    exact Nat.zero_le _
  exact System.level_add_owing_le (S := fw.system F crates) (owing hlimits) hidle hfew

/-- One request fails, then three fail that were on their way together: a limit of one counts
four failures, as many as three at once can bring it to. -/
noncomputable def oneThenThree :
    List (System.Event ((servingOne .failure 1).system ℚ nullDocument)) :=
  .join (answeredWith 500) :: List.replicate 10 (.turn 0) ++
    [.join (answeredWith 500), .join (answeredWith 500), .join (answeredWith 500)] ++
    (List.range 10).flatMap fun _ => [.turn 1, .turn 2, .turn 3]

theorem failures_within_oneThenThree :
    counted (theLimiter .failure 1) "a" (after ℚ (servingOne .failure 1) nullDocument
      (fresh (servingOne .failure 1) 0) oneThenThree) = 4 ∧
    counted (theLimiter .failure 1) "a" (after ℚ (servingOne .failure 1) nullDocument
      (fresh (servingOne .failure 1) 0) oneThenThree) +
    inFlight (theLimiter .failure 1) "a" (after ℚ (servingOne .failure 1) nullDocument
      (fresh (servingOne .failure 1) 0) oneThenThree) ≤ 2 * 1 - 1 + 3 := by
  refine ⟨by decide +kernel, ?_⟩
  refine failures_within ℚ (servingOne .failure 1) nullDocument
    (fresh (servingOne .failure 1) 0) oneThenThree (theLimiter .failure 1) 1 0 3 "a"
    ⟨rfl, rfl, rfl⟩ rfl fun earlier hearlier => ?_
  have htake : ∀ n, n < oneThenThree.length + 1 →
      inFlight (theLimiter .failure 1) "a" (after ℚ (servingOne .failure 1) nullDocument
        (fresh (servingOne .failure 1) 0) (oneThenThree.take n)) ≤ 3 := by
    decide +kernel
  rw [List.prefix_iff_eq_take.mp hearlier]
  exact htake _ (Nat.lt_succ_of_le hearlier.length_le)

end Firewall

end AntelopeFirewall
