import AntelopeFirewall.Firewall.Ceilings

/-!
# Documents From Outside

A filter or a limiter can rest on a document that a background task fetches again and again. The
task stores what each fetch brought; a document that was fetched before is kept beside the error of
a later fetch, and is not used then.

- `JsonDataCache.new` is the cache of a task, given what its fetches brought and when,
- `handleCacheOption_new` reads the last of them,
- `sent_on_last_documents` is about the requests of a firewall, in any interleaving: without a
  document from the last fetch none is sent to a node, and none is charged.
-/

namespace AntelopeFirewall

open Library Library.Machine Library.Concurrent

namespace JsonDataCache

/-! ## The background task -/

/-- How one fetch goes: it fails, or there is a response, whose body is read as JSON. -/
inductive Fetch where
  | failed (error : String)
  | answered (status : StatusCode) (json : Except String Json)

/-- What the task stores after a fetch. -/
def stored (statusText : StatusCode → String) (data : Json × JsonDataCacheStatus) :
    Fetch → Json × JsonDataCacheStatus
  | .failed error => (data.1, .unableToFetch error)
  | .answered status json =>
    if status.isSuccess then
      match json with
      | .ok json => (json, .ok)
      | .error error => (data.1, .invalidResponse error)
    else (data.1, .unableToFetch (statusText status))

/-- The cache of a task whose fetches were stored at these times, in this order. -/
def new (statusText : StatusCode → String) (fetches : List (Nat × Fetch)) : JsonDataCache where
  data now :=
    ((fetches.filter fun fetch => fetch.1 ≤ now).map Prod.snd).foldl (stored statusText)
      (.null, .uninitialized)

/-- The document that a fetch brings. -/
def Fetch.document : Fetch → Option Json
  | .answered status (.ok json) => if status.isSuccess then some json else none
  | _ => none

/-- The last fetch that was stored by a moment. -/
def lastFetch (fetches : List (Nat × Fetch)) (now : Nat) : Option Fetch :=
  (fetches.reverse.find? fun fetch => fetch.1 ≤ now).map Prod.snd

/-- What is read after a fetch is what it brought, whatever was stored before. -/
theorem read_stored (statusText : StatusCode → String) (data : Json × JsonDataCacheStatus)
    (fetch : Fetch) (now : Nat) :
    handleCacheOption (some ⟨fun _ => stored statusText data fetch⟩) now = fetch.document := by
  cases fetch with
  | failed error => rfl
  | answered status json =>
    unfold handleCacheOption stored Fetch.document
    cases hsuccess : status.isSuccess with
    | false => cases json <;> simp [hsuccess]
    | true => cases json <;> simp [hsuccess]

/-- A cache is read through what it holds at the moment. -/
theorem handleCacheOption_congr {cache cache' : JsonDataCache} {now : Nat}
    (h : cache.data now = cache'.data now) :
    handleCacheOption (some cache) now = handleCacheOption (some cache') now := by
  unfold handleCacheOption
  dsimp only
  rw [h]

/-- **Reading**: the document of a cache is that of the last fetch, if it brought one. -/
theorem handleCacheOption_new (statusText : StatusCode → String) (fetches : List (Nat × Fetch))
    (now : Nat) :
    handleCacheOption (some (new statusText fetches)) now =
      (lastFetch fetches now).bind Fetch.document := by
  -- Induction on the fetches from the last one.
  induction fetches using List.reverseRecOn with
  | nil => rfl
  | append_singleton fetches fetch ih =>
    unfold lastFetch at ih ⊢
    rw [List.reverse_append, List.reverse_singleton, List.singleton_append, List.find?_cons]
    by_cases hstored : fetch.1 ≤ now
    · -- the last fetch decides
      let latest : JsonDataCache :=
        ⟨fun _ => stored statusText ((new statusText fetches).data now) fetch.2⟩
      have hdata : (new statusText (fetches ++ [fetch])).data now = latest.data now := by
        simp [new, latest, hstored]
      rw [decide_eq_true hstored, handleCacheOption_congr hdata, read_stored]
      rfl
    · -- it was stored later
      have hdata : (new statusText (fetches ++ [fetch])).data now =
          (new statusText fetches).data now := by
        simp [new, hstored]
      rw [decide_eq_false hstored, handleCacheOption_congr hdata, ih]

end JsonDataCache

namespace RateLimiter

variable {F : Type} [F32 F] {limiter : RateLimiter}

/-- A request that passes was one to be limited, by the document of the limiter. -/
theorem document_of_passed {state : WindowState} {attempt : Attempt}
    (h : (shouldRequestPass F limiter state attempt).1.verdict = some true) :
    ∃ json, JsonDataCache.handleCacheOption limiter.cache attempt.now = some json ∧
      limiter.shouldBeLimited attempt.info attempt.value json = true := by
  unfold shouldRequestPass at h
  dsimp only at h
  split at h
  · cases h
  · next json hjson =>
    split at h
    · next hlimited => exact ⟨json, hjson, hlimited⟩
    · cases h

/-- A call that charges something has a document. -/
theorem document_of_charges {state : WindowState} {call : Call}
    (h : (limiter.respond F state call).1.charges ≠ []) :
    ∃ json, JsonDataCache.handleCacheOption limiter.cache call.now = some json := by
  cases call with
  | check attempt =>
    have hcharges : (shouldRequestPass F limiter state attempt).1.charges ≠ [] := h
    unfold shouldRequestPass at hcharges
    dsimp only at hcharges
    split at hcharges
    · exact absurd rfl hcharges
    · next json hjson => exact ⟨json, hjson⟩
  | charge outcome =>
    have hcharges : limiter.postCharges outcome ≠ [] := h
    unfold postCharges at hcharges
    split at hcharges
    · exact absurd rfl hcharges
    · next json hjson => exact ⟨json, hjson⟩

end RateLimiter

namespace Firewall

/-- The document that the last fetch brought by a moment, if it brought one. -/
def documentAt (fetches : List (Nat × JsonDataCache.Fetch)) (now : Nat) : Option Json :=
  (JsonDataCache.lastFetch fetches now).bind JsonDataCache.Fetch.document

/-- A request was let through on the documents of the last fetches: each filter and each limiter
that rests on a document had one when it was asked, and let the request through with it. -/
structure OnLastDocuments (fw : Firewall) (statusText : StatusCode → String) (task : Task)
    (d : Dispatch) : Prop where
  filters : ∀ (k : Nat) (filter : Filter) (fetches : List (Nat × JsonDataCache.Fetch)),
    fw.filters[k]? = some filter → filter.cache = some (.new statusText fetches) →
      ∃ json, documentAt fetches (task.env.filterNow k) = some json ∧
        filter.pass d.received.info d.received.body json = true
  limiters : ∀ (i : Fin fw.ratelimiters.length) (fetches : List (Nat × JsonDataCache.Fetch)),
    (fw.limiterAt i).cache = some (.new statusText fetches) →
      ∃ json, documentAt fetches (task.env.check i).now = some json ∧
        (fw.limiterAt i).shouldBeLimited d.received.info d.received.body json = true

/-- **Documents**: in any interleaving of requests and fetches, a request is sent to a node only on
the documents that the last fetches before its checks brought, and a limiter charges something only
when the last fetch before that call brought a document. -/
theorem sent_on_last_documents (F : Type) [F32 F] (fw : Firewall) (crates : Crates)
    (statusText : StatusCode → String) (shared : ∀ part : Part fw, part.State)
    (events : List (System.Event (fw.system F crates))) :
    (∀ (j : Nat) (task : Task) (d : Dispatch),
      (after F fw crates shared events).parties[j]? = some task → task.dispatched = some d →
        OnLastDocuments fw statusText task d) ∧
    ∀ (i : Fin fw.ratelimiters.length) (fetches : List (Nat × JsonDataCache.Fetch)),
      (fw.limiterAt i).cache = some (.new statusText fetches) →
        ∀ entry ∈ logOf F fw crates shared events, ∀ call reply,
          answeredBy i entry.2 = some (call, reply) → reply.charges ≠ [] →
            ∃ json, documentAt fetches call.now = some json := by
  constructor
  · intro j task d htask hsent
    -- A sent request is where one call comes to, and that call passed its filters and limiters.
    obtain ⟨incoming, found, progress, -, rfl, hreached⟩ := reached_of_mem htask
    obtain ⟨hdispatched, -⟩ := hreached.dispatched hsent
    obtain ⟨hreceived, hpassed⟩ := passesLimiters_of_dispatch hdispatched
    constructor
    -- a filter reads its document when it is asked
    · intro k filter fetches hget hcache
      have hfilters := (receive_ok_iff.mp hreceived).2.2.2.2.2
      have hpass := passesFilters_iff.mp hfilters k filter hget
      unfold Filter.shouldRequestPass at hpass
      rw [hcache, JsonDataCache.handleCacheOption_new] at hpass
      split at hpass
      · next json hjson => exact ⟨json, hjson, hpass⟩
      · cases hpass
    -- and so does a limiter when it checks
    · intro i fetches hcache
      obtain ⟨json, hjson, hlimited⟩ := RateLimiter.document_of_passed (hpassed i)
      rw [hcache, JsonDataCache.handleCacheOption_new] at hjson
      exact ⟨json, hjson, hlimited⟩
  · intro i fetches hcache entry hentry call reply hanswered hcharges
    obtain ⟨k, part, state, asked⟩ := entry
    -- only the visits of this limiter charge it
    by_cases hpart : part = .limiter i
    · subst hpart
      have hcall : answeredBy i (⟨.limiter i, state, asked⟩ : Section F fw crates) =
          some (asked, ((fw.limiterAt i).respond F state asked).1) := answeredBy_self ..
      obtain ⟨rfl, rfl⟩ := Prod.mk.inj (Option.some_inj.mp (hcall.symm.trans hanswered))
      obtain ⟨json, hjson⟩ := RateLimiter.document_of_charges hcharges
      rw [hcache, JsonDataCache.handleCacheOption_new] at hjson
      exact ⟨json, hjson⟩
    · have hnone : answeredBy i (⟨part, state, asked⟩ : Section F fw crates) = none :=
        answeredBy_of_ne hpart
      rw [hnone] at hanswered
      cases hanswered

/-! ## A filter with a document -/

def isNull : Json → Bool
  | .null => true
  | _ => false

/-- A firewall whose filter is open as long as its document is null. -/
def guardedBy (fetches : List (Nat × JsonDataCache.Fetch)) : Firewall :=
  { servingOne .attempt 1 with
    filters := [⟨"open", fun _ _ json => isNull json, some (.new toString fetches)⟩] }

/-- One request, served to its end. -/
noncomputable def guardedRun (fetches : List (Nat × JsonDataCache.Fetch)) :
    List (System.Event ((guardedBy fetches).system ℚ nullDocument)) :=
  .join (answeredWith 200) :: List.replicate 10 (.turn 0)

/-- A request is sent to the node on the document of a fetch that went well. -/
theorem sent_on_last_documents_guarded :
    let fetches := [(0, JsonDataCache.Fetch.answered 200 (.ok .null))]
    ∃ task d, (after ℚ (guardedBy fetches) nullDocument (fresh (guardedBy fetches) 0)
        (guardedRun fetches)).parties[0]? = some task ∧ Task.dispatched task = some d ∧
      OnLastDocuments (guardedBy fetches) toString task d := by
  intro fetches
  obtain ⟨task, d, htask, hsent⟩ : ∃ task d, (after ℚ (guardedBy fetches) nullDocument
      (fresh (guardedBy fetches) 0) (guardedRun fetches)).parties[0]? = some task ∧
        Task.dispatched task = some d := dispatched_of_places (by decide +kernel)
  exact ⟨task, d, htask, hsent, (sent_on_last_documents ℚ (guardedBy fetches) nullDocument toString
    (fresh (guardedBy fetches) 0) (guardedRun fetches)).1 0 task d htask hsent⟩

-- after a fetch that failed the document of the one before is not used
example :
    let fetches := [(0, JsonDataCache.Fetch.answered 200 (.ok .null)), (0, .failed "timed out")]
    (after ℚ (guardedBy fetches) nullDocument (fresh (guardedBy fetches) 0)
      (guardedRun fetches)).parties.map Task.status = [some 403] := by decide +kernel

end Firewall

end AntelopeFirewall
