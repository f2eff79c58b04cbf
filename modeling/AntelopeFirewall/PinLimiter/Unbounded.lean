import AntelopeFirewall.Addresses
import AntelopeFirewall.PinLimiter.Ceiling

/-!
# The Pin Limiter without a Bound

The map of the pin limiter has a ceiling. It sweeps the windows that ended when it is full,
whichever key is asked for, and refuses a new key when that is not enough. But for these
refusals it cannot be told from a limiter that keeps a counter for every key forever.

- `reference` is that limiter,
- `step_reference` is the step of the simulation, `answers_of_reference` the run,
- `pinKey_inj` says that different clients and names have different keys.
-/

namespace AntelopeFirewall.PinLimiter

open Library Library.FixedWindow Library.Machine

/-! ## The reference -/

/-- One fixed-window counter for every key, which none ever leaves. -/
def reference (limiter : PinLimiter) (counters : String → Counter) (call : PinCall) :
    Bool × (String → Counter) :=
  let asked := grant limiter.limit limiter.window call.now (counters call.key)
  (asked.1, Function.update counters call.key asked.2)

/-- The counter of one key. -/
def counter (limiter : PinLimiter) (c : Counter) (call : PinCall) : Bool × Counter :=
  grant limiter.limit limiter.window call.now c

/-! ## Refusals for lack of room -/

/-- Whether a call is refused because the map found no room for its key. -/
def lacksRoom (limiter : PinLimiter) (state : PinState) (call : PinCall) : Bool :=
  limiter.limit ≠ 0 ∧ limiter.expired state call.key call.now ∧ call.key ∉ state ∧
    (makeRoom state call.now limiter.window).1 = false

/-- An answer, and whether it is a refusal for lack of room. -/
structure Noted where
  admitted : Bool
  lackedRoom : Bool
  deriving DecidableEq, Repr

/-- The step of the limiter with a note of the refusals for lack of room. -/
def stepNoting (limiter : PinLimiter) (state : PinState) (call : PinCall) : Noted × PinState :=
  (⟨(limiter.step state call).1, limiter.lacksRoom state call⟩, (limiter.step state call).2)

/-- The calls of a run that were not refused for lack of room. -/
def remaining (answered : List (PinCall × Noted)) : List (PinCall × Noted) :=
  answered.filter fun e => !e.2.lackedRoom

/-- The note changes nothing. -/
theorem trace_stepNoting (limiter : PinLimiter) (state : PinState) (calls : List PinCall) :
    (trace limiter.stepNoting state calls).map (fun e => (e.1, e.2.admitted)) =
      trace limiter.step state calls := by
  induction calls generalizing state with
  | nil => rfl
  | cons call calls ih =>
    rw [trace, List.map_cons, ih]
    rfl

variable {limiter : PinLimiter} {state : PinState} {call : PinCall}

/-- Without room the call is refused. -/
theorem not_admitted_of_lacksRoom (h : limiter.lacksRoom state call = true) :
    (limiter.step state call).1 = false := by
  simp only [lacksRoom, decide_eq_true_eq] at h
  obtain ⟨hlimit, hexpired, hkey, hroom⟩ := h
  unfold step admits
  rw [if_neg hlimit, if_pos hexpired, if_neg hkey]
  rcases hmade : makeRoom state call.now limiter.window with ⟨room, swept⟩
  rw [hmade] at hroom
  dsimp only at hroom
  rw [hroom]

/-- A call that is refused otherwise finds the running window of its key full, if any call is
admitted at all. -/
theorem refused_cases (hroom : limiter.lacksRoom state call = false)
    (hrefused : (limiter.step state call).1 = false) :
    limiter.limit = 0 ∨ ∃ started counted, state.lookup call.key = some (started, counted) ∧
      call.now - started < limiter.window ∧ limiter.limit ≤ counted := by
  -- What refuses a call that finds room is the limit alone.
  by_cases hlimit : limiter.limit = 0
  · exact .inl hlimit
  · right
    simp only [lacksRoom, decide_eq_false_iff_not, not_and] at hroom
    unfold step admits at hrefused
    rw [if_neg hlimit] at hrefused
    by_cases hexpired : limiter.expired state call.key call.now = true
    · -- a window could have been opened, in its own slot or in a new one
      rw [if_pos hexpired] at hrefused
      by_cases hkey : call.key ∈ state
      · rw [if_pos hkey] at hrefused
        cases hrefused
      · rw [if_neg hkey] at hrefused
        have hmade := hroom hlimit hexpired hkey
        rcases hmake : makeRoom state call.now limiter.window with ⟨room, swept⟩
        rw [hmake] at hrefused hmade
        cases room with
        | false => exact absurd rfl hmade
        | true => cases hrefused
    -- a window is running, and it is full
    · rw [if_neg hexpired] at hrefused
      rw [expired_iff] at hexpired
      push Not at hexpired
      obtain ⟨started, counted, hlookup, hlive⟩ := hexpired
      rw [hlookup] at hrefused
      by_cases hfull : limiter.limit ≤ counted
      · exact ⟨started, counted, hlookup, hlive, hfull⟩
      · dsimp only at hrefused
        rw [if_neg hfull] at hrefused
        cases hrefused

/-- A limit of zero grants nothing. -/
theorem grant_zero (window now : Nat) (c : Counter) : grant 0 window now c = (false, c) :=
  if_pos rfl

/-- A full window that lasts grants nothing. -/
theorem grant_full {limit window now started counted : Nat} (hlive : now - started < window)
    (hfull : limit ≤ counted) :
    grant limit window now (some (started, counted)) = (false, some (started, counted)) := by
  unfold grant
  split
  · rfl
  · exact (if_neg (Nat.not_le.mpr hlive)).trans (if_pos hfull)

/-! ## The simulation -/

variable {counters : String → Counter}

/-- A call that is refused for lack of room leaves every counter as it is held. -/
theorem step_holds_of_refused (h : ∀ key, Holds limiter call.now state key (counters key))
    (hrefused : (limiter.step state call).1 = false) (key : String) :
    Holds limiter call.now (limiter.step state call).2 key (counters key) := by
  obtain ⟨c, hholds, -, hother⟩ := admits_holds (h key)
  have hsame : c = counters key := hother (by simp [hrefused])
  rwa [hsame] at hholds

/-- **Step**: any other call gets the answer of the reference, and the counters that are held
are those of the reference again. -/
theorem step_reference (h : ∀ key, Holds limiter call.now state key (counters key))
    (hroom : limiter.lacksRoom state call = false) :
    (limiter.step state call).1 = (limiter.reference counters call).1 ∧
      ∀ key, Holds limiter call.now (limiter.step state call).2 key
        ((limiter.reference counters call).2 key) := by
  unfold reference
  cases hanswer : (limiter.step state call).1 with
  | false =>
    -- the counter refuses as well, and neither side moves
    have hgrant : grant limiter.limit limiter.window call.now (counters call.key) =
        (false, counters call.key) := by
      rcases refused_cases hroom hanswer with hzero | hfull
      · rw [hzero]
        exact grant_zero ..
      · obtain ⟨started, counted, hlookup, hlive, hfull⟩ := hfull
        rw [(h call.key).entry _ hlookup]
        exact grant_full hlive hfull
    rw [hgrant]
    dsimp only
    rw [Function.update_eq_self]
    exact ⟨rfl, step_holds_of_refused h hanswer⟩
  | true =>
    obtain ⟨c, hholds, hadmitted, -⟩ := admits_holds (h call.key)
    have hgrant := hadmitted ⟨rfl, hanswer⟩
    rw [hgrant]
    dsimp only
    refine ⟨rfl, fun key => ?_⟩
    by_cases hkey : key = call.key
    · rw [hkey, Function.update_self]
      exact hholds
    · -- the counters of other keys are where they were
      rw [Function.update_of_ne hkey]
      obtain ⟨c', hholds', -, hother⟩ := admits_holds (h key)
      have hsame : c' = counters key := hother fun hboth => hkey hboth.1.symm
      rwa [hsame] at hholds'

/-- **Run**: without the calls that were refused for lack of room, a run is one of the
reference. -/
theorem answers_of_reference (limiter : PinLimiter) {calls : List PinCall}
    (hclock : calls.Pairwise fun a b => a.now ≤ b.now) :
    let answered := remaining (trace limiter.stepNoting ∅ calls)
    answered.map (fun e => (e.1, e.2.admitted)) =
      trace limiter.reference (fun _ => none) (answered.map Prod.fst) := by
  have hreadings : (0 :: calls.map PinCall.now).Pairwise (· ≤ ·) :=
    List.pairwise_cons.mpr ⟨fun _ _ => Nat.zero_le _, List.pairwise_map.mpr hclock⟩
  refine filter_trace_simulates limiter.stepNoting limiter.reference PinCall.now
    Noted.admitted (fun e => !e.2.lackedRoom)
    (fun now state counters => ∀ key, Holds limiter now state key (counters key))
    ?later ?refused ?answered (fun key => holds_empty 0) hreadings
  case later =>
    intro now now' state counters hle hholds key
    exact (hholds key).mono hle
  case refused =>
    -- the reference does not see this call, which at most swept windows that ended
    intro state counters call hcall hholds
    have hroom : limiter.lacksRoom state call = true := by simpa [stepNoting] using hcall
    exact step_holds_of_refused hholds (not_admitted_of_lacksRoom hroom)
  case answered =>
    intro state counters call hcall hholds
    have hroom : limiter.lacksRoom state call = false := by simpa [stepNoting] using hcall
    exact step_reference hholds hroom

/-- The reference answers each key by its own counter. -/
theorem filter_reference (limiter : PinLimiter) (key : String) (counters : String → Counter)
    (calls : List PinCall) :
    (trace limiter.reference counters calls).filter (fun e => e.1.key = key) =
      trace limiter.counter (counters key) (calls.filter fun call => call.key = key) := by
  have hreadings : (0 :: calls.map fun _ => 0).Pairwise (· ≤ ·) := by
    simp [List.pairwise_cons]
  -- the rule needs times, but neither side reads them
  have hsimulates := filter_trace_simulates limiter.reference limiter.counter (fun _ => 0) id
    (fun e => decide (e.1.key = key)) (fun _ counters c => counters key = c)
    (fun _ hsame => hsame) ?other ?own (s := counters) rfl hreadings
  case other =>
    intro counters c call hcall hsame
    have hne : key ≠ call.key := fun h => by simp [h] at hcall
    exact (Function.update_of_ne hne _ counters).trans hsame
  case own =>
    intro counters c call hcall hsame
    have hkey : call.key = key := of_decide_eq_true hcall
    subst hkey
    subst hsame
    exact ⟨rfl, Function.update_self ..⟩
  dsimp only at hsimulates
  rw [map_fst_filter_trace limiter.reference fun call => decide (call.key = key)] at hsimulates
  rw [← hsimulates]
  exact (List.map_id' _).symm

/-! ## Keys -/

/-- A valid name has no colon. -/
theorem colon_not_mem_of_valid {name : String} (hname : isValidPinnableName name = true) :
    ':' ∉ name.toList := by
  unfold isValidPinnableName at hname
  rw [Bool.and_eq_true, List.all_eq_true] at hname
  intro hmem
  have hvalid := hname.2 ':' hmem
  have hinvalid : Text.isAsciiAlphanumeric ':' = false := rfl
  simp [hinvalid] at hvalid

/-- Clients with different addresses, and nodes with different names, have different keys: the
last colon of a key ends the separator. -/
theorem pinKey_inj {crates : Crates} (hcrates : crates.TellsApart) {ip ip' : IpAddr}
    {name name' : String} (hname : isValidPinnableName name = true)
    (hname' : isValidPinnableName name' = true)
    (hsame : Firewall.pinKey crates ip name = Firewall.pinKey crates ip' name') :
    ip = ip' ∧ name = name' := by
  have hseparator : "::".toList = [':', ':'] := rfl
  -- read from the back, a key starts with the name and goes on with a colon
  have hback := congrArg (fun key => key.toList.reverse) hsame
  simp only [Firewall.pinKey, String.toList_append, hseparator, List.reverse_append,
    List.reverse_cons, List.nil_append, List.append_assoc,
    List.cons_append] at hback
  obtain ⟨hnames, hrest⟩ := (Text.append_cons_inj_of_first
    (by simpa using colon_not_mem_of_valid hname)
    (by simpa using colon_not_mem_of_valid hname')).mp hback
  have hips : crates.ipToString ip = crates.ipToString ip' := by
    apply String.toList_injective
    simpa using hrest
  refine ⟨hcrates hips, ?_⟩
  apply String.toList_injective
  exact List.reverse_injective hnames

/-- **Invisible bound**: without the calls that were refused for lack of room, the limiter
answers as if it kept the counter of every key forever; each key is answered by its own
counter; and the pinnable nodes of two lists share a key only for one address and one name. -/
theorem bound_invisible {crates : Crates} (hcrates : crates.TellsApart) (limiter : PinLimiter)
    (calls : List PinCall) (hclock : calls.Pairwise fun a b => a.now ≤ b.now) :
    let answered := (remaining (trace limiter.stepNoting ∅ calls)).map fun e =>
      (e.1, e.2.admitted)
    let asked := (remaining (trace limiter.stepNoting ∅ calls)).map Prod.fst
    answered = trace limiter.reference (fun _ => none) asked ∧
    (∀ key, answered.filter (fun e => e.1.key = key) =
      trace limiter.counter none (asked.filter fun call => call.key = key)) ∧
    ∀ (set set' : NodeSet), ∀ node ∈ set.entries, ∀ node' ∈ set'.entries,
      node.pinnable = true → node'.pinnable = true → ∀ ip ip',
        Firewall.pinKey crates ip node.name = Firewall.pinKey crates ip' node'.name →
        ip = ip' ∧ node.name = node'.name := by
  intro answered asked
  have hreference : answered = trace limiter.reference (fun _ => none) asked :=
    answers_of_reference limiter hclock
  refine ⟨hreference, fun key => ?_, ?_⟩
  · rw [hreference]
    exact filter_reference limiter key (fun _ => none) asked
  · intro set set' node hnode node' hnode' hpinnable hpinnable' ip ip' hsame
    -- names of pinnable nodes have no colon, so the key can be taken apart
    have hname := set.valid_name _ (set.name_mem node hnode hpinnable)
    have hname' := set'.valid_name _ (set'.name_mem node' hnode' hpinnable')
    exact pinKey_inj hcrates hname hname' hsame

/-- Two clients of one node, a pin each and a window of a minute. -/
theorem bound_invisible_two :
    let calls : List PinCall := [⟨"198.51.100.7::b", 0⟩, ⟨"198.51.100.8::b", 1⟩,
      ⟨"198.51.100.7::b", 2⟩, ⟨"198.51.100.7::b", 60 * 10 ^ 9⟩]
    let answered := (remaining (trace (new 1 60).stepNoting ∅ calls)).map fun e =>
      (e.1, e.2.admitted)
    answered.filter (fun e => e.1.key = "198.51.100.7::b") =
      trace (new 1 60).counter none [⟨"198.51.100.7::b", 0⟩, ⟨"198.51.100.7::b", 2⟩,
        ⟨"198.51.100.7::b", 60 * 10 ^ 9⟩] := by
  have hall := bound_invisible (Crates.spelled_tellsApart []) (new 1 60)
    [⟨"198.51.100.7::b", 0⟩, ⟨"198.51.100.8::b", 1⟩, ⟨"198.51.100.7::b", 2⟩,
      ⟨"198.51.100.7::b", 60 * 10 ^ 9⟩] (by simp)
  exact hall.2.1 "198.51.100.7::b"

end AntelopeFirewall.PinLimiter
