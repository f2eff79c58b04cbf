import AntelopeFirewall.Config.Acceptance
import AntelopeFirewall.Library.Fallible
import AntelopeFirewall.Library.Machine
import AntelopeFirewall.Metrics.Basic

/-!
# Building in a Process

`fromConfig` gives the closures of a firewall the lists of its configuration. The source
keeps them in statics of the process, which every call of `from_config` writes and which the
closures read at each request, and it registers the counters of the filter and of the limiters
in one registry. A call that fails leaves what it has written.

- `Process.fromConfig` is `from_config` on the statics, step by step,
- `accepts_iff` says which configurations it accepts in a new process, and that it builds what
  `fromConfig` builds,
- `one_firewall` is about all calls of one process: one of them at most builds a firewall, and
  what the later ones change of it.
-/

namespace AntelopeFirewall.Process

open Library

/-! ## The statics -/

/-- The registered metrics and the statics that `from_config` writes. The health checker is
given by the URLs it probes and its settings. -/
structure Statics where
  registered : Finset String
  blockedIps : List String
  blockedContracts : List String
  allowOnlyContracts : List String
  selectAccounts : Table String (Finset String)
  pushNodes : Finset NodeEntry
  getNodes : Finset NodeEntry
  healthChecker : Option (Finset Url × HealthcheckConfig)

/-- Before the first call. -/
def Statics.fresh : Statics := ⟨∅, [], [], [], ∅, ∅, ∅, none⟩

/-- Add the lists of a configuration. None is ever cleared. -/
def Statics.block (config : Config) (s : Statics) : Statics :=
  { s with
    blockedIps := s.blockedIps ++ config.blockedIps
    blockedContracts := s.blockedContracts ++ config.blockedContracts
    allowOnlyContracts := s.allowOnlyContracts ++ config.allowedContracts }

/-- Store the accounts that a limiter is restricted to. -/
def selectInto (table : Table String (Finset String)) (ratelimit : RatelimitConfig) :
    Table String (Finset String) :=
  match ratelimit.selectAccounts with
  | some accounts => table.insert ratelimit.name accounts.toFinset
  | none => table

/-! ## What is built -/

/-- A limiter whose construction went through. -/
abbrev Limiter := { ratelimit : RatelimitConfig // 0 < ratelimit.windowDuration }

/-- A limiter with the accounts that it reads in `SELECT_ACCOUNTS`. -/
def Limiter.ratelimiter (crates : Crates) (select : Table String (Finset String))
    (limiter : Limiter) : RateLimiter where
  name := limiter.1.name
  shouldBeLimited := fun _ _ _ => true
  getBuckets := limiter.1.bucketType.getBuckets crates select
  getRatelimit := fun _ _ _ => limiter.1.limit
  incrementMode := limiter.1.limitOn.incrementMode
  cache := none
  windowDuration := limiter.1.windowDuration
  windowDuration_pos := limiter.2

/-- What `from_config` returns: the data that the firewall owns. -/
structure Built where
  routingMode : RoutingMode
  maxRequestBodySize : Nat
  clientIpHeader : Option String
  limiters : List Limiter
  pinnedRequestsPerWindow : Nat
  pinnedWindowSeconds : Nat
  checksHealth : Bool

/-- What a call builds from its configuration. -/
def Built.ofConfig (config : Config) (limiters : List Limiter) : Built :=
  ⟨config.routingMode, config.maxRequestBodySize, config.clientIpHeader, limiters,
    config.pinnedRequestsPerWindow, config.pinnedWindowSeconds, config.healthcheck.isSome⟩

/-- The firewall as it behaves while the statics are what they are. -/
def Built.firewall (crates : Crates) (built : Built) (s : Statics) : Firewall where
  filters :=
    [⟨"Filter", contractFilter crates s.blockedIps s.blockedContracts s.allowOnlyContracts, none⟩]
  ratelimiters := built.limiters.map (Limiter.ratelimiter crates s.selectAccounts)
  matchingEngine :=
    ⟨nodeRule s.pushNodes s.getNodes :: if built.checksHealth then [healthRule] else []⟩
  routingMode := built.routingMode.toState
  maxRequestBodySize := built.maxRequestBodySize
  clientIpHeader := built.clientIpHeader
  pinLimiter := some (.new built.pinnedRequestsPerWindow built.pinnedWindowSeconds)

/-! ## The steps -/

/-- A call: what became of the addresses and of the exporter, which come first, and the
configuration. -/
structure Launch where
  opened : Except BuildError Unit
  config : Config

/-- The counters of the filter. -/
def filterNames : List String :=
  ["filter_Filter_processed", "filter_Filter_denied", "filter_Filter_accepted"]

def limiterEndings : List String := ["_processed", "_denied", "_accepted"]

/-- The counters of a limiter. -/
def limiterNames (name : String) : List String :=
  limiterEndings.map fun ending => "ratelimiter_" ++ name ++ ending

theorem builtNames_eq (config : Config) : Metrics.builtNames config =
    filterNames ++ config.ratelimit.flatMap fun ratelimit => limiterNames ratelimit.name := rfl

-- the names that the registry finds well formed
variable (isMetricName : String → Bool)

/-- Register counters one after the other. `unwrap` panics on a name that is malformed or taken,
and the names before it stay registered. -/
def register : List String → Fallible BuildError Statics Unit
  | [] => pure ()
  | name :: rest => do
    Fallible.check .panic fun s => isMetricName name && decide (name ∉ s.registered)
    Fallible.update fun s => { s with registered := insert name s.registered }
    register rest

/-- `RateLimiter::new`, which divides by the window duration before it registers. -/
def newLimiter (ratelimit : RatelimitConfig) : Fallible BuildError Statics Limiter :=
  if hpos : 0 < ratelimit.windowDuration then do
    register isMetricName (limiterNames ratelimit.name)
    pure ⟨ratelimit, hpos⟩
  else Fallible.lift (.error .panic)

/-- The limiters of a list, after those whose names are taken. -/
def addLimiters : List String → List RatelimitConfig →
    Fallible BuildError Statics (List Limiter)
  | _, [] => pure []
  | names, ratelimit :: rest => do
    Fallible.check (.message ("Name '" ++ pinLimiterName ++
      "' is reserved for the pin limiter and cannot name a ratelimiter.")) fun _ =>
        ratelimit.name ≠ pinLimiterName
    Fallible.check (.message ("Duplicate name for ratelimiter '" ++ ratelimit.name ++
      "'. Names must be unique.")) fun _ => ratelimit.name ∉ names
    Fallible.update fun s => { s with selectAccounts := selectInto s.selectAccounts ratelimit }
    let limiter ← newLimiter isMetricName ratelimit
    let others ← addLimiters (ratelimit.name :: names) rest
    pure (limiter :: others)

/-- The entries of a node list. -/
def nodeEntries (crates : Crates) (nodes : List Node) : Except BuildError (Finset NodeEntry) :=
  match buildNodeSet crates nodes with
  | .ok set => .ok set.entries
  | .error text => .error (.message text)

/-- Start the health checker on the nodes of both lists, if health is checked. -/
def startHealthChecker (config : Config) (pushNodes getNodes : Finset NodeEntry)
    (s : Statics) : Statics :=
  { s with
    healthChecker := (config.healthcheck.map fun healthcheck =>
      ((getNodes ∪ pushNodes).image NodeEntry.url, healthcheck)).or s.healthChecker }

/-- What follows on the filter. -/
def addRest (crates : Crates) (config : Config) : Fallible BuildError Statics Built := do
  let limiters ← addLimiters isMetricName [] config.ratelimit
  Fallible.check (.message "pinned_window_seconds must be greater than 0.") fun _ =>
    config.pinnedWindowSeconds ≠ 0
  let pushNodes ← Fallible.lift (nodeEntries crates config.pushNodes)
  Fallible.update fun s => { s with pushNodes := pushNodes }
  let getNodes ← Fallible.lift (nodeEntries crates config.getNodes)
  Fallible.update fun s => { s with getNodes := getNodes }
  -- the durations are made before the health checker is stored
  Fallible.check .panic fun _ => config.healthcheck.all HealthcheckConfig.fits
  Fallible.update (startHealthChecker config pushNodes getNodes)
  pure (.ofConfig config limiters)

/-- Build the firewall of a configuration in a process. -/
def fromConfig (crates : Crates) (launch : Launch) : Fallible BuildError Statics Built := do
  Fallible.lift launch.opened
  Fallible.check (.message "Cannot block and allow contracts at the same time.") fun _ =>
    launch.config.blockedContracts = [] ∨ launch.config.allowedContracts = []
  Fallible.update (Statics.block launch.config)
  register isMetricName filterNames
  addRest isMetricName crates launch.config

/-! ## What the steps do when they go through -/

section Steps

variable {isMetricName} {crates : Crates} {s t : Statics}

theorem run_register_ok_iff {names : List String} {u : Unit} :
    (register isMetricName names).run s = (.ok u, t) ↔
      (∀ name ∈ names, isMetricName name = true ∧ name ∉ s.registered) ∧ names.Nodup ∧
        t = { s with registered := s.registered ∪ names.toFinset } := by
  -- Induction on the names: each is taken before the next one is asked for.
  induction names generalizing s with
  | nil =>
    unfold register
    rw [Fallible.run_pure_ok_iff]
    simp
  | cons name rest ih =>
    unfold register
    rw [Fallible.run_check_bind_ok_iff, Fallible.run_update_bind, ih, Bool.and_eq_true,
      decide_eq_true_iff, List.forall_mem_cons, List.nodup_cons, List.toFinset_cons]
    dsimp only
    rw [Finset.insert_union, Finset.union_insert]
    constructor
    -- no name after the first one is the first one, or registered already
    · rintro ⟨hfirst, hrest, hnodup, rfl⟩
      refine ⟨⟨hfirst, fun other hother => ⟨(hrest other hother).1, fun hmem => ?_⟩⟩,
        ⟨fun hmem => ?_, hnodup⟩, rfl⟩
      · exact (hrest other hother).2 (Finset.mem_insert_of_mem hmem)
      · exact (hrest name hmem).2 (Finset.mem_insert_self ..)
    · rintro ⟨⟨hfirst, hrest⟩, ⟨hnew, hnodup⟩, rfl⟩
      refine ⟨hfirst, fun other hother => ⟨(hrest other hother).1, fun hmem => ?_⟩, hnodup, rfl⟩
      rcases Finset.mem_insert.mp hmem with rfl | hmem
      · exact hnew hother
      · exact (hrest other hother).2 hmem

/-- The name of a counter tells which counter of which limiter it is. -/
theorem limiterName_inj {a b ending ending' : String} (h : ending ∈ limiterEndings)
    (h' : ending' ∈ limiterEndings)
    (hsame : "ratelimiter_" ++ a ++ ending = "ratelimiter_" ++ b ++ ending') :
    a = b ∧ ending = ending' := by
  have hlist : ("ratelimiter_".toList ++ a.toList) ++ ending.toList =
      ("ratelimiter_".toList ++ b.toList) ++ ending'.toList := by
    have htexts := congrArg String.toList hsame
    simpa only [String.toList_append] using htexts
  -- no ending is the end of another
  have hapart : ∀ e ∈ limiterEndings, ∀ e' ∈ limiterEndings, e.toList <:+ e'.toList → e = e' := by
    decide
  have hending : ending = ending' := by
    rcases List.suffix_or_suffix_of_suffix (List.suffix_append _ ending.toList)
      (hlist ▸ List.suffix_append _ ending'.toList) with hends | hends
    · exact hapart ending h ending' h' hends
    · exact (hapart ending' h' ending h hends).symm
  refine ⟨?_, hending⟩
  rw [hending] at hlist
  exact String.toList_inj.mp (List.append_cancel_left (List.append_cancel_right hlist))

/-- Two limiters share a counter only if they share their name. -/
theorem eq_of_mem_limiterNames {a b name : String} (ha : name ∈ limiterNames a)
    (hb : name ∈ limiterNames b) : a = b := by
  obtain ⟨ending, hending, rfl⟩ := List.mem_map.mp ha
  obtain ⟨ending', hending', hsame⟩ := List.mem_map.mp hb
  exact (limiterName_inj hending' hending hsame).1.symm

theorem limiterNames_nodup (name : String) : (limiterNames name).Nodup := by
  have hendings : limiterEndings.Nodup := by decide
  refine hendings.map_on fun ending hending ending' hending' hsame => ?_
  exact (limiterName_inj hending hending' hsame).2

theorem run_newLimiter_ok_iff {ratelimit : RatelimitConfig} {limiter : Limiter} :
    (newLimiter isMetricName ratelimit).run s = (.ok limiter, t) ↔
      limiter.1 = ratelimit ∧
      (∀ name ∈ limiterNames ratelimit.name, isMetricName name = true ∧ name ∉ s.registered) ∧
        t = { s with registered := s.registered ∪ (limiterNames ratelimit.name).toFinset } := by
  unfold newLimiter
  split
  -- a limiter with a window takes the names of its counters
  · next hpos =>
    rw [Fallible.run_bind_ok_iff]
    constructor
    · rintro ⟨u, r, hregister, h⟩
      obtain ⟨hfree, -, rfl⟩ := run_register_ok_iff.mp hregister
      obtain ⟨rfl, rfl⟩ := Fallible.run_pure_ok_iff.mp h
      exact ⟨rfl, hfree, rfl⟩
    · rintro ⟨rfl, hfree, rfl⟩
      exact ⟨(), _, run_register_ok_iff.mpr ⟨hfree, limiterNames_nodup _, rfl⟩, rfl⟩
  -- a window of no seconds makes no limiter
  · next hpos =>
    rw [Fallible.run_lift]
    constructor
    · intro h
      cases h
    · rintro ⟨rfl, -, -⟩
      exact absurd limiter.2 hpos

/-- What the checks ask of a limiter for itself. -/
structure Admitted (isMetricName : String → Bool) (ratelimit : RatelimitConfig) : Prop where
  not_reserved : ratelimit.name ≠ pinLimiterName
  window_pos : 0 < ratelimit.windowDuration
  metrics : ∀ name ∈ limiterNames ratelimit.name, isMetricName name = true

/-- What they ask of a list of limiters, next to the names and the metrics that are taken. -/
structure Untaken (names : List String) (registered : Finset String)
    (ratelimits : List RatelimitConfig) : Prop where
  distinct : (ratelimits.map RatelimitConfig.name).Nodup
  names : ∀ ratelimit ∈ ratelimits, ratelimit.name ∉ names
  metrics : ∀ ratelimit ∈ ratelimits, ∀ name ∈ limiterNames ratelimit.name, name ∉ registered

/-- The first limiter takes its name and its metrics from the others. -/
theorem untaken_cons {names : List String} {registered : Finset String}
    {ratelimit : RatelimitConfig} {rest : List RatelimitConfig} :
    Untaken names registered (ratelimit :: rest) ↔
      ratelimit.name ∉ names ∧ (∀ name ∈ limiterNames ratelimit.name, name ∉ registered) ∧
        Untaken (ratelimit.name :: names)
          (registered ∪ (limiterNames ratelimit.name).toFinset) rest := by
  -- The first limiter takes its name and its metric names from those after it.
  constructor
  · rintro ⟨hdistinct, hnames, hmetrics⟩
    rw [List.map_cons, List.nodup_cons] at hdistinct
    obtain ⟨hname, hnames⟩ := List.forall_mem_cons.mp hnames
    obtain ⟨hown, hmetrics⟩ := List.forall_mem_cons.mp hmetrics
    have hother : ∀ other ∈ rest, other.name ≠ ratelimit.name := fun other hmem hsame =>
      hdistinct.1 (hsame ▸ List.mem_map_of_mem hmem)
    refine ⟨hname, hown, hdistinct.2, fun other hmem => ?_, fun other hmem name hmetric => ?_⟩
    · rw [List.mem_cons, not_or]
      exact ⟨hother other hmem, hnames other hmem⟩
    · rw [Finset.mem_union, not_or, List.mem_toFinset]
      -- two limiters that shared a metric name would share their own
      exact ⟨hmetrics other hmem name hmetric, fun hshared =>
        hother other hmem (eq_of_mem_limiterNames hmetric hshared)⟩
  · rintro ⟨hname, hown, hdistinct, hnames, hmetrics⟩
    refine ⟨?_, List.forall_mem_cons.mpr ⟨hname, fun other hmem htaken => ?_⟩,
      List.forall_mem_cons.mpr ⟨hown, fun other hmem name hmetric htaken => ?_⟩⟩
    · rw [List.map_cons, List.nodup_cons]
      refine ⟨fun hmem => ?_, hdistinct⟩
      obtain ⟨other, hother, hsame⟩ := List.mem_map.mp hmem
      exact hnames other hother (hsame ▸ List.mem_cons_self ..)
    · exact hnames other hmem (List.mem_cons_of_mem _ htaken)
    · exact hmetrics other hmem name hmetric (Finset.mem_union_left _ htaken)

/-- The state after the limiters of a list. -/
def Statics.limited (ratelimits : List RatelimitConfig) (s : Statics) : Statics :=
  { s with
    registered := s.registered ∪
      (ratelimits.flatMap fun ratelimit => limiterNames ratelimit.name).toFinset
    selectAccounts := ratelimits.foldl selectInto s.selectAccounts }

theorem limited_cons (ratelimit : RatelimitConfig) (rest : List RatelimitConfig) (s : Statics) :
    s.limited (ratelimit :: rest) =
      Statics.limited rest { s with
        registered := s.registered ∪ (limiterNames ratelimit.name).toFinset
        selectAccounts := selectInto s.selectAccounts ratelimit } := by
  unfold Statics.limited
  rw [List.flatMap_cons, List.toFinset_append, List.foldl_cons, Finset.union_assoc]

/-- **Limiters**: a list is accepted when each limiter is admitted and none takes what is taken.
Then every limiter of the list is built. -/
theorem run_addLimiters_ok_iff {names : List String} {ratelimits : List RatelimitConfig}
    {limiters : List Limiter} :
    (addLimiters isMetricName names ratelimits).run s = (.ok limiters, t) ↔
      (∀ ratelimit ∈ ratelimits, Admitted isMetricName ratelimit) ∧
        Untaken names s.registered ratelimits ∧
        limiters.map Subtype.val = ratelimits ∧ t = s.limited ratelimits := by
  -- Induction on the limiters, over the names and the registry that they find.
  induction ratelimits generalizing names s limiters with
  | nil =>
    unfold addLimiters
    have hnone : s.limited [] = s := by simp [Statics.limited]
    rw [Fallible.run_pure_ok_iff, hnone, List.map_eq_nil_iff]
    constructor
    · rintro ⟨rfl, rfl⟩
      exact ⟨by simp, ⟨by simp, by simp, by simp⟩, rfl, rfl⟩
    · rintro ⟨-, -, hlimiters, hsame⟩
      exact ⟨hlimiters, hsame⟩
  | cons ratelimit rest ih =>
    unfold addLimiters
    rw [limited_cons, untaken_cons, List.forall_mem_cons, Fallible.run_check_bind_ok_iff,
      Fallible.run_check_bind_ok_iff, Fallible.run_update_bind, Fallible.run_bind_ok_iff,
      decide_eq_true_iff, decide_eq_true_iff]
    constructor
    -- the first one is let in and registered, and the others find what it left
    · rintro ⟨hreserved, hname, limiter, next, hlimiter, hothers⟩
      obtain ⟨rfl, hfree, rfl⟩ := run_newLimiter_ok_iff.mp hlimiter
      obtain ⟨others, last, hothers, hend⟩ := Fallible.run_bind_ok_iff.mp hothers
      obtain ⟨rfl, rfl⟩ := Fallible.run_pure_ok_iff.mp hend
      obtain ⟨hadmitted, huntaken, rfl, rfl⟩ := ih.mp hothers
      exact ⟨⟨⟨hreserved, limiter.2, fun name hmem => (hfree name hmem).1⟩, hadmitted⟩,
        ⟨hname, fun name hmem => (hfree name hmem).2, huntaken⟩, rfl, rfl⟩
    · rintro ⟨⟨⟨hreserved, hpos, hmetrics⟩, hadmitted⟩, ⟨hname, hfree, huntaken⟩, hlimiters, rfl⟩
      obtain ⟨limiter, others, rfl, rfl, hothers⟩ := List.map_eq_cons_iff.mp hlimiters
      refine ⟨hreserved, hname, limiter, _, run_newLimiter_ok_iff.mpr
        ⟨rfl, fun name hmem => ⟨hmetrics name hmem, hfree name hmem⟩, rfl⟩, ?_⟩
      rw [Fallible.run_bind_of_ok (ih.mpr ⟨hadmitted, huntaken, hothers, rfl⟩), Fallible.run_pure]

/-- The state after the limiters and the nodes of a configuration. -/
def Statics.served (config : Config) (pushNodes getNodes : Finset NodeEntry) (s : Statics) :
    Statics :=
  startHealthChecker config pushNodes getNodes
    { s.limited config.ratelimit with pushNodes := pushNodes, getNodes := getNodes }

theorem run_addRest_ok_iff {config : Config} {built : Built} :
    (addRest isMetricName crates config).run s = (.ok built, t) ↔
      (∀ ratelimit ∈ config.ratelimit, Admitted isMetricName ratelimit) ∧
      Untaken [] s.registered config.ratelimit ∧ 0 < config.pinnedWindowSeconds ∧
      config.healthcheck.all HealthcheckConfig.fits = true ∧
      ∃ limiters pushNodes getNodes,
        limiters.map Subtype.val = config.ratelimit ∧ built = .ofConfig config limiters ∧
        nodeEntries crates config.pushNodes = .ok pushNodes ∧
        nodeEntries crates config.getNodes = .ok getNodes ∧
        t = s.served config pushNodes getNodes := by
  unfold addRest
  rw [Fallible.run_bind_ok_iff]
  -- The steps in the order of the source: limiters, window, both node lists, durations.
  constructor
  · rintro ⟨limiters, next, hlimiters, hrest⟩
    obtain ⟨hadmitted, huntaken, hsources, rfl⟩ := run_addLimiters_ok_iff.mp hlimiters
    rw [Fallible.run_check_bind_ok_iff, decide_eq_true_iff,
      Fallible.run_lift_bind_ok_iff] at hrest
    obtain ⟨hwindow, pushNodes, hpush, hrest⟩ := hrest
    rw [Fallible.run_update_bind, Fallible.run_lift_bind_ok_iff] at hrest
    obtain ⟨getNodes, hget, hrest⟩ := hrest
    rw [Fallible.run_update_bind, Fallible.run_check_bind_ok_iff, Fallible.run_update_bind,
      Fallible.run_pure_ok_iff] at hrest
    obtain ⟨hdurations, rfl, rfl⟩ := hrest
    exact ⟨hadmitted, huntaken, Nat.pos_of_ne_zero hwindow, hdurations, limiters, pushNodes,
      getNodes, hsources, rfl, hpush, hget, rfl⟩
  · rintro ⟨hadmitted, huntaken, hwindow, hdurations, limiters, pushNodes, getNodes, hsources,
      rfl, hpush, hget, rfl⟩
    refine ⟨limiters, _, run_addLimiters_ok_iff.mpr ⟨hadmitted, huntaken, hsources, rfl⟩, ?_⟩
    rw [Fallible.run_check_bind_ok_iff, decide_eq_true_iff, Fallible.run_lift_bind_ok_iff]
    refine ⟨hwindow.ne', pushNodes, hpush, ?_⟩
    rw [Fallible.run_update_bind, Fallible.run_lift_bind_ok_iff]
    refine ⟨getNodes, hget, ?_⟩
    rw [Fallible.run_update_bind, Fallible.run_check_bind_ok_iff, Fallible.run_update_bind,
      Fallible.run_pure_ok_iff]
    exact ⟨hdurations, rfl, rfl⟩

/-- The addresses could be used, and the configuration has one contract list at most. A call
writes the lists of its configuration exactly if it gets that far. -/
def Launch.Begins (launch : Launch) : Prop :=
  launch.opened = .ok () ∧
    (launch.config.blockedContracts = [] ∨ launch.config.allowedContracts = [])

instance (launch : Launch) : Decidable launch.Begins :=
  inferInstanceAs (Decidable (_ ∧ _))

theorem run_fromConfig_ok_iff {launch : Launch} {built : Built} :
    (fromConfig isMetricName crates launch).run s = (.ok built, t) ↔
      launch.Begins ∧
      (∀ name ∈ filterNames, isMetricName name = true ∧ name ∉ s.registered) ∧
      (addRest isMetricName crates launch.config).run
        { s.block launch.config with registered := s.registered ∪ filterNames.toFinset } =
          (.ok built, t) := by
  have hnodup : filterNames.Nodup := by decide
  unfold fromConfig Launch.Begins
  rw [Fallible.run_lift_bind_ok_iff]
  -- The address, the contract lists, the filter's counters, and the rest.
  constructor
  · rintro ⟨u, hopened, h⟩
    rw [Fallible.run_check_bind_ok_iff, decide_eq_true_iff, Fallible.run_update_bind,
      Fallible.run_bind_ok_iff] at h
    obtain ⟨hlists, u', r, hregister, h⟩ := h
    obtain ⟨hfree, -, rfl⟩ := run_register_ok_iff.mp hregister
    exact ⟨⟨hopened, hlists⟩, hfree, h⟩
  · rintro ⟨⟨hopened, hlists⟩, hfree, h⟩
    refine ⟨(), hopened, ?_⟩
    rw [Fallible.run_check_bind_ok_iff, decide_eq_true_iff, Fallible.run_update_bind,
      Fallible.run_bind_ok_iff]
    exact ⟨hlists, (), _, run_register_ok_iff.mpr ⟨hfree, hnodup, rfl⟩, h⟩

end Steps

/-! ## One call in a new process -/

section Fresh

variable {isMetricName} {crates : Crates}

/-- The limiters of a process are those of `addRatelimiters`. -/
theorem addRatelimiters_of_limiters {select : Table String (Finset String)}
    {ratelimits : List RatelimitConfig} {names : List String} {registered : Finset String}
    {limiters : List Limiter}
    (hadmitted : ∀ ratelimit ∈ ratelimits, Admitted isMetricName ratelimit)
    (huntaken : Untaken names registered ratelimits)
    (h : limiters.map Subtype.val = ratelimits) :
    addRatelimiters crates select names ratelimits =
      .ok (limiters.map (Limiter.ratelimiter crates select)) := by
  -- Induction on the limiters: the functional reading makes the same ones.
  induction ratelimits generalizing names registered limiters with
  | nil =>
    rw [List.map_eq_nil_iff.mp h]
    rfl
  | cons ratelimit rest ih =>
    obtain ⟨limiter, others, rfl, rfl, hothers⟩ := List.map_eq_cons_iff.mp h
    obtain ⟨hfirst, hrest⟩ := List.forall_mem_cons.mp hadmitted
    obtain ⟨hname, -, huntaken⟩ := untaken_cons.mp huntaken
    have hnew : newRatelimiter crates select limiter.1 =
        .ok (Limiter.ratelimiter crates select limiter) := by
      unfold newRatelimiter
      rw [dif_pos limiter.2]
      rfl
    unfold addRatelimiters
    rw [if_neg hfirst.not_reserved, if_neg hname, hnew, ih hrest huntaken hothers]
    rfl

theorem nodeEntries_ok_iff {nodes : List Node} {entries : Finset NodeEntry} :
    nodeEntries crates nodes = .ok entries ↔
      (buildNodeSet crates nodes).toOption.map NodeSet.entries = some entries := by
  unfold nodeEntries
  cases buildNodeSet crates nodes with
  | error text => simp [Except.toOption]
  | ok set => simp [Except.toOption]

theorem exists_nodeEntries_iff {nodes : List Node} :
    (∃ entries, nodeEntries crates nodes = .ok entries) ↔ WellFormed crates nodes := by
  rw [← buildNodeSet_isOk_iff]
  unfold nodeEntries
  cases buildNodeSet crates nodes with
  | error text => simp
  | ok set => simp

/-- No counter of a limiter is named like one of the filter. -/
theorem limiterNames_not_filter {a name : String} (h : name ∈ limiterNames a) :
    name ∉ filterNames := by
  obtain ⟨ending, -, rfl⟩ := List.mem_map.mp h
  intro hmem
  have hstart : ∀ other ∈ filterNames, other.toList.head? = some 'f' := by decide
  have hfirst := hstart _ hmem
  simp at hfirst

/-- What the checks ask of a call in a new process. -/
structure Acceptable (isMetricName : String → Bool) (crates : Crates) (launch : Launch) : Prop where
  begins : launch.Begins
  filter_metrics : ∀ name ∈ filterNames, isMetricName name = true
  limiters : ∀ ratelimit ∈ launch.config.ratelimit, Admitted isMetricName ratelimit
  distinct : (launch.config.ratelimit.map RatelimitConfig.name).Nodup
  window_pos : 0 < launch.config.pinnedWindowSeconds
  push_nodes : WellFormed crates launch.config.pushNodes
  get_nodes : WellFormed crates launch.config.getNodes
  durations : launch.config.healthcheck.all HealthcheckConfig.fits = true

/-- What a new process has registered by the time it comes to the limiters is not in their way. -/
theorem untaken_fresh_iff {ratelimits : List RatelimitConfig} :
    Untaken [] (Statics.fresh.registered ∪ filterNames.toFinset) ratelimits ↔
      (ratelimits.map RatelimitConfig.name).Nodup := by
  constructor
  · exact Untaken.distinct
  · intro hdistinct
    refine ⟨hdistinct, fun _ _ => List.not_mem_nil, fun ratelimit _ name hname hmem => ?_⟩
    rcases Finset.mem_union.mp hmem with hfresh | hfilter
    · exact Finset.notMem_empty _ hfresh
    · exact limiterNames_not_filter hname (List.mem_toFinset.mp hfilter)

/-- The firewall of a call in a new process is the one that `fromConfig` assembles. -/
theorem firewall_served {config : Config} {limiters : List Limiter}
    (pushNodes getNodes : Finset NodeEntry) (registered : Finset String) :
    (Built.ofConfig config limiters).firewall crates
        (Statics.served config pushNodes getNodes
          { Statics.fresh.block config with registered := registered }) =
      assemble crates config
        (limiters.map (Limiter.ratelimiter crates (selectAccounts config.ratelimit)))
        pushNodes getNodes := by
  unfold Built.ofConfig Built.firewall assemble
  cases config.healthcheck with
  | none => rfl
  | some healthcheck => rfl

/-- A call in a new process that goes through builds what `fromConfig` builds, and leaves the
counters of its filter and its limiters registered. -/
theorem of_run_fresh {launch : Launch} {built : Built} {t : Statics}
    (h : (fromConfig isMetricName crates launch).run .fresh = (.ok built, t)) :
    AntelopeFirewall.fromConfig crates launch.config = .ok (built.firewall crates t) ∧
    t.registered = (Metrics.builtNames launch.config).toFinset ∧
    t.healthChecker = launch.config.healthcheck.map fun healthcheck =>
      ((t.getNodes ∪ t.pushNodes).image NodeEntry.url, healthcheck) := by
  obtain ⟨⟨-, hlists⟩, -, hrest⟩ := run_fromConfig_ok_iff.mp h
  obtain ⟨hadmitted, huntaken, hwindow, hdurations, limiters, pushNodes, getNodes, hsources, rfl,
    hpush, hget, rfl⟩ := run_addRest_ok_iff.mp hrest
  obtain ⟨checked, hbuilt, hassembled⟩ := CheckedConfig.exists_of_parts hlists hwindow
    (addRatelimiters_of_limiters hadmitted huntaken hsources) (nodeEntries_ok_iff.mp hpush)
    (nodeEntries_ok_iff.mp hget) hdurations
  refine ⟨?_, ?_, ?_⟩
  · rw [hbuilt, hassembled, firewall_served]
  · rw [builtNames_eq, List.toFinset_append, ← Finset.empty_union (List.toFinset filterNames)]
    rfl
  · exact Option.or_none

theorem lists_of_run_fresh {launch : Launch} {built : Built} {t : Statics}
    (h : (fromConfig isMetricName crates launch).run .fresh = (.ok built, t)) :
    t.blockedIps = launch.config.blockedIps ∧
      t.blockedContracts = launch.config.blockedContracts ∧
      t.allowOnlyContracts = launch.config.allowedContracts := by
  obtain ⟨-, -, hrest⟩ := run_fromConfig_ok_iff.mp h
  obtain ⟨-, -, -, -, limiters, pushNodes, getNodes, -, -, -, -, rfl⟩ :=
    run_addRest_ok_iff.mp hrest
  exact ⟨rfl, rfl, rfl⟩

theorem exists_run_fresh {launch : Launch} (h : Acceptable isMetricName crates launch) :
    ∃ built t, (fromConfig isMetricName crates launch).run .fresh = (.ok built, t) := by
  obtain ⟨hbegins, hfilter, hadmitted, hdistinct, hwindow, hpush, hget, hdurations⟩ := h
  obtain ⟨pushNodes, hpush⟩ := exists_nodeEntries_iff.mpr hpush
  obtain ⟨getNodes, hget⟩ := exists_nodeEntries_iff.mpr hget
  -- the windows make limiters of the list
  obtain ⟨limiters, hsources⟩ : ∃ limiters : List Limiter,
      limiters.map Subtype.val = launch.config.ratelimit :=
    ⟨launch.config.ratelimit.attach.map fun r => ⟨r.1, (hadmitted r.1 r.2).window_pos⟩, by
      rw [List.map_map]
      exact List.attach_map_subtype_val _⟩
  refine ⟨_, _, run_fromConfig_ok_iff.mpr ⟨hbegins, fun name hmem => ⟨hfilter name hmem, ?_⟩,
    run_addRest_ok_iff.mpr ⟨hadmitted, untaken_fresh_iff.mpr hdistinct, hwindow, hdurations,
      limiters, pushNodes, getNodes, hsources, rfl, hpush, hget, rfl⟩⟩⟩
  exact Finset.notMem_empty _

/-- **Acceptance**: a call in a new process builds a firewall exactly if the addresses can be
used, the configuration has one contract list at most, its limiters have different names, none
of them that of the pin limiter and all fit for metrics, no window is empty, both node lists are
well formed, and the interval and the grace period of the health checks are durations. It builds
what `fromConfig` builds, it has registered the counters of the filter and the limiters and nothing
else, and the health checker probes the nodes of both lists. -/
theorem accepts_iff (isMetricName : String → Bool) (crates : Crates) (launch : Launch) :
    ((∃ built t, (fromConfig isMetricName crates launch).run .fresh = (.ok built, t)) ↔
      Acceptable isMetricName crates launch) ∧
    ∀ built t, (fromConfig isMetricName crates launch).run .fresh = (.ok built, t) →
      AntelopeFirewall.fromConfig crates launch.config = .ok (built.firewall crates t) ∧
      t.registered = (Metrics.builtNames launch.config).toFinset ∧
      t.healthChecker = launch.config.healthcheck.map fun healthcheck =>
        ((t.getNodes ∪ t.pushNodes).image NodeEntry.url, healthcheck) := by
  refine ⟨⟨?_, ?_⟩, fun built t h => of_run_fresh h⟩
  · rintro ⟨built, t, h⟩
    obtain ⟨hbegins, hfree, hrest⟩ := run_fromConfig_ok_iff.mp h
    obtain ⟨hadmitted, huntaken, hwindow, hdurations, -, pushNodes, getNodes, -, -, hpush, hget,
      -⟩ := run_addRest_ok_iff.mp hrest
    exact ⟨hbegins, fun name hmem => (hfree name hmem).1, hadmitted, untaken_fresh_iff.mp huntaken,
      hwindow, exists_nodeEntries_iff.mp ⟨_, hpush⟩, exists_nodeEntries_iff.mp ⟨_, hget⟩,
      hdurations⟩
  · exact exists_run_fresh

end Fresh

/-! ## All calls of a process -/

section Calls

variable (crates : Crates)

/-- One call. -/
def step (s : Statics) (launch : Launch) : Except BuildError Built × Statics :=
  (fromConfig isMetricName crates launch).run s

/-- A call got as far as its filter. -/
def Started (s : Statics) : Prop := "filter_Filter_processed" ∈ s.registered

variable {isMetricName crates} {s : Statics} {launch : Launch}

/-- A call that does not get to the lists changes nothing. -/
theorem step_of_not_begins (isMetricName : String → Bool) (crates : Crates) (s : Statics)
    (h : ¬ launch.Begins) :
    ∃ error, step isMetricName crates s launch = (.error error, s) := by
  unfold step fromConfig
  cases hopened : launch.opened with
  | error error => exact ⟨error, Fallible.run_bind_of_error (Fallible.run_lift _ _)⟩
  | ok u =>
    have hlists : ¬ (launch.config.blockedContracts = [] ∨ launch.config.allowedContracts = []) :=
      fun hone => h ⟨hopened, hone⟩
    refine ⟨.message "Cannot block and allow contracts at the same time.", ?_⟩
    rw [Fallible.run_bind_of_ok (Fallible.run_lift _ _)]
    apply Fallible.run_bind_of_error
    rw [Fallible.run_check, decide_eq_false hlists]
    rfl

/-- A call that gets to the lists writes them, and comes to its filter. -/
theorem step_of_begins (h : launch.Begins) :
    step isMetricName crates s launch =
      Fallible.run (do register isMetricName filterNames
                       addRest isMetricName crates launch.config) (s.block launch.config) := by
  unfold step fromConfig
  rw [h.1, Fallible.run_bind_of_ok (Fallible.run_lift _ _),
    Fallible.run_bind_of_ok (a := ()) (t := s), Fallible.run_update_bind]
  rw [Fallible.run_check, decide_eq_true h.2]
  rfl

/-- A second filter cannot be made: the call writes its lists and panics. -/
theorem step_of_started (h : launch.Begins) (hstarted : Started s) :
    step isMetricName crates s launch = (.error .panic, s.block launch.config) := by
  rw [step_of_begins h]
  apply Fallible.run_bind_of_error
  unfold filterNames register
  apply Fallible.run_bind_of_error
  have htaken : "filter_Filter_processed" ∈ (s.block launch.config).registered := hstarted
  rw [Fallible.run_check, decide_eq_false (not_not.mpr htaken), Bool.and_false]
  rfl

/-! What is registered stays registered. -/

theorem keeps_register (names : List String) :
    Fallible.Keeps Started (register isMetricName names) := by
  induction names with
  | nil => exact Fallible.keeps_pure ()
  | cons name rest ih =>
    unfold register
    refine (Fallible.keeps_check _ _).bind fun _ => .bind (Fallible.keeps_update ?_) fun _ => ih
    exact fun s hs => Finset.mem_insert_of_mem hs

theorem keeps_newLimiter (ratelimit : RatelimitConfig) :
    Fallible.Keeps Started (newLimiter isMetricName ratelimit) := by
  unfold newLimiter
  split
  · exact (keeps_register _).bind fun _ => Fallible.keeps_pure _
  · exact Fallible.keeps_lift _

theorem keeps_addLimiters (names : List String) (ratelimits : List RatelimitConfig) :
    Fallible.Keeps Started (addLimiters isMetricName names ratelimits) := by
  induction ratelimits generalizing names with
  | nil => exact Fallible.keeps_pure []
  | cons ratelimit rest ih =>
    unfold addLimiters
    refine (Fallible.keeps_check _ _).bind fun _ => (Fallible.keeps_check _ _).bind fun _ =>
      .bind (Fallible.keeps_update fun _ hs => hs) fun _ => (keeps_newLimiter _).bind fun _ =>
      (ih _).bind fun _ => Fallible.keeps_pure _

theorem keeps_addRest (config : Config) :
    Fallible.Keeps Started (addRest isMetricName crates config) := by
  unfold addRest
  refine (keeps_addLimiters _ _).bind fun _ => (Fallible.keeps_check _ _).bind fun _ =>
    (Fallible.keeps_lift _).bind fun _ => .bind (Fallible.keeps_update fun _ hs => hs) fun _ =>
    (Fallible.keeps_lift _).bind fun _ => .bind (Fallible.keeps_update fun _ hs => hs) fun _ =>
    (Fallible.keeps_check _ _).bind fun _ => .bind (Fallible.keeps_update fun _ hs => hs) fun _ =>
    Fallible.keeps_pure _

theorem started_of_register (s : Statics) (rest : List String)
    (hvalid : isMetricName "filter_Filter_processed" = true) :
    Started ((register isMetricName ("filter_Filter_processed" :: rest)).run s).2 := by
  unfold register
  by_cases htaken : "filter_Filter_processed" ∈ s.registered
  · -- the first check fails
    rw [Fallible.run_bind_of_error (e := .panic) (t := s)]
    · exact htaken
    · rw [Fallible.run_check, decide_eq_false (not_not.mpr htaken), Bool.and_false]
      rfl
  · rw [Fallible.run_bind_of_ok (a := ()) (t := s), Fallible.run_update_bind]
    · exact keeps_register rest _ (Finset.mem_insert_self ..)
    · rw [Fallible.run_check, decide_eq_true htaken, hvalid]
      rfl

/-- A call that gets to the lists gets as far as its filter. -/
theorem started_of_begins (crates : Crates) (s : Statics)
    (hvalid : isMetricName "filter_Filter_processed" = true) (h : launch.Begins) :
    Started (step isMetricName crates s launch).2 := by
  rw [step_of_begins h]
  have hfirst := started_of_register (s.block launch.config)
    ["filter_Filter_denied", "filter_Filter_accepted"] hvalid
  rcases hrun : (register isMetricName filterNames).run (s.block launch.config) with ⟨outcome, r⟩
  -- The filter's first counter is registered, whatever comes of the other two.
  have hstarted : Started r := by
    have hsame : (register isMetricName filterNames).run (s.block launch.config) =
      (register isMetricName ["filter_Filter_processed", "filter_Filter_denied",
        "filter_Filter_accepted"]).run (s.block launch.config) := rfl
    rw [← hsame, hrun] at hfirst
    exact hfirst
  -- and nothing after it takes it back
  cases outcome with
  | error error =>
    rw [Fallible.run_bind_of_error hrun]
    exact hstarted
  | ok u =>
    rw [Fallible.run_bind_of_ok hrun]
    exact keeps_addRest launch.config r hstarted

/-! ### Runs -/

/-- The texts that some calls write to one of the lists. -/
def written (list : Config → List String) (launches : List Launch) : List String :=
  (launches.filter fun launch => launch.Begins).flatMap fun launch => list launch.config

theorem written_cons (list : Config → List String) (launch : Launch) (launches : List Launch) :
    written list (launch :: launches) =
      (if launch.Begins then list launch.config else []) ++ written list launches := by
  unfold written
  by_cases h : launch.Begins
  · simp [h]
  · simp [h]

/-- The state with what some calls have written. -/
def Statics.blockAll (launches : List Launch) (s : Statics) : Statics :=
  { s with
    blockedIps := s.blockedIps ++ written Config.blockedIps launches
    blockedContracts := s.blockedContracts ++ written Config.blockedContracts launches
    allowOnlyContracts := s.allowOnlyContracts ++ written Config.allowedContracts launches }

theorem blockAll_nil (s : Statics) : s.blockAll [] = s := by
  simp [Statics.blockAll, written]

theorem blockAll_cons (launch : Launch) (launches : List Launch) (s : Statics) :
    s.blockAll (launch :: launches) =
      Statics.blockAll launches (if launch.Begins then s.block launch.config else s) := by
  unfold Statics.blockAll
  rw [written_cons, written_cons, written_cons]
  by_cases h : launch.Begins
  · rw [if_pos h, if_pos h, if_pos h, if_pos h, ← List.append_assoc, ← List.append_assoc,
      ← List.append_assoc]
    rfl
  · rw [if_neg h, if_neg h, if_neg h, if_neg h, List.nil_append, List.nil_append, List.nil_append]

/-- **After the first filter** every call fails, and all that it can do is write the lists. -/
theorem run_started (isMetricName : String → Bool) (crates : Crates) (hstarted : Started s)
    (launches : List Launch) :
    (∀ call ∈ Machine.trace (step isMetricName crates) s launches,
      ∃ error, call.2 = .error error) ∧
    Machine.final (step isMetricName crates) s launches = s.blockAll launches := by
  -- Induction on the calls: each of them adds to the lists or changes nothing.
  induction launches generalizing s with
  | nil => exact ⟨by simp [Machine.trace], (blockAll_nil s).symm⟩
  | cons launch rest ih =>
    unfold Machine.trace
    rw [Machine.final_cons, blockAll_cons]
    by_cases h : launch.Begins
    · rw [step_of_started h hstarted, if_pos h]
      obtain ⟨herrors, hfinal⟩ := ih (s := s.block launch.config) hstarted
      exact ⟨List.forall_mem_cons.mpr ⟨⟨_, rfl⟩, herrors⟩, hfinal⟩
    · obtain ⟨error, hstep⟩ := step_of_not_begins isMetricName crates s h
      rw [hstep, if_neg h]
      obtain ⟨herrors, hfinal⟩ := ih hstarted
      exact ⟨List.forall_mem_cons.mpr ⟨⟨error, rfl⟩, herrors⟩, hfinal⟩

/-- **Before the first filter** every call has failed and nothing is written. -/
theorem run_fresh (crates : Crates) (hvalid : isMetricName "filter_Filter_processed" = true)
    (launches : List Launch) :
    Started (Machine.final (step isMetricName crates) .fresh launches) ∨
      Machine.final (step isMetricName crates) .fresh launches = .fresh ∧
        ∀ call ∈ Machine.trace (step isMetricName crates) .fresh launches,
          ∃ error, call.2 = .error error := by
  -- Either a call has begun to register, or nothing has happened yet.
  refine Machine.run_invariant _
    (fun (calls : List (Launch × Except BuildError Built)) s => Started s ∨
      s = .fresh ∧ ∀ call ∈ calls, ∃ error, call.2 = .error error)
    (.inr ⟨rfl, by simp⟩) ?_
  intro before launch _ hbefore
  rw [Machine.final_concat, Machine.trace_concat]
  by_cases h : launch.Begins
  · exact .inl (started_of_begins crates _ hvalid h)
  · obtain ⟨error, hstep⟩ := step_of_not_begins isMetricName crates
      (Machine.final (step isMetricName crates) .fresh before) h
    rw [hstep]
    rcases hbefore with hstarted | ⟨hfresh, herrors⟩
    · exact .inl hstarted
    · refine .inr ⟨hfresh, fun call hcall => ?_⟩
      rcases List.mem_append.mp hcall with hcall | hcall
      · exact herrors call hcall
      · rw [List.mem_singleton.mp hcall]
        exact ⟨error, rfl⟩

/-- A call that goes through was made in a state that no call had written. -/
theorem fresh_of_step_ok {before : List Launch} {built : Built}
    (h : (step isMetricName crates (Machine.final (step isMetricName crates) .fresh before)
      launch).1 = .ok built) :
    Machine.final (step isMetricName crates) .fresh before = .fresh ∧
      (∀ call ∈ Machine.trace (step isMetricName crates) .fresh before,
        ∃ error, call.2 = .error error) ∧
      isMetricName "filter_Filter_processed" = true ∧ launch.Begins := by
  obtain ⟨hbegins, hfree, -⟩ := run_fromConfig_ok_iff.mp (Prod.ext h rfl)
  obtain ⟨hvalid, hnew⟩ := hfree _ (List.mem_cons_self ..)
  rcases run_fresh crates hvalid before with hstarted | ⟨hfresh, herrors⟩
  · exact absurd hstarted hnew
  · exact ⟨hfresh, herrors, hvalid, hbegins⟩

/-- **One firewall a process**: if one of the calls of a process builds a firewall, all calls
before it and after it fail. The firewall is the one of its own configuration alone, except that
every later call that gets that far adds to the lists of its filter. -/
theorem one_firewall (isMetricName : String → Bool) (crates : Crates)
    (before after : List Launch) (launch : Launch) (built : Built)
    (h : (step isMetricName crates (Machine.final (step isMetricName crates) .fresh before)
      launch).1 = .ok built) :
    (∀ call ∈ Machine.trace (step isMetricName crates) .fresh before,
      ∃ error, call.2 = .error error) ∧
    (∀ call ∈ Machine.trace (step isMetricName crates)
        (Machine.final (step isMetricName crates) .fresh (before ++ [launch])) after,
      ∃ error, call.2 = .error error) ∧
    ∃ fw, AntelopeFirewall.fromConfig crates launch.config = .ok fw ∧
      built.firewall crates
          (Machine.final (step isMetricName crates) .fresh (before ++ launch :: after)) =
        { fw with filters := [⟨"Filter", contractFilter crates
          (written Config.blockedIps (launch :: after))
          (written Config.blockedContracts (launch :: after))
          (written Config.allowedContracts (launch :: after)), none⟩] } := by
  -- The calls before it have all failed, and left the process as it was.
  obtain ⟨hfresh, hbefore, hvalid, hbegins⟩ := fresh_of_step_ok h
  rw [Machine.final_concat, Machine.final_append, Machine.final_cons]
  rw [hfresh] at h ⊢
  have hstarted := started_of_begins crates .fresh hvalid hbegins
  -- Those after it find the filter's counters registered, and fail.
  obtain ⟨hafter, hfinal⟩ := run_started isMetricName crates hstarted after
  refine ⟨hbefore, hafter, _, (of_run_fresh (Prod.ext h rfl)).1, ?_⟩
  -- The lists that its filter reads are all that they can change.
  obtain ⟨hips, hblocked, hallowed⟩ := lists_of_run_fresh (Prod.ext h rfl)
  rw [hfinal, written_cons, written_cons, written_cons, if_pos hbegins, if_pos hbegins,
    if_pos hbegins, ← hips, ← hblocked, ← hallowed]
  rfl

def plainLaunch : Launch := ⟨.ok (), oneGetNode []⟩

/-- A second call, with a block list. -/
def blockingLaunch : Launch :=
  ⟨.ok (), { oneGetNode [] with filter := some { blockIps := some ["10.0.0.1"] } }⟩

theorem plainLaunch_acceptable : Acceptable (fun _ => true) (.small []) plainLaunch where
  begins := ⟨rfl, .inl rfl⟩
  filter_metrics := by simp
  limiters := by simp [plainLaunch, oneGetNode]
  distinct := List.nodup_nil
  window_pos := Nat.zero_lt_succ 59
  push_nodes := exists_nodeEntries_iff.mp ⟨∅, rfl⟩
  get_nodes := exists_nodeEntries_iff.mp ⟨_, nodeEntries_ok_iff.mpr (oneGetNode_entries rfl)⟩
  durations := rfl

/-- The second call fails, and still it blocks an address for the firewall of the first. -/
theorem one_firewall_twice :
    ∃ (built : Built) (fw : Firewall),
      AntelopeFirewall.fromConfig (.small []) (oneGetNode []) = .ok fw ∧
      built.firewall (.small []) (Machine.final (step (fun _ => true) (.small [])) .fresh
          [plainLaunch, blockingLaunch]) =
        { fw with filters :=
          [⟨"Filter", contractFilter (.small []) ["10.0.0.1"] [] [], none⟩] } := by
  obtain ⟨built, t, h⟩ := exists_run_fresh plainLaunch_acceptable
  obtain ⟨-, -, fw, hfw, hbuilt⟩ := one_firewall (fun _ => true) (.small []) [] [blockingLaunch]
    plainLaunch built (congrArg Prod.fst h)
  exact ⟨built, fw, hfw, hbuilt⟩

end Calls

end AntelopeFirewall.Process
