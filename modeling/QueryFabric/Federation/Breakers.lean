import QueryFabric.Federation.System
import Mathlib.Algebra.Ring.Nat

/-!
# What the circuit breakers keep

The circuits of the health monitor and the health that it caches, over any run of the hub and the
monitor with any answers and any clock. A sweep moves circuits in its plan and in its results, and a
reset in its own handler; `WellKept` is what each of these keeps of a circuit and the cached health
of its cluster (`circuitsSafe_run`).

The counter of failures wraps around. A circuit that is still open while its cluster is probed,
since its cooldown ended between two readings of the clock, then stays open with a counter of zero
(`not_circuitsSafe_overflow`).
-/

namespace QueryFabric.Cluster

/-- `Health::is_delegatable`. -/
def Health.isDelegatable : Health → Bool
  | .healthy | .degraded => true
  | .unreachable | .unknown => false

section Routing

variable {C : Type} [DecidableEq C]

/-- `is_delegatable`. -/
def isDelegatable (healthCache : HealthCache C) (clusterId : C) : Bool :=
  (healthCache.lookup clusterId).any Health.isDelegatable

/-- `get_healthy_endpoint`. -/
def getHealthyEndpoint (clusterRefs : ClusterRefs C) (healthCache : HealthCache C) (clusterId : C) :
    Option (String × Bool) :=
  if isDelegatable healthCache clusterId then
    (clusterRefs.lookup clusterId).bind fun handle =>
      handle.flightEndpoint.map fun endpoint => (endpoint, handle.flightTls)
  else none

/-- A cluster found unreachable gives no endpoint. -/
theorem getHealthyEndpoint_of_unreachable {clusterRefs : ClusterRefs C}
    {healthCache : HealthCache C} {clusterId : C}
    (h : healthCache.lookup clusterId = some .unreachable) :
    getHealthyEndpoint clusterRefs healthCache clusterId = none := by
  have hnot : ¬isDelegatable healthCache clusterId = true := by
    unfold isDelegatable
    rw [h]
    decide
  exact if_neg hnot

end Routing

/-! ## One circuit -/

namespace CircuitState

variable {config : CircuitConfig} {circuit : CircuitState} {health : Option Health}

/-- An open circuit has an opening time and failures of at least the threshold, a closed one has
fewer, and the cluster of one that is not closed is cached as unreachable. -/
structure WellKept (config : CircuitConfig) (circuit : CircuitState)
    (health : Option Health) : Prop where
  opened : circuit.phase = .open_ → circuit.openedAt.isSome ∧
    config.openThreshold ≤ circuit.consecutiveFailures
  closed : circuit.phase = .closed → circuit.consecutiveFailures < config.openThreshold
  cached : circuit.phase ≠ .closed → health = some .unreachable

/-- A new circuit is well kept. -/
theorem WellKept.new (hthreshold : 0 < config.openThreshold) : WellKept config {} health where
  opened h := by cases h
  closed _ := hthreshold
  cached h := absurd rfl h

/-- A circuit that goes half open stays well kept. -/
theorem WellKept.transition (h : WellKept config circuit health) (now : Nat) :
    WellKept config (circuit.maybeTransitionToHalfOpen config now) health := by
  unfold maybeTransitionToHalfOpen
  split
  · rename_i opened hphase hopened
    split
    · refine ⟨fun hopen => ?_, fun hclosed => ?_, fun _ => h.cached ?_⟩
      · cases hopen
      · cases hclosed
      · rw [hphase]
        decide
    · exact h
  · exact h

/-- A circuit whose cooldown has not ended does not change. -/
theorem transition_eq_self {now opened : Nat} (hopened : circuit.openedAt = some opened)
    (hnow : now - opened < config.cooldown) :
    circuit.maybeTransitionToHalfOpen config now = circuit := by
  unfold maybeTransitionToHalfOpen
  split
  · rename_i opened' _ hopened'
    cases hopened.symm.trans hopened'
    exact if_neg (by omega)
  · rfl

/-- An open circuit skips the probe until the cooldown is over. -/
theorem shouldSkipProbe_of_lt {now opened : Nat} (hphase : circuit.phase = .open_)
    (hopened : circuit.openedAt = some opened) (hnow : now - opened < config.cooldown) :
    circuit.shouldSkipProbe config now = true := by
  unfold shouldSkipProbe
  rw [hphase, hopened]
  exact decide_eq_true hnow

/-- A counter that is not at its end grows. -/
theorem lt_add_one {counter : UInt32} (h : counter ≠ 4294967295) : counter < counter + 1 := by
  have hne : counter.toNat ≠ 4294967295 := fun heq => h (UInt32.toNat_inj.mp heq)
  have hlt := counter.toNat_lt
  rw [UInt32.lt_iff_toNat_lt, UInt32.toNat_add, UInt32.toNat_one, Nat.mod_eq_of_lt (by omega)]
  exact Nat.lt_succ_self _

/-- A failure opens a circuit that reaches the threshold. The counter of an open one must not wrap
around. -/
theorem WellKept.failure (h : WellKept config circuit health)
    (hmax : circuit.phase = .open_ → circuit.consecutiveFailures ≠ 4294967295) (now : Nat) :
    WellKept config (circuit.recordFailure config now) (some .unreachable) := by
  unfold recordFailure
  dsimp only
  split
  · rename_i hreached
    exact ⟨fun _ => ⟨rfl, hreached⟩, fun hclosed => (by cases hclosed), fun _ => rfl⟩
  · rename_i hbelow
    have hlt : circuit.consecutiveFailures + 1 < config.openThreshold := UInt32.not_le.mp hbelow
    refine ⟨fun hopen => ?_, fun _ => hlt, fun _ => rfl⟩
    -- An open circuit is at the threshold already.
    have hgrow := lt_add_one (hmax hopen)
    exact absurd (UInt32.lt_of_le_of_lt (h.opened hopen).2 hgrow) (UInt32.lt_asymm hlt)

/-- A success keeps a circuit well kept. -/
theorem WellKept.success (hthreshold : 0 < config.openThreshold) :
    WellKept config circuit.recordSuccess health :=
  WellKept.new hthreshold

end CircuitState

end QueryFabric.Cluster

namespace QueryFabric.Federation

open Cluster Lib

/-! ## A sweep -/

section Sweep

variable {C : Type} [DecidableEq C] {config : CircuitConfig} {clock : C → Nat × Nat}

/-- The circuit read after one is written. -/
theorem get_insert (circuits : Circuits C) (clusterId other : C) (circuit : CircuitState) :
    Circuits.get (circuits.insert clusterId circuit) other = if other = clusterId then
      circuit else circuits.get other := by
  unfold Circuits.get
  by_cases h : other = clusterId
  · rw [h, AList.lookup_insert, if_pos rfl]
    rfl
  · rw [AList.lookup_insert_ne h, if_neg h]

/-- The plan of a sweep keeps the circuits. -/
theorem wellKept_planProbes {healthCache : HealthCache C} :
    ∀ (entries : List (Entry C)) {circuits : Circuits C}
    {probes : List (Probe C)} {skipped : List (Entry C)},
    (∀ id, CircuitState.WellKept config (circuits.get id) (healthCache.lookup id)) →
      ∀ id, CircuitState.WellKept config
        ((planProbes config clock entries circuits probes skipped).1.get id) (healthCache.lookup id)
  | [], _, _, _, h => h
  | entry :: entries, circuits, probes, skipped, h => by
    -- The moved breaker is still well kept, and the others did not change.
    have hnext (id : C) : CircuitState.WellKept config
        (Circuits.get (circuits.insert entry.clusterId
          ((circuits.get entry.clusterId).maybeTransitionToHalfOpen config
          (clock entry.clusterId).1)) id) (healthCache.lookup id) := by
      rw [get_insert]
      split
      · rename_i heq
        rw [heq]
        exact (h entry.clusterId).transition _
      · exact h id
    unfold planProbes
    dsimp only
    split
    · exact wellKept_planProbes entries hnext
    · exact wellKept_planProbes entries hnext

/-- A sweep does not probe a cluster whose circuit is open and whose cooldown has not ended at any
of its readings of the clock. -/
theorem not_probed_of_cooldown {clusterId : C} {opened : Nat}
    (hfirst : (clock clusterId).1 - opened < config.cooldown)
    (hsecond : (clock clusterId).2 - opened < config.cooldown) :
    ∀ (entries : List (Entry C)) {circuits : Circuits C}
    {probes : List (Probe C)} {skipped : List (Entry C)}, (circuits.get clusterId).phase = .open_ →
    (circuits.get clusterId).openedAt = some opened →
      ∀ probe ∈ (planProbes config clock entries circuits probes skipped).2.1,
      probe.clusterId = clusterId →
        probe ∈ probes
  | [], _, _, _, _, _, _, hmem, _ => hmem
  | entry :: entries, circuits, probes, skipped, hphase, hopened, probe, hmem, hid => by
    unfold planProbes at hmem
    dsimp only at hmem
    by_cases hentry : entry.clusterId = clusterId
    · -- The circuit stays open, and the cluster is skipped.
      rw [hentry, CircuitState.transition_eq_self hopened hfirst,
        if_pos (CircuitState.shouldSkipProbe_of_lt hphase hopened hsecond)] at hmem
      have hget : Circuits.get (circuits.insert clusterId (circuits.get clusterId)) clusterId =
          circuits.get clusterId := by
        rw [get_insert, if_pos rfl]
      exact not_probed_of_cooldown hfirst hsecond entries (by rw [hget, hphase])
        (by rw [hget, hopened]) probe hmem hid
    · have hget : Circuits.get (circuits.insert entry.clusterId ((circuits.get
          entry.clusterId).maybeTransitionToHalfOpen config (clock entry.clusterId).1)) clusterId =
          circuits.get clusterId := by
        rw [get_insert, if_neg (Ne.symm hentry)]
      split at hmem
      · exact not_probed_of_cooldown hfirst hsecond entries (by rw [hget, hphase])
          (by rw [hget, hopened]) probe hmem hid
      · have hprobes := not_probed_of_cooldown hfirst hsecond entries (by rw [hget, hphase])
          (by rw [hget, hopened]) probe hmem hid
        obtain hprobe | hprobe := List.mem_append.mp hprobes
        · exact hprobe
        · rw [List.mem_singleton.mp hprobe] at hid
          exact absurd hid hentry

/-- The entries that a sweep probes or skips are those it has read, once each. -/
theorem planProbes_perm :
    ∀ (entries : List (Entry C)) {circuits : Circuits C} {probes : List (Probe C)}
    {skipped : List (Entry C)},
    ((planProbes config clock entries circuits probes skipped).2.1.map Probe.toEntry ++
      (planProbes config clock entries circuits probes skipped).2.2).Perm
        (probes.map Probe.toEntry ++ skipped ++ entries)
  | [], circuits, probes, skipped => by
    unfold planProbes
    rw [List.append_nil]
  | entry :: entries, circuits, probes, skipped => by
    unfold planProbes
    dsimp only
    split
    · refine (planProbes_perm entries).trans ?_
      rw [← List.append_assoc, List.append_assoc _ [entry]]
      rfl
    · refine (planProbes_perm entries).trans ?_
      rw [List.map_append, List.append_assoc, List.append_assoc, List.append_assoc]
      refine List.Perm.append_left _ ?_
      show (entry :: (skipped ++ entries)).Perm (skipped ++ entry :: entries)
      exact List.perm_middle.symm

/-- The results of a sweep keep the circuits, if no counter of an open one wraps around. -/
theorem wellKept_recordResults (hthreshold : 0 < config.openThreshold) :
    ∀ (results : List (C × Health))
    {circuits : Circuits C} {healthCache : HealthCache C}, (results.map Prod.fst).Nodup →
    (∀ result ∈ results, result.2 = .unreachable → (circuits.get result.1).phase = .open_ →
      (circuits.get result.1).consecutiveFailures ≠ 4294967295) →
    (∀ id, CircuitState.WellKept config (circuits.get id) (healthCache.lookup id)) →
      ∀ id, CircuitState.WellKept config
        ((recordResults config clock results circuits healthCache).1.get id)
        ((recordResults config clock results circuits healthCache).2.lookup id)
  | [], _, _, _, _, h => h
  | (clusterId, health) :: results, circuits, healthCache, hnodup, hmax, h => by
    obtain ⟨hnew, hnodup⟩ := List.nodup_cons.mp hnodup
    obtain ⟨hfirst, hrest⟩ := List.forall_mem_cons.mp hmax
    unfold recordResults
    dsimp only
    refine wellKept_recordResults hthreshold results hnodup (fun result hresult => ?_) fun id => ?_
    · -- No other result is of the same cluster.
      have hne : result.1 ≠ clusterId := fun heq => hnew (List.mem_map.mpr ⟨result, hresult, heq⟩)
      rw [get_insert, if_neg hne]
      exact hrest result hresult
    · rw [get_insert]
      by_cases hid : id = clusterId
      · rw [if_pos hid, hid, AList.lookup_insert]
        split
        · rename_i hunreachable
          rw [hunreachable]
          exact (h clusterId).failure (hfirst hunreachable) _
        · exact CircuitState.WellKept.success hthreshold
      · rw [if_neg hid, AList.lookup_insert_ne hid]
        exact h id

/-- What is cached of the skipped clusters. -/
theorem wellKept_skipped {circuits : Circuits C} :
    ∀ (skipped : List (Entry C)) {healthCache : HealthCache C},
    (∀ id, CircuitState.WellKept config (circuits.get id) (healthCache.lookup id)) →
      ∀ id, CircuitState.WellKept config (circuits.get id) ((skipped.foldl
        (fun healthCache entry => healthCache.insert entry.clusterId .unreachable)
          healthCache).lookup id)
  | [], _, h => h
  | entry :: skipped, healthCache, h => by
    refine wellKept_skipped skipped fun id => ?_
    by_cases hid : id = entry.clusterId
    · rw [hid, AList.lookup_insert]
      exact { h entry.clusterId with cached := fun _ => rfl }
    · rw [AList.lookup_insert_ne hid]
      exact h id

end Sweep

/-! ## Runs -/

section Runs

variable {R C : Type} [DecidableEq C]

/-- Open circuits have an opening time and failures of at least the threshold, closed ones have
fewer. No cluster is probed whose circuit is open and whose cooldown has not ended when the clock is
read. A cluster whose circuit is not closed is cached as unreachable, and no endpoint is given out
for it. -/
structure CircuitsSafe (config : Config) (s : System R C) : Prop where
  opened : ∀ id, (s.circuits.get id).phase = .open_ → (s.circuits.get id).openedAt.isSome ∧
    config.circuitConfig.openThreshold ≤ (s.circuits.get id).consecutiveFailures
  closed : ∀ id, (s.circuits.get id).phase = .closed →
    (s.circuits.get id).consecutiveFailures < config.circuitConfig.openThreshold
  probed : ∀ clock t, s.monitorStep config clock = some t → ∀ probe ∈ t.probes,
    (s.circuits.get probe.clusterId).phase = .open_ → ∀ opened,
      (s.circuits.get probe.clusterId).openedAt = some opened →
        config.circuitConfig.cooldown ≤ (clock probe.clusterId).1 - opened ∨
          config.circuitConfig.cooldown ≤ (clock probe.clusterId).2 - opened
  cached : ∀ id, (s.circuits.get id).phase ≠ .closed → s.healthCache.lookup id = some .unreachable
  endpoint : ∀ id, (s.circuits.get id).phase ≠ .closed →
    getHealthyEndpoint s.registry.clusterRefs s.healthCache id = none

/-- No failure is recorded for an open circuit whose counter is at its end. -/
def CountsOn (s : System R C) : Action R C → Prop
  | .monitor _ => ∀ probe ∈ s.probes, probe.stage = .finished .unreachable →
      (s.circuits.get probe.clusterId).phase = .open_ →
        (s.circuits.get probe.clusterId).consecutiveFailures ≠ 4294967295
  | _ => True

/-- Whether a step counts on the counter is decided by its action. -/
instance (s : System R C) (a : Action R C) : Decidable (CountsOn s a) := by
  unfold CountsOn
  cases a <;> infer_instance

/-- What the steps keep of the circuits and of the sweep under way. -/
structure Kept (config : Config) (s : System R C) : Prop where
  circuits : ∀ id, CircuitState.WellKept config.circuitConfig (s.circuits.get id)
    (s.healthCache.lookup id)
  distinct : (s.entries.map Entry.clusterId).Nodup

/-- At the start every circuit is well kept. -/
theorem kept_start {config : Config} (hthreshold : 0 < config.circuitConfig.openThreshold) :
    Kept config (System.start : System R C) where
  circuits _ := CircuitState.WellKept.new hthreshold
  distinct := List.nodup_nil

/-- The iteration does not touch the circuits, and reads no cluster twice. -/
theorem System.visit_circuits {s t : System R C} {clusterId : C} (h : s.visit clusterId = some t)
    (hdistinct : (s.entries.map Entry.clusterId).Nodup) :
    t.circuits = s.circuits ∧ t.healthCache = s.healthCache ∧
    (t.entries.map Entry.clusterId).Nodup := by
  unfold System.visit at h
  split at h
  · rename_i unvisited entries handle hmonitor hhandle
    split at h
    · cases h
    · rename_i hnew
      cases h
      refine ⟨rfl, rfl, ?_⟩
      have hentries : s.entries = entries := by simp only [System.entries, hmonitor]
      rw [hentries] at hdistinct
      simp only [System.entries, List.map_append, List.map_cons, List.map_nil]
      refine List.nodup_append.mpr
        ⟨hdistinct, List.nodup_singleton _, fun id hid other hother heq => hnew ?_⟩
      obtain ⟨entry, hentry, rfl⟩ := List.mem_map.mp hid
      rw [List.mem_singleton] at hother
      exact List.any_eq_true.mpr ⟨entry, hentry, decide_eq_true (heq.trans hother)⟩
  · cases h

/-- A probe does not touch the circuits. -/
theorem System.probeStep_circuits {s t : System R C} {index : Nat} {reply : ProbeReply}
    (h : s.probeStep index reply = some t) : t.circuits = s.circuits ∧
    t.healthCache = s.healthCache ∧
      t.entries.map Entry.clusterId = s.entries.map Entry.clusterId := by
  unfold System.probeStep at h
  split at h
  · rename_i probes skipped hmonitor
    split at h
    · cases h
    · rename_i probe hprobe
      have hentries : s.entries = probes.map Probe.toEntry ++ skipped := by
        simp only [System.entries, hmonitor]
      -- A probe keeps its cluster at every stage.
      have hset (stage : ProbeStage) : (probes.set index { probe with stage }).map Probe.toEntry =
          probes.map Probe.toEntry := by
        refine List.ext_getElem? fun other => ?_
        rw [List.getElem?_map, List.getElem?_map, List.getElem?_set]
        split_ifs with hindex hlength
        · rw [← hindex, hprobe]
          rfl
        · rw [← hindex, List.getElem?_eq_none (Nat.not_lt.mp hlength), Option.map_none]
        · rfl
      dsimp only at h
      split at h <;> (try split at h) <;> cases h
      all_goals
        refine ⟨rfl, rfl, ?_⟩
        rw [hentries]
        simp only [System.entries, hset]
  · cases h

omit [DecidableEq C] in
/-- The results of finished probes are those of their clusters. -/
theorem results_of_probes : ∀ {probes : List (Probe C)} {results : List (C × Health)},
    probes.mapM Probe.result? = some results →
    results.map Prod.fst = probes.map (fun probe => probe.clusterId) ∧
      ∀ result ∈ results, ∃ probe ∈ probes, probe.clusterId = result.1 ∧
      probe.stage = .finished result.2
  | [], results, h => by
    cases h
    exact ⟨rfl, List.forall_mem_nil _⟩
  | probe :: probes, results, h => by
    rw [List.mapM_cons] at h
    obtain ⟨result, hresult, h⟩ := Option.bind_eq_some_iff.mp h
    obtain ⟨rest, hrest, h⟩ := Option.bind_eq_some_iff.mp h
    cases h
    obtain ⟨hids, hprobes⟩ := results_of_probes hrest
    -- Only a finished probe has a result.
    unfold Probe.result? at hresult
    split at hresult
    · rename_i health hstage
      cases hresult
      refine ⟨by rw [List.map_cons, hids, List.map_cons],
        List.forall_mem_cons.mpr ⟨?_, fun other hother => ?_⟩⟩
      · exact ⟨probe, List.mem_cons_self, rfl, hstage⟩
      · obtain ⟨owner, howner, hid, hfinished⟩ := hprobes other hother
        exact ⟨owner, List.mem_cons_of_mem _ howner, hid, hfinished⟩
    · cases hresult

/-- A reset closes the circuit of its cluster. -/
theorem wellKept_reset {config : CircuitConfig} (hthreshold : 0 < config.openThreshold)
    {s : System R C}
    (h : ∀ id, CircuitState.WellKept config (s.circuits.get id) (s.healthCache.lookup id))
    (clusterId id : C) :
    CircuitState.WellKept config ((s.resetCircuitBreaker clusterId).circuits.get id)
      ((s.resetCircuitBreaker clusterId).healthCache.lookup id) := by
  unfold System.resetCircuitBreaker
  dsimp only
  -- The reset is about one cluster.
  by_cases hid : id = clusterId
  · rw [hid]
    -- A cluster without a circuit has a new one, and one that is closed keeps it.
    cases hlookup : s.circuits.lookup clusterId with
    | none =>
      have hget : s.circuits.get clusterId = {} := by
        unfold Circuits.get
        rw [hlookup]
        rfl
      dsimp only
      rw [hget]
      exact CircuitState.WellKept.new hthreshold
    | some circuit =>
      dsimp only
      split
      · rw [get_insert, if_pos rfl]
        exact CircuitState.WellKept.new hthreshold
      · rename_i hclosed
        have hget : s.circuits.get clusterId = circuit := by
          unfold Circuits.get
          rw [hlookup]
          rfl
        have hkept := h clusterId
        rw [hget] at hkept ⊢
        -- Its cached status is gone, which a closed circuit may do without.
        exact { hkept with cached := fun hopen => absurd hopen hclosed }
  · rw [AList.lookup_erase_ne hid]
    split
    · split
      · rw [get_insert, if_neg hid]
        exact h id
      · exact h id
    · exact h id

/-- A step of the monitor keeps the circuits. -/
theorem Kept.monitorStep {config : Config} {s t : System R C} {clock : C → Nat × Nat}
    (hs : Kept config s)
    (hthreshold : 0 < config.circuitConfig.openThreshold) (hguard : CountsOn s (.monitor clock))
    (h : s.monitorStep config clock = some t) : Kept config t := by
  unfold System.monitorStep at h
  split at h
  · split at h
    · cases h
    · rename_i message monitorMailbox hmailbox
      cases h
      -- An idle monitor takes a message.
      cases message with
      | checkAllClusters => exact ⟨hs.circuits, List.nodup_nil⟩
      | getHealth clusterId => exact ⟨hs.circuits, hs.distinct⟩
      | resetCircuitBreaker clusterId =>
        exact ⟨wellKept_reset hthreshold hs.circuits clusterId, hs.distinct⟩
  · rename_i unvisited entries hmonitor
    split at h
    · cases h
      -- With every cluster visited the probes are planned, each cluster's once.
      refine ⟨wellKept_planProbes entries hs.circuits, ?_⟩
      have hentries : s.entries = entries := by simp only [System.entries, hmonitor]
      have hdistinct := hs.distinct
      rw [hentries] at hdistinct
      simp only [System.entries]
      split_ifs with hempty
      · exact List.nodup_nil
      · exact ((planProbes_perm entries).map Entry.clusterId).nodup_iff.mpr hdistinct
    · cases h
  · rename_i probes skipped hmonitor
    split at h
    · cases h
    · rename_i results hresults
      cases h
      -- With every answer there the results are recorded, each for a cluster of its own.
      obtain ⟨hids, hprobes⟩ := results_of_probes hresults
      have hmembers : s.probes = probes := by simp only [System.probes, hmonitor]
      have hentries : s.entries = probes.map Probe.toEntry ++ skipped := by
        simp only [System.entries, hmonitor]
      refine ⟨wellKept_skipped skipped
        (wellKept_recordResults hthreshold results ?_ ?_ hs.circuits), List.nodup_nil⟩
      · have hdistinct := hs.distinct
        rw [hentries, List.map_append, List.map_map] at hdistinct
        rw [hids]
        exact (List.nodup_append.mp hdistinct).1
      · intro result hresult hunreachable hopen
        obtain ⟨probe, hprobe, hid, hstage⟩ := hprobes result hresult
        rw [← hid] at hopen ⊢
        rw [hunreachable] at hstage
        exact hguard probe (hmembers ▸ hprobe) hstage hopen

/-- The probes of a sweep are those of its plan. -/
theorem mem_probes_of_monitorStep {config : Config} {s t : System R C} {clock : C → Nat × Nat}
    (h : s.monitorStep config clock = some t) {probe : Probe C} (hprobe : probe ∈ t.probes) :
    ∃ entries, probe ∈ (planProbes config.circuitConfig clock entries s.circuits [] []).2.1 := by
  unfold System.monitorStep at h
  split at h
  · rename_i hmonitor
    split at h
    · cases h
    · rename_i message monitorMailbox hmailbox
      cases h
      -- A message leaves no probe behind.
      cases message <;>
        simp [System.probes, System.monitorHandle, System.resetCircuitBreaker, hmonitor] at hprobe
  -- The probes are planned when the last entry was visited.
  · rename_i unvisited entries hmonitor
    split at h
    · cases h
      simp only [System.probes] at hprobe
      split_ifs at hprobe with hempty
      · cases hprobe
      · exact ⟨entries, hprobe⟩
    · cases h
  · rename_i probes skipped hmonitor
    split at h
    · cases h
    · cases h
      cases hprobe

/-- Well-kept circuits are safe. -/
theorem Kept.circuitsSafe {config : Config} {s : System R C} (hs : Kept config s) :
    CircuitsSafe config s where
  opened id := (hs.circuits id).opened
  closed id := (hs.circuits id).closed
  probed clock t h probe hprobe hphase opened hopened := by
    obtain ⟨entries, hplanned⟩ := mem_probes_of_monitorStep h hprobe
    by_contra hwaiting
    rw [not_or, Nat.not_le, Nat.not_le] at hwaiting
    have hnone :=
      not_probed_of_cooldown hwaiting.1 hwaiting.2 entries hphase hopened probe hplanned rfl
    cases hnone
  cached id := (hs.circuits id).cached
  endpoint id hopen := getHealthyEndpoint_of_unreachable ((hs.circuits id).cached hopen)

variable [DecidableEq R]

/-- The hub does not touch the circuits. -/
theorem System.hubStep_circuits {config : Config} {s t : System R C} {reply : HubReply C}
    (h : s.hubStep config reply = some t) :
    t.circuits = s.circuits ∧ t.healthCache = s.healthCache ∧ t.entries = s.entries := by
  unfold System.hubStep at h
  split at h
  · split at h
    · cases h
    · rename_i message hubMailbox hmailbox
      cases h
      cases message <;> exact ⟨rfl, rfl, rfl⟩
  all_goals cases h
  all_goals exact ⟨rfl, rfl, rfl⟩

/-- Every step keeps the circuits, if no counter of an open one wraps around. -/
theorem Kept.step {config : Config} {s t : System R C} {a : Action R C} (hs : Kept config s)
    (hthreshold : 0 < config.circuitConfig.openThreshold) (hguard : CountsOn s a)
    (h : s.step config a = some t) :
    Kept config t := by
  cases a with
  | tellHub message =>
    cases h
    exact ⟨hs.circuits, hs.distinct⟩
  | tellMonitor message =>
    cases h
    exact ⟨hs.circuits, hs.distinct⟩
  | hub reply =>
    obtain ⟨hcircuits, hcache, hentries⟩ := System.hubStep_circuits h
    exact ⟨by rw [hcircuits, hcache]; exact hs.circuits, by rw [hentries]; exact hs.distinct⟩
  | visit clusterId =>
    obtain ⟨hcircuits, hcache, hdistinct⟩ := System.visit_circuits h hs.distinct
    exact ⟨by rw [hcircuits, hcache]; exact hs.circuits, hdistinct⟩
  | monitor clock => exact hs.monitorStep hthreshold hguard h
  | probe index reply =>
    obtain ⟨hcircuits, hcache, hentries⟩ := System.probeStep_circuits h
    exact ⟨by rw [hcircuits, hcache]; exact hs.circuits, by rw [hentries]; exact hs.distinct⟩

/-- In a run in which no counter of an open circuit wraps around the circuits are safe. -/
theorem circuitsSafe_run {config : Config} (hthreshold : 1 ≤ config.circuitConfig.openThreshold)
    {actions : List (Action R C)} {s : System R C}
    (hguarded : Guarded (System.step config) CountsOn System.start actions)
    (h : run (System.step config) System.start actions = some s) : CircuitsSafe config s := by
  have hpos : 0 < config.circuitConfig.openThreshold := UInt32.lt_of_lt_of_le (by decide) hthreshold
  exact (run_invariant (fun _ _ _ hs hguard hstep => Kept.step hs hpos hguard hstep) hguarded
    (kept_start hpos) h).circuitsSafe

end Runs

/-! ## A counter at its end -/

/-- A circuit that opens at the first failure, and whose cluster may be probed again an instant
later. -/
def shortConfig : Config :=
  { naming := ⟨"fabric-cluster", "fabric-hub"⟩, circuitReset := false, circuitConfig := ⟨1, 1⟩ }

/-- The registration of a cluster. -/
def registerAlpha : List (Action Nat Nat) :=
  [.tellHub (.registerCluster ⟨"alpha"⟩), .hub .done, .hub (.registered 7)]

/-- A sweep in which the probe of the cluster fails. The cooldown of its circuit ends between two
readings of the clock. -/
def failedSweep (opened : Nat) : List (Action Nat Nat) :=
  [.tellMonitor .checkAllClusters, .monitor fun _ => (opened, opened), .visit 7,
    .monitor fun _ => (opened, opened + 1), .probe 0 .failed,
      .monitor fun _ => (opened + 2, opened + 2)]

/-- The registration and so many failed sweeps after the first. -/
def failedSweeps : Nat → List (Action Nat Nat)
  | 0 => registerAlpha ++ failedSweep 0
  | n + 1 => failedSweeps n ++ failedSweep (2 * (n + 1))

/-- The circuit of the cluster, which is open. -/
def openCircuits (failures : UInt32) (opened : Nat) : Circuits Nat :=
  AList.insert 7 { phase := .open_, consecutiveFailures := failures, openedAt := some opened } ∅

/-- The system with that circuit between sweeps. -/
def openSystem (failures : UInt32) (opened : Nat) : System Nat Nat :=
  { (System.start : System Nat Nat) with
    registry :=
      { clusterRefs := AList.insert 7 (registeredHandle shortConfig.naming 7 ⟨"alpha"⟩) ∅,
        resourceIndex := ∅ }
    circuits := openCircuits failures opened
    healthCache := AList.insert 7 .unreachable ∅
    registrations := [(7, ⟨"alpha"⟩)] }

/-- What a sweep reads of the cluster. -/
def alphaEntry : Entry Nat := ⟨7, registeredHandle shortConfig.naming 7 ⟨"alpha"⟩, some ⟨"alpha"⟩⟩

/-- The circuit is still open at the first reading, and at the second its cooldown has ended. -/
theorem planProbes_open (failures : UInt32) (opened : Nat) :
    planProbes shortConfig.circuitConfig (fun _ => (opened, opened + 1)) [alphaEntry]
      (openCircuits failures opened) []
      [] = (openCircuits failures opened, [{ alphaEntry with }], []) := by
  have hget : (openCircuits failures opened).get alphaEntry.clusterId =
      ⟨.open_, failures, some opened⟩ := rfl
  have hopen : CircuitState.maybeTransitionToHalfOpen
    ⟨.open_, failures, some opened⟩ shortConfig.circuitConfig opened =
      ⟨.open_, failures, some opened⟩ := by
    refine CircuitState.transition_eq_self rfl ?_
    rw [Nat.sub_self]
    exact Nat.one_pos
  have hended : CircuitState.shouldSkipProbe
    ⟨.open_, failures, some opened⟩ shortConfig.circuitConfig (opened + 1) =
      false := by
    refine decide_eq_false ?_
    rw [Nat.add_sub_cancel_left]
    exact Nat.lt_irrefl 1
  unfold planProbes
  dsimp only
  rw [hget, hopen, hended]
  rfl

/-- The failure is counted. -/
theorem recordResults_open (failures : UInt32) (opened : Nat) (healthCache : HealthCache Nat) :
    recordResults shortConfig.circuitConfig (fun _ => (opened + 2, opened + 2)) [(7, .unreachable)]
      (openCircuits failures opened) healthCache =
        (openCircuits (failures + 1) (if 1 ≤ failures + 1 then opened + 2 else opened),
          healthCache.insert 7 .unreachable) := by
  have hget : (openCircuits failures opened).get 7 = ⟨.open_, failures, some opened⟩ := rfl
  have hfailure : CircuitState.recordFailure
    ⟨.open_, failures, some opened⟩ shortConfig.circuitConfig (opened + 2) =
      ⟨.open_, failures + 1, some (if 1 ≤ failures + 1 then opened + 2 else opened)⟩ := by
    unfold CircuitState.recordFailure
    show (if 1 ≤ failures + 1 then _ else _) = _
    split_ifs <;> rfl
  unfold recordResults recordResults
  dsimp only
  rw [if_pos rfl, hget, hfailure]
  rfl

/-- A failed sweep counts on, and opens the circuit anew unless its counter wraps around. -/
theorem run_failedSweep (failures : UInt32) (opened : Nat) :
    run (System.step shortConfig) (openSystem failures opened) (failedSweep opened) =
      some (openSystem (failures + 1) (if 1 ≤ failures + 1 then opened + 2 else opened)) := by
  -- The sweep starts and visits the one cluster.
  have hcollect : run (System.step shortConfig) (openSystem failures opened)
      [.tellMonitor .checkAllClusters, .monitor fun _ => (opened, opened), .visit 7] =
        some { openSystem failures opened with monitor := .collecting [] [alphaEntry] } := rfl
  -- Its cooldown is over, so the open circuit goes half open and is probed.
  have hplan : run (System.step shortConfig)
      { openSystem failures opened with monitor := .collecting [] [alphaEntry] }
      [.monitor fun _ => (opened, opened + 1)] =
        some { openSystem failures opened with monitor := .probing [{ alphaEntry with }] [] } := by
    unfold run System.step System.monitorStep openSystem
    dsimp only
    rw [planProbes_open]
    rfl
  -- The probe fails.
  have hfail : run (System.step shortConfig)
      { openSystem failures opened with monitor := .probing [{ alphaEntry with }] [] }
        [.probe 0 .failed] = some { openSystem failures opened with
          monitor := .probing [{ alphaEntry with stage := .finished .unreachable }] [] } := rfl
  -- The failure is counted, and the circuit opens again.
  have hrecord : run (System.step shortConfig)
      { openSystem failures opened with
        monitor := .probing [{ alphaEntry with stage := .finished .unreachable }] [] }
      [.monitor fun _ => (opened + 2, opened + 2)] =
        some (openSystem (failures + 1) (if 1 ≤ failures + 1 then opened + 2 else opened)) := by
    have hresults :
      [({ alphaEntry with stage := .finished .unreachable } : Probe Nat)].mapM Probe.result? =
        some [(7, .unreachable)] := rfl
    unfold run System.step System.monitorStep openSystem
    dsimp only
    rw [hresults]
    dsimp only
    rw [recordResults_open]
    rfl
  exact run_append hcollect (run_append hplan (run_append hfail hrecord))

/-- After that many failed sweeps the counter and the clock have counted them. -/
theorem run_failedSweeps : ∀ {n : Nat}, n + 1 < 2 ^ 32 →
    run (System.step shortConfig) System.start (failedSweeps n) =
      some (openSystem (UInt32.ofNat (n + 1)) (2 * (n + 1)))
  | 0, _ => rfl
  | n + 1, h => by
    have hsweep := run_failedSweep (UInt32.ofNat (n + 1)) (2 * (n + 1))
    have hcounter : UInt32.ofNat (n + 1) + 1 = UInt32.ofNat (n + 1 + 1) :=
      UInt32.ofNat_add (n + 1) 1 |>.symm
    have hreached : 1 ≤ UInt32.ofNat (n + 1 + 1) := by
      rw [UInt32.le_iff_toNat_le, UInt32.toNat_ofNat_of_lt' (by rw [UInt32.size]; omega),
        UInt32.toNat_one]
      omega
    rw [hcounter, if_pos hreached] at hsweep
    exact run_append (run_failedSweeps (by omega)) hsweep

/-- After one failed sweep the circuits are safe. -/
theorem circuitsSafe_failedSweep :
    ∃ s, run (System.step shortConfig) System.start (failedSweeps 0) = some s ∧
    CircuitsSafe shortConfig s :=
  ⟨_, rfl, @circuitsSafe_run Nat Nat _ _ shortConfig (by decide) (failedSweeps 0) _ (by decide) rfl⟩

/-- After as many failures as the counter can count the circuit is open with a counter of zero. -/
theorem not_circuitsSafe_overflow :
    ¬∀ (config : Config) (actions : List (Action Nat Nat)) (s : System Nat Nat),
    1 ≤ config.circuitConfig.openThreshold →
    run (System.step config) System.start actions = some s →
      CircuitsSafe config s := by
  intro h
  have hsweeps : ∀ n : Nat, n + 2 = 2 ^ 32 → False := by
    intro n hn
    have hlast : UInt32.ofNat (n + 1) + 1 = 0 := by
      have hn' : n = 4294967294 := by omega
      subst hn'
      decide
    have hrun := run_append (run_failedSweeps (by omega : n + 1 < 2 ^ 32))
      (run_failedSweep (UInt32.ofNat (n + 1)) (2 * (n + 1)))
    have hsafe := h shortConfig _ _ (by decide) hrun
    have hopened := (hsafe.opened 7 rfl).2
    rw [hlast] at hopened
    have hcounter : (1 : UInt32) ≤ 0 := hopened
    exact absurd hcounter (by decide)
  exact hsweeps 4294967294 rfl

end QueryFabric.Federation
