import QueryFabric.Cluster.Circuit
import QueryFabric.Cluster.Registry
import QueryFabric.Lib.Runs

/-!
# The hub and the health monitor

The two actors that share a hub's registry: `HubActor` of
`crates/queryfabric-federation/src/hub_actor.rs` and the health monitor of
`crates/queryfabric-cluster/src/health_monitor.rs`, whose sweeps run the `TransportProbe` of
`transport.rs`. An actor takes one message of its mailbox at a time; a step takes it, or one of the
probes of a sweep, to its next `await`. Between any two steps of one task the others may take
theirs.

What the host, the remote clusters and the clock answer is part of the action. The iteration over
the shared map that a sweep starts with is one read for each entry. The replies to the senders of
messages, the fields of an identity other than the name, and the outputs of successful probes, which
`TransportProbe::on_successful_sweep` ignores, are left out.

Beside these the state keeps two logs, with the newest entry first, that no step reads: the
registrations that were stored and the announcements that were handled. With a handle that a sweep
has read stands the latest registration of its cluster at that time.
-/

namespace QueryFabric.Federation

open Cluster

/-- `ClusterIdentity`. -/
structure ClusterIdentity where
  name : String
deriving DecidableEq, Repr

/-- `ResourceAction`. -/
inductive ResourceAction
  | added
  | removed
  | updated
deriving DecidableEq, Repr

/-- `ResourceAnnouncement`. -/
structure ResourceAnnouncement (R C : Type) where
  clusterId : C
  resourceId : R
  action : ResourceAction
  facets : List String
deriving DecidableEq, Repr

/-- `HubMessage`. -/
inductive HubMessage (R C : Type)
  | registerCluster (identity : ClusterIdentity)
  | announce (announcement : ResourceAnnouncement R C)
  | syncAllSchemas

/-- Where the hub stands: between messages, or at an `await` of a handler. -/
inductive HubPhase (C : Type)
  | idle
  | registering (identity : ClusterIdentity)
  | resetCircuit (clusterId : C)
  | onAnnounce
  | schemaSync (handles : List (ClusterRemoteHandle C))

/-- `MonitorMessage`. -/
inductive MonitorMessage (C : Type)
  | checkAllClusters
  | getHealth (clusterId : C)
  | resetCircuitBreaker (clusterId : C)

/-- An entry of the shared map as a sweep read it. -/
structure Entry (C : Type) where
  clusterId : C
  handle : ClusterRemoteHandle C
  registration : Option ClusterIdentity

/-- Where a probe stands. -/
inductive ProbeStage
  | healthPing
  | getFlightEndpoint (status : Health)
  | finished (health : Health)
deriving DecidableEq, Repr

/-- A probe under way: the entry it was started for and the call it waits for. -/
structure Probe (C : Type) extends Entry C where
  stage : ProbeStage := .healthPing

/-- Where the monitor stands: between messages, in the iteration over the map, which has still to
visit the clusters of `unvisited`, or waiting for the probes of a sweep. -/
inductive MonitorPhase (C : Type)
  | idle
  | collecting (unvisited : List C) (entries : List (Entry C))
  | probing (probes : List (Probe C)) (skipped : List (Entry C))

/-- The registry, the hub's actor and the monitor's, their mailboxes and the probes under way. -/
structure System (R C : Type) where
  registry : HubRegistryState R C
  hub : HubPhase C
  hubMailbox : List (HubMessage R C)
  monitor : MonitorPhase C
  monitorMailbox : List (MonitorMessage C)
  circuits : Circuits C
  healthCache : HealthCache C
  registrations : List (C × ClusterIdentity)
  announcements : List (ResourceAnnouncement R C)

/-- The arguments that the actors are spawned with. -/
structure Config where
  naming : DhtNaming
  circuitReset : Bool
  circuitConfig : CircuitConfig

/-- What comes of the call that the hub waits for. -/
inductive HubReply (C : Type)
  | done
  | registered (clusterId : C)
  | failed

/-- What comes of the call that a probe waits for, or the end of its time. -/
inductive ProbeReply
  | pong (status : Health)
  | endpoint (endpoint : String) (tls : Bool)
  | failed
  | timedOut

/-- What can happen next: a message sent, a step of either actor or the answer to a probe. -/
inductive Action (R C : Type)
  | tellHub (message : HubMessage R C)
  | tellMonitor (message : MonitorMessage C)
  | hub (reply : HubReply C)
  | visit (clusterId : C)
  | monitor (clock : C → Nat × Nat)
  | probe (index : Nat) (reply : ProbeReply)

section Steps

variable {R C : Type}

/-- The system as it is spawned, over empty maps. -/
def System.start : System R C :=
  { registry := { clusterRefs := ∅, resourceIndex := ∅ }, hub := .idle, hubMailbox := []
    monitor := .idle, monitorMailbox := [], circuits := ∅, healthCache := ∅, registrations := []
    announcements := [] }

/-- The handle that a registration stores. -/
def registeredHandle (naming : DhtNaming) (clusterId : C) (identity : ClusterIdentity) :
    ClusterRemoteHandle C :=
  { clusterId, clusterName := identity.name, dhtName := naming.clusterName identity.name
    flightEndpoint := none, flightTls := false }

/-- The handle that a probe stores with the endpoint it was given. -/
def Probe.refreshed (probe : Probe C) (endpoint : String) (tls : Bool) : ClusterRemoteHandle C :=
  { probe.handle with flightEndpoint := some endpoint, flightTls := tls }

/-- The health that a probe has come to. -/
def Probe.result? (probe : Probe C) : Option (C × Health) :=
  match probe.stage with
  | .finished health => some (probe.clusterId, health)
  | _ => none

/-- The probes of the sweep under way. -/
def System.probes (s : System R C) : List (Probe C) :=
  match s.monitor with
  | .probing probes _ => probes
  | _ => []

/-- The entries that the sweep under way has read. -/
def System.entries (s : System R C) : List (Entry C) :=
  match s.monitor with
  | .idle => []
  | .collecting _ entries => entries
  | .probing probes skipped => probes.map Probe.toEntry ++ skipped

/-- The entry of a probe under way is one of the entries. -/
theorem System.mem_entries_of_probe {s : System R C} {index : Nat} {probe : Probe C}
    (h : s.probes[index]? = some probe) : probe.toEntry ∈ s.entries := by
  unfold System.probes at h
  unfold System.entries
  cases hmonitor : s.monitor with
  | idle => simp [hmonitor] at h
  | collecting unvisited entries => simp [hmonitor] at h
  | probing probes skipped =>
    rw [hmonitor] at h
    exact List.mem_append_left _ (List.mem_map_of_mem (List.mem_of_getElem? h))

/-- The entries do not change when a probe goes to its next stage. -/
theorem entries_goTo {probes : List (Probe C)} {skipped : List (Entry C)} {index : Nat}
    {probe : Probe C} (stage : ProbeStage) (hprobe : probes[index]? = some probe) (entry : Entry C)
    (h : entry ∈ (probes.set index { probe with stage }).map Probe.toEntry ++ skipped) :
    entry ∈ probes.map Probe.toEntry ++ skipped := by
  rcases List.mem_append.mp h with h | h
  · refine List.mem_append_left _ ?_
    obtain ⟨other, hother, rfl⟩ := List.mem_map.mp h
    rcases List.mem_or_eq_of_mem_set hother with hother | rfl
    · exact List.mem_map_of_mem hother
    · exact List.mem_map.mpr ⟨probe, List.mem_of_getElem? hprobe, rfl⟩
  · exact List.mem_append_right _ h

variable [DecidableEq C]

/-- The latest registration of a cluster in a log. -/
def latestRegistration (registrations : List (C × ClusterIdentity)) (clusterId : C) :
    Option ClusterIdentity :=
  (registrations.find? fun registration => registration.1 = clusterId).map Prod.snd

variable [DecidableEq R]

/-- The update of the registry in the handler of announcements. -/
def handleAnnouncement (registry : HubRegistryState R C) (msg : ResourceAnnouncement R C) :
    HubRegistryState R C :=
  match msg.action with
  | .added | .updated =>
    registry.upsertResource msg.resourceId { clusterId := msg.clusterId, tables := msg.facets }
  | .removed => registry.removeResource msg.resourceId

/-- What a handler of the hub does with its message before it first waits. -/
def System.hubHandle (s : System R C) : HubMessage R C → System R C
  | .registerCluster identity => { s with hub := .registering identity }
  | .announce msg =>
    { s with
      registry := handleAnnouncement s.registry msg, announcements := msg :: s.announcements
      hub := .onAnnounce }
  | .syncAllSchemas =>
    { s with hub := .schemaSync (s.registry.clusterRefs.entries.map fun entry => entry.2) }

/-- The hub takes its next message, or goes on with the answer it waited for. -/
def System.hubStep (config : Config) (s : System R C) (reply : HubReply C) : Option (System R C) :=
  match s.hub, reply with
  | .idle, .done =>
    match s.hubMailbox with
    | [] => none
    | message :: hubMailbox => some ({ s with hubMailbox }.hubHandle message)
  | .registering identity, .registered clusterId =>
    some { s with
      registry := s.registry.upsertCluster (registeredHandle config.naming clusterId identity)
      registrations := (clusterId, identity) :: s.registrations
      hub := if config.circuitReset then .resetCircuit clusterId else .idle }
  | .registering _, .failed => some { s with hub := .idle }
  | .resetCircuit clusterId, .done =>
    some { s with hub := .idle, monitorMailbox := s.monitorMailbox ++
                    [.resetCircuitBreaker clusterId] }
  | .resetCircuit _, .failed => some { s with hub := .idle }
  | .onAnnounce, .done => some { s with hub := .idle }
  | .schemaSync [], .done => some { s with hub := .idle }
  | .schemaSync (_ :: handles), .done => some { s with hub := .schemaSync handles }
  | .schemaSync (_ :: handles), .failed => some { s with hub := .schemaSync handles }
  | _, _ => none

/-- The iteration of a sweep visits an entry, which it has not visited before. -/
def System.visit (s : System R C) (clusterId : C) : Option (System R C) :=
  match s.monitor, s.registry.clusterRefs.lookup clusterId with
  | .collecting unvisited entries, some handle =>
    if entries.any fun entry => entry.clusterId = clusterId then none
    else
      let entry :=
        { clusterId, handle, registration := latestRegistration s.registrations clusterId }
      some { s with
        monitor := .collecting (unvisited.filter fun id => id ≠ clusterId) (entries ++ [entry]) }
  | _, _ => none

/-- The loop over the entries in a sweep, which decides whether to probe them. The clock is read
once for the transition of a circuit and once more for the decision. -/
def planProbes (config : CircuitConfig) (clock : C → Nat × Nat) :
    List (Entry C) → Circuits C → List (Probe C) → List (Entry C) →
      Circuits C × List (Probe C) × List (Entry C)
  | [], circuits, probes, skipped => (circuits, probes, skipped)
  | entry :: entries, circuits, probes, skipped =>
    let circuit := (circuits.get entry.clusterId).maybeTransitionToHalfOpen config
      (clock entry.clusterId).1
    let circuits := circuits.insert entry.clusterId circuit
    if circuit.shouldSkipProbe config (clock entry.clusterId).2 then
      planProbes config clock entries circuits probes (skipped ++ [entry])
    else planProbes config clock entries circuits (probes ++ [{ entry with }]) skipped

/-- The results of a sweep, recorded one after the other. -/
def recordResults (config : CircuitConfig) (clock : C → Nat × Nat) :
    List (C × Health) → Circuits C → HealthCache C → Circuits C × HealthCache C
  | [], circuits, healthCache => (circuits, healthCache)
  | (clusterId, health) :: results, circuits, healthCache =>
    let circuit :=
      if health = .unreachable then
        (circuits.get clusterId).recordFailure config (clock clusterId).1
      else (circuits.get clusterId).recordSuccess
    recordResults config clock results (circuits.insert clusterId circuit)
      (healthCache.insert clusterId health)

/-- `ResetCircuitBreaker`. -/
def System.resetCircuitBreaker (s : System R C) (clusterId : C) : System R C :=
  let circuits := match s.circuits.lookup clusterId with
    | some circuit => if circuit.phase ≠ .closed then s.circuits.insert clusterId {} else s.circuits
    | none => s.circuits
  { s with circuits, healthCache := s.healthCache.erase clusterId }

/-- What a handler of the monitor does with its message before it first waits. -/
def System.monitorHandle (s : System R C) : MonitorMessage C → System R C
  | .checkAllClusters => { s with monitor := .collecting s.registry.clusterRefs.keys [] }
  | .getHealth _ => s
  | .resetCircuitBreaker clusterId => s.resetCircuitBreaker clusterId

/-- The monitor takes its next message, or goes on with the sweep under way. -/
def System.monitorStep (config : Config) (s : System R C) (clock : C → Nat × Nat) :
    Option (System R C) :=
  match s.monitor with
  | .idle =>
    match s.monitorMailbox with
    | [] => none
    | message :: monitorMailbox => some ({ s with monitorMailbox }.monitorHandle message)
  | .collecting unvisited entries =>
    -- All clusters have answered: the probes are planned at once.
    if unvisited = [] then
      let (circuits, probes, skipped) :=
        planProbes config.circuitConfig clock entries s.circuits [] []
      some { s with circuits, monitor := if entries.isEmpty then
                      .idle else .probing probes skipped }
    else none
  | .probing probes skipped =>
    match probes.mapM Probe.result? with
    | none => none
    | some results =>
      let (circuits, healthCache) :=
        recordResults config.circuitConfig clock results s.circuits s.healthCache
      -- What the open breakers skipped is unreachable.
      let healthCache := skipped.foldl
        (fun healthCache entry => healthCache.insert entry.clusterId .unreachable) healthCache
      some { s with circuits, healthCache, monitor := .idle }

/-- `TransportProbe::probe` from an `await` to the next, or the end of its time. -/
def System.probeStep (s : System R C) (index : Nat) (reply : ProbeReply) : Option (System R C) :=
  match s.monitor with
  | .probing probes skipped =>
    match probes[index]? with
    | none => none
    | some probe =>
      let goTo (stage : ProbeStage) : MonitorPhase C :=
        .probing (probes.set index { probe with stage }) skipped
      match probe.stage, reply with
      | .healthPing, .pong status => some { s with monitor := goTo (.getFlightEndpoint status) }
      -- A failed ping ends the probe; a failed endpoint keeps the status of the ping.
      | .healthPing, .failed => some { s with monitor := goTo (.finished .unreachable) }
      | .getFlightEndpoint status, .endpoint endpoint tls =>
        -- An empty endpoint leaves the registry as it is.
        if endpoint.isEmpty then some { s with monitor := goTo (.finished status) }
        else
          some { s with
            registry.clusterRefs :=
              s.registry.clusterRefs.insert probe.clusterId (probe.refreshed endpoint tls)
            monitor := goTo (.finished status) }
      | .getFlightEndpoint status, .failed => some { s with monitor := goTo (.finished status) }
      | .healthPing, .timedOut => some { s with monitor := goTo (.finished .unreachable) }
      | .getFlightEndpoint _, .timedOut => some { s with monitor := goTo (.finished .unreachable) }
      | _, _ => none
  | _ => none

/-- One step of the system. -/
def System.step (config : Config) (s : System R C) : Action R C → Option (System R C)
  | .tellHub message => some { s with hubMailbox := s.hubMailbox ++ [message] }
  | .tellMonitor message => some { s with monitorMailbox := s.monitorMailbox ++ [message] }
  | .hub reply => s.hubStep config reply
  | .visit clusterId => s.visit clusterId
  | .monitor clock => s.monitorStep config clock
  | .probe index reply => s.probeStep index reply

/-! ## What a step can do -/

/-- What a step can do to the registry, to the logs and to the entries that were read. -/
inductive System.Effect (config : Config) (s : System R C) (a : Action R C) (t : System R C) : Prop
  | quiet (hregistry : t.registry = s.registry) (hregistrations : t.registrations = s.registrations)
      (hannouncements : t.announcements = s.announcements)
      (hentries : ∀ entry ∈ t.entries, entry ∈ s.entries)
  | registered (clusterId : C) (identity : ClusterIdentity)
    (haction : a = .hub (.registered clusterId))
      (hregistry : t.registry =
        s.registry.upsertCluster (registeredHandle config.naming clusterId identity))
      (hregistrations : t.registrations = (clusterId, identity) :: s.registrations)
      (hannouncements : t.announcements = s.announcements) (hentries : t.entries = s.entries)
  | announced (msg : ResourceAnnouncement R C) (hubMailbox : List (HubMessage R C))
      (haction : a = .hub .done) (hhub : s.hub = .idle)
      (hmailbox : s.hubMailbox = .announce msg :: hubMailbox)
      (hregistry : t.registry = handleAnnouncement s.registry msg)
      (hregistrations : t.registrations = s.registrations)
      (hannouncements : t.announcements = msg :: s.announcements) (hentries : t.entries = s.entries)
  | visited (clusterId : C) (handle : ClusterRemoteHandle C) (haction : a = .visit clusterId)
      (hhandle : s.registry.clusterRefs.lookup clusterId = some handle)
      (hregistry : t.registry = s.registry) (hregistrations : t.registrations = s.registrations)
      (hannouncements : t.announcements = s.announcements)
      (hentries : t.entries =
        s.entries ++ [⟨clusterId, handle, latestRegistration s.registrations clusterId⟩])
  | refreshed (index : Nat) (probe : Probe C) (status : Health) (endpoint : String) (tls : Bool)
      (haction : a = .probe index (.endpoint endpoint tls)) (hprobe : s.probes[index]? = some probe)
      (hstage : probe.stage = .getFlightEndpoint status) (hendpoint : endpoint.isEmpty = false)
      (hrefs : t.registry.clusterRefs =
        s.registry.clusterRefs.insert probe.clusterId (probe.refreshed endpoint tls))
      (hindex : t.registry.resourceIndex = s.registry.resourceIndex)
      (hregistrations : t.registrations = s.registrations)
      (hannouncements : t.announcements = s.announcements)
      (hentries : ∀ entry ∈ t.entries, entry ∈ s.entries)

variable {config : Config} {s t : System R C}

/-- What a step of the hub changes. -/
theorem System.hubStep_effect {reply : HubReply C} (h : s.hubStep config reply = some t) :
    s.Effect config (.hub reply) t := by
  unfold System.hubStep at h
  -- The goals are in the order of the branches of the code.
  split at h
  · rename_i hhub
    split at h
    · cases h
    · rename_i message hubMailbox hmailbox
      cases h
      cases message with
      | registerCluster identity => exact .quiet rfl rfl rfl fun _ h => h
      | announce msg => exact .announced msg hubMailbox rfl hhub hmailbox rfl rfl rfl rfl
      | syncAllSchemas => exact .quiet rfl rfl rfl fun _ h => h
  · cases h
    exact .registered _ _ rfl rfl rfl rfl rfl
  · cases h
    exact .quiet rfl rfl rfl fun _ h => h
  · cases h
    exact .quiet rfl rfl rfl fun _ h => h
  · cases h
    exact .quiet rfl rfl rfl fun _ h => h
  · cases h
    exact .quiet rfl rfl rfl fun _ h => h
  · cases h
    exact .quiet rfl rfl rfl fun _ h => h
  · cases h
    exact .quiet rfl rfl rfl fun _ h => h
  · cases h
    exact .quiet rfl rfl rfl fun _ h => h
  · cases h

/-- What a visit of the sweep changes. -/
theorem System.visit_effect {clusterId : C} (h : s.visit clusterId = some t) :
    s.Effect config (.visit clusterId) t := by
  unfold System.visit at h
  split at h
  · rename_i unvisited entries handle hmonitor hhandle
    split at h
    · cases h
    · cases h
      refine .visited clusterId handle rfl hhandle rfl rfl rfl ?_
      simp only [System.entries, hmonitor]
  · cases h

/-- The entries that a sweep probes or skips are those it has read. -/
theorem mem_planProbes {config : CircuitConfig} {clock : C → Nat × Nat} {entry : Entry C}
    (entries : List (Entry C)) (circuits : Circuits C) (probes : List (Probe C))
    (skipped : List (Entry C))
    (h : entry ∈ (planProbes config clock entries circuits probes skipped).2.1.map Probe.toEntry ++
      (planProbes config clock entries circuits probes skipped).2.2) :
    entry ∈ entries ∨ entry ∈ probes.map Probe.toEntry ++ skipped := by
  induction entries generalizing circuits probes skipped with
  | nil => exact .inr h
  | cons first entries ih =>
    unfold planProbes at h
    dsimp only at h
    split at h
    · rcases ih _ _ _ h with hentries | hrest
      · exact .inl (List.mem_cons_of_mem _ hentries)
      · simp only [List.mem_append, List.mem_cons] at hrest ⊢
        grind
    · rcases ih _ _ _ h with hentries | hrest
      · exact .inl (List.mem_cons_of_mem _ hentries)
      · simp only [List.map_append, List.map_cons, List.map_nil, List.mem_append,
          List.mem_cons] at hrest ⊢
        grind

/-- What a step of the monitor changes. -/
theorem System.monitorStep_effect {clock : C → Nat × Nat}
    (h : s.monitorStep config clock = some t) :
    s.Effect config (.monitor clock) t := by
  unfold System.monitorStep at h
  split at h
  · split at h
    · cases h
    · rename_i message monitorMailbox hmailbox
      cases h
      -- An idle monitor takes a message: a sweep starts with no entry.
      cases message with
      | checkAllClusters => exact .quiet rfl rfl rfl fun _ h => absurd h List.not_mem_nil
      | getHealth clusterId => exact .quiet rfl rfl rfl fun _ h => h
      | resetCircuitBreaker clusterId => exact .quiet rfl rfl rfl fun _ h => h
  · rename_i unvisited entries hmonitor
    split at h
    · cases h
      -- The planned probes are made of the entries that were collected.
      refine .quiet rfl rfl rfl fun entry hentry => ?_
      have hs : s.entries = entries := by simp only [System.entries, hmonitor]
      rw [hs]
      simp only [System.entries] at hentry
      split at hentry
      · cases hentry
      · rename_i h
        split at h <;> cases h
      · rename_i h
        split at h <;> cases h
        simpa using mem_planProbes entries s.circuits [] [] hentry
    · cases h
  · rename_i probes skipped hmonitor
    split at h
    · cases h
    · cases h
      exact .quiet rfl rfl rfl fun _ h => absurd h List.not_mem_nil

/-- What the answer to a probe changes. -/
theorem System.probeStep_effect {index : Nat} {reply : ProbeReply}
    (h : s.probeStep index reply = some t) :
    s.Effect config (.probe index reply) t := by
  unfold System.probeStep at h
  split at h
  · rename_i probes skipped hmonitor
    split at h
    · cases h
    · rename_i probe hprobe
      have hs : s.entries = probes.map Probe.toEntry ++ skipped := by
        simp only [System.entries, hmonitor]
      have hprobes : s.probes[index]? = some probe := by simpa only [System.probes, hmonitor]
      -- Wherever the probe goes next, the entries stay as they were.
      have hgo (stage : ProbeStage) : ∀ entry ∈ (probes.set index { probe with stage }).map
          Probe.toEntry ++ skipped, entry ∈ s.entries := fun entry hentry =>
        hs ▸ entries_goTo stage hprobe entry hentry
      dsimp only at h
      split at h
      · cases h
        exact .quiet rfl rfl rfl (hgo _)
      · cases h
        exact .quiet rfl rfl rfl (hgo _)
      · rename_i status endpoint tls hstage
        split at h
        · cases h
          exact .quiet rfl rfl rfl (hgo _)
        · rename_i hendpoint
          cases h
          exact .refreshed index probe status endpoint tls rfl hprobes hstage
            (Bool.not_eq_true _ ▸ hendpoint) rfl rfl rfl rfl (hgo _)
      · cases h
        exact .quiet rfl rfl rfl (hgo _)
      · cases h
        exact .quiet rfl rfl rfl (hgo _)
      · cases h
        exact .quiet rfl rfl rfl (hgo _)
      · cases h
  · cases h

/-- What each step of the system changes. -/
theorem System.step_effect {a : Action R C} (h : s.step config a = some t) :
    s.Effect config a t := by
  cases a with
  | tellHub message =>
    cases h
    exact .quiet rfl rfl rfl fun _ h => h
  | tellMonitor message =>
    cases h
    exact .quiet rfl rfl rfl fun _ h => h
  | hub reply => exact System.hubStep_effect h
  | visit clusterId => exact System.visit_effect h
  | monitor clock => exact System.monitorStep_effect h
  | probe index reply => exact System.probeStep_effect h

/-- A probe that is given an endpoint can store its handle with it. -/
theorem System.exists_step_refreshed {index : Nat} {probe : Probe C} {status : Health}
    (hprobe : s.probes[index]? = some probe) (hstage : probe.stage = .getFlightEndpoint status)
    {endpoint : String} (hendpoint : endpoint.isEmpty = false) (tls : Bool) :
    ∃ t, s.step config (.probe index (.endpoint endpoint tls)) = some t ∧
      t.registry.clusterRefs =
        s.registry.clusterRefs.insert probe.clusterId (probe.refreshed endpoint tls) ∧
      t.registrations = s.registrations := by
  unfold System.probes at hprobe
  cases hmonitor : s.monitor with
  | idle => simp [hmonitor] at hprobe
  | collecting unvisited entries => simp [hmonitor] at hprobe
  | probing probes skipped =>
    rw [hmonitor] at hprobe
    dsimp only at hprobe
    simp [System.step, System.probeStep, hmonitor, hprobe, hstage, hendpoint]

end Steps

end QueryFabric.Federation
