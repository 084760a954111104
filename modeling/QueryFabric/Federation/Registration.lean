import QueryFabric.Federation.System

/-!
# Registrations and refreshes

A probe is given a copy of a cluster's handle, asks the cluster for its endpoint, and then stores
the copy with the new endpoint in the place of whatever handle is there. A registration that the hub
has handled in the meantime is lost, with the names it gave to the cluster. `registrations_kept_iff`
says that a run keeps the names of the latest registrations, and that its refreshes change nothing
but endpoints, just when no refresh is stored after a registration of its cluster under another name
than the sweep has read.
-/

namespace QueryFabric.Federation

open Cluster Lib

variable {R C : Type} [DecidableEq C]

/-- The names that a registration gives to a handle. -/
def ClusterIdentity.handleNames (naming : DhtNaming) (identity : ClusterIdentity) :
    String × String :=
  (identity.name, naming.clusterName identity.name)

/-- The names that stand in a handle. -/
def handleNames (handle : ClusterRemoteHandle C) : String × String :=
  (handle.clusterName, handle.dhtName)

/-- What a refresh may not change of a handle. -/
def withoutEndpoint (handle : ClusterRemoteHandle C) : ClusterRemoteHandle C :=
  { handle with flightEndpoint := none, flightTls := false }

/-- The stored handles are those of the registered clusters, with the names of the latest
registrations. -/
def NamesCurrent (naming : DhtNaming) (s : System R C) : Prop :=
  ∀ clusterId, (s.registry.clusterRefs.lookup clusterId).map handleNames =
    (latestRegistration s.registrations clusterId).map (·.handleNames naming)

/-- A probe that stores a handle does so while its cluster is registered under the name that it was
registered under when the sweep read the handle. -/
def RefreshesCurrent (s : System R C) : Action R C → Prop
  | .probe index (.endpoint endpoint _) =>
    ∀ probe status, s.probes[index]? = some probe → probe.stage = .getFlightEndpoint status →
      endpoint.isEmpty = false →
        (latestRegistration s.registrations probe.clusterId).map ClusterIdentity.name =
          probe.registration.map ClusterIdentity.name
  | _ => True

/-- The handle that a sweep has read is the one that was stored then. -/
structure Entry.Faithful (naming : DhtNaming) (s : System R C) (entry : Entry C) : Prop where
  stored : entry.clusterId ∈ s.registry.clusterRefs
  id : entry.handle.clusterId = entry.clusterId
  names : entry.registration.map (·.handleNames naming) = some (handleNames entry.handle)

/-- What holds between the steps of a run whose refreshes are current. -/
structure Registered (naming : DhtNaming) (s : System R C) : Prop where
  names : NamesCurrent naming s
  ids : ∀ clusterId handle, s.registry.clusterRefs.lookup clusterId = some handle →
    handle.clusterId = clusterId
  entries : ∀ entry ∈ s.entries, entry.Faithful naming s

/-- At the start no cluster is registered. -/
theorem registered_start (naming : DhtNaming) : Registered naming (System.start : System R C) where
  names _ := rfl
  ids _ _ h := by cases h
  entries _ h := absurd h List.not_mem_nil

/-- The latest registration of a cluster after one more at the front. -/
theorem latestRegistration_cons (registrations : List (C × ClusterIdentity))
    (registered clusterId : C) (identity : ClusterIdentity) :
    latestRegistration ((registered, identity) :: registrations) clusterId =
      if registered = clusterId then
        some identity else latestRegistration registrations clusterId := by
  unfold latestRegistration
  by_cases h : registered = clusterId <;> simp [h]

/-- Names come from the name of the registration. -/
theorem handleNames_eq_iff {naming : DhtNaming} {a b : Option ClusterIdentity} :
    a.map (·.handleNames naming) = b.map (·.handleNames naming) ↔
      a.map ClusterIdentity.name = b.map ClusterIdentity.name := by
  cases a <;> cases b <;> simp [ClusterIdentity.handleNames]
  rintro h
  rw [h]

section Steps

variable {config : Config} {s t : System R C} {a : Action R C}

/-- The names in the handle that a probe is about to store. -/
theorem Registered.probe_names (hs : Registered config.naming s) {index : Nat} {probe : Probe C}
    (hprobe : s.probes[index]? = some probe) (endpoint : String) (tls : Bool) :
    some (handleNames (probe.refreshed endpoint tls)) =
      probe.registration.map (·.handleNames config.naming) :=
  (hs.entries probe.toEntry (System.mem_entries_of_probe hprobe)).names.symm

/-- A refresh that is current changes neither the names nor anything else but the endpoint. -/
theorem Registered.refreshed_eq (hs : Registered config.naming s) {index : Nat} {probe : Probe C}
    (hprobe : s.probes[index]? = some probe)
    (hcurrent : (latestRegistration s.registrations probe.clusterId).map ClusterIdentity.name =
      probe.registration.map ClusterIdentity.name) (endpoint : String) (tls : Bool) :
    ∃ handle, s.registry.clusterRefs.lookup probe.clusterId = some handle ∧
      probe.refreshed endpoint tls =
        { handle with flightEndpoint := some endpoint, flightTls := tls } := by
  have hentry := hs.entries probe.toEntry (System.mem_entries_of_probe hprobe)
  obtain ⟨handle, hhandle⟩ := Option.isSome_iff_exists.mp (AList.lookup_isSome.mpr hentry.stored)
  refine ⟨handle, hhandle, ?_⟩
  have hnames : some (handleNames handle) = some (handleNames probe.handle) := by
    calc some (handleNames handle)
        = (latestRegistration s.registrations probe.clusterId).map
            (·.handleNames config.naming) := by
          rw [← hs.names, hhandle, Option.map_some]
      _ = probe.registration.map (·.handleNames config.naming) := handleNames_eq_iff.mpr hcurrent
      _ = some (handleNames probe.handle) := hentry.names
  have hid : handle.clusterId = probe.handle.clusterId :=
    (hs.ids _ _ hhandle).trans hentry.id.symm
  simp only [handleNames, Option.some.injEq, Prod.mk.injEq] at hnames
  simp [Probe.refreshed, hid, hnames.1, hnames.2]

variable [DecidableEq R]

/-- After the step the names are those of the latest registrations, and a step of a probe has
changed nothing but endpoints. -/
def KeepsRegistrations (config : Config) (s : System R C) (a : Action R C) : Prop :=
  ∀ t, s.step config a = some t → NamesCurrent config.naming t ∧
    ((∃ index reply, a = .probe index reply) → ∀ clusterId,
      (t.registry.clusterRefs.lookup clusterId).map withoutEndpoint =
        (s.registry.clusterRefs.lookup clusterId).map withoutEndpoint)

/-- A guarded step keeps every registered cluster under its latest identity. -/
theorem Registered.step (hs : Registered config.naming s) (hguard : RefreshesCurrent s a)
    (h : s.step config a = some t) : Registered config.naming t := by
  -- By what a step can do: only a registration and a refresh write a handle.
  cases System.step_effect h with
  | quiet hregistry hregistrations _ hentries =>
    refine ⟨?_, ?_, fun entry hentry => ?_⟩
    · simpa only [NamesCurrent, hregistry, hregistrations] using hs.names
    · simpa only [hregistry] using hs.ids
    · obtain ⟨hstored, hid, hnames⟩ := hs.entries entry (hentries entry hentry)
      exact ⟨hregistry ▸ hstored, hid, hnames⟩
  | registered clusterId identity _ hregistry hregistrations _ hentries =>
    have hrefs : t.registry.clusterRefs = s.registry.clusterRefs.insert clusterId
        (registeredHandle config.naming clusterId identity) := by rw [hregistry]; rfl
    refine ⟨fun other => ?_, fun other handle hhandle => ?_, fun entry hentry => ?_⟩
    · rw [hrefs, hregistrations, latestRegistration_cons]
      by_cases hother : clusterId = other
      · subst hother
        rw [AList.lookup_insert, if_pos rfl]
        rfl
      · rw [AList.lookup_insert_ne (Ne.symm hother), if_neg hother]
        exact hs.names other
    · rw [hrefs] at hhandle
      by_cases hother : clusterId = other
      · subst hother
        rw [AList.lookup_insert] at hhandle
        cases hhandle
        rfl
      · rw [AList.lookup_insert_ne (Ne.symm hother)] at hhandle
        exact hs.ids other handle hhandle
    · obtain ⟨hstored, hid, hnames⟩ := hs.entries entry (hentries ▸ hentry)
      exact ⟨hrefs ▸ (AList.mem_insert _).mpr (.inr hstored), hid, hnames⟩
  -- An announcement is about resources, not about handles.
  | announced msg _ _ _ _ hregistry hregistrations _ hentries =>
    have hrefs : t.registry.clusterRefs = s.registry.clusterRefs := by
      rw [hregistry]
      unfold handleAnnouncement
      split <;> rfl
    refine ⟨?_, ?_, fun entry hentry => ?_⟩
    · simpa only [NamesCurrent, hrefs, hregistrations] using hs.names
    · simpa only [hrefs] using hs.ids
    · obtain ⟨hstored, hid, hnames⟩ := hs.entries entry (hentries ▸ hentry)
      exact ⟨hrefs ▸ hstored, hid, hnames⟩
  -- A visit adds an entry with the names of the handle that is stored.
  | visited clusterId handle _ hhandle hregistry hregistrations _ hentries =>
    refine ⟨?_, ?_, fun entry hentry => ?_⟩
    · simpa only [NamesCurrent, hregistry, hregistrations] using hs.names
    · simpa only [hregistry] using hs.ids
    · rw [hentries, List.mem_append, List.mem_singleton] at hentry
      rcases hentry with hentry | rfl
      · obtain ⟨hstored, hid, hnames⟩ := hs.entries entry hentry
        exact ⟨hregistry ▸ hstored, hid, hnames⟩
      · refine ⟨hregistry ▸ AList.lookup_isSome.mp ?_, hs.ids clusterId handle hhandle, ?_⟩
        · rw [hhandle]
          rfl
        · rw [← hs.names clusterId, hhandle]
          rfl
  -- A refresh writes the handle that the probe started with, which is current by the guard.
  | refreshed index probe status endpoint tls haction hprobe hstage hendpoint hrefs hindex
      hregistrations _ hentries =>
    subst haction
    have hcurrent := hguard probe status hprobe hstage hendpoint
    obtain ⟨handle, hhandle, heq⟩ := hs.refreshed_eq hprobe hcurrent endpoint tls
    refine ⟨fun other => ?_, fun other stored hother => ?_, fun entry hentry => ?_⟩
    · rw [hrefs, hregistrations]
      by_cases hother : probe.clusterId = other
      · subst hother
        rw [AList.lookup_insert, Option.map_some, hs.probe_names hprobe, handleNames_eq_iff]
        exact hcurrent.symm
      · rw [AList.lookup_insert_ne (Ne.symm hother)]
        exact hs.names other
    · rw [hrefs] at hother
      by_cases hid : probe.clusterId = other
      · subst hid
        rw [AList.lookup_insert, Option.some.injEq] at hother
        calc stored.clusterId = handle.clusterId := by rw [← hother, heq]
          _ = probe.clusterId := hs.ids _ _ hhandle
      · rw [AList.lookup_insert_ne (Ne.symm hid)] at hother
        exact hs.ids other stored hother
    · obtain ⟨hstored, hid, hnames⟩ := hs.entries entry (hentries entry hentry)
      exact ⟨hrefs ▸ (AList.mem_insert _).mpr (.inr hstored), hid, hnames⟩

/-- A step of a run whose refreshes were current keeps the registrations just when it is current
too. -/
theorem Registered.keepsRegistrations_iff (hs : Registered config.naming s) :
    KeepsRegistrations config s a ↔ RefreshesCurrent s a := by
  constructor
  -- If every step keeps the registrations, so does the refresh, whose handle has the probe's names.
  · intro hkeeps
    unfold RefreshesCurrent
    split
    · rename_i index endpoint tls
      intro probe status hprobe hstage hendpoint
      obtain ⟨t, ht, hrefs, hregistrations⟩ :=
        System.exists_step_refreshed hprobe hstage hendpoint tls
      have hnames := (hkeeps t ht).1 probe.clusterId
      rw [hrefs, hregistrations, AList.lookup_insert, Option.map_some, hs.probe_names hprobe,
        handleNames_eq_iff] at hnames
      exact hnames.symm
    · trivial
  · intro hguard t ht
    -- Only a refresh can change a handle without a registration.
    refine ⟨(hs.step hguard ht).names, ?_⟩
    rintro ⟨index, reply, rfl⟩ clusterId
    cases System.step_effect ht with
    | quiet hregistry => rw [hregistry]
    | registered _ _ haction => cases haction
    | announced _ _ haction => cases haction
    | visited _ _ haction => cases haction
    | refreshed index probe status endpoint tls haction hprobe hstage hendpoint hrefs =>
      cases haction
      obtain ⟨handle, hhandle, heq⟩ :=
        hs.refreshed_eq hprobe (hguard probe status hprobe hstage hendpoint) endpoint tls
      rw [hrefs]
      by_cases hother : probe.clusterId = clusterId
      · subst hother
        rw [AList.lookup_insert, hhandle, heq]
        rfl
      · rw [AList.lookup_insert_ne (Ne.symm hother)]

end Steps

variable [DecidableEq R]

/-- A run keeps the latest registrations, and its refreshes change nothing but endpoints, just when
its refreshes are current. -/
theorem registrations_kept_iff (config : Config) (actions : List (Action R C)) :
    Guarded (System.step config) (KeepsRegistrations config) System.start actions ↔
      Guarded (System.step config) RefreshesCurrent System.start actions :=
  guarded_congr (fun _ _ _ hs hguard h => hs.step hguard h)
    (fun _ _ hs => hs.keepsRegistrations_iff) actions (registered_start config.naming)

/-- A cluster that registers under a new name while a probe asks it for its endpoint. -/
def renamedDuringProbe : List (Action Nat Nat) :=
  [.tellHub (.registerCluster ⟨"alpha"⟩), .hub .done, .hub (.registered 7),
    .tellMonitor .checkAllClusters, .monitor fun _ => (0, 0), .visit 7, .monitor fun _ => (0, 0),
    .probe 0 (.pong .healthy),
    .tellHub (.registerCluster ⟨"beta"⟩), .hub .done, .hub (.registered 7)]

/-- The configuration with the default names, threshold and cooldown. -/
def defaultConfig : Config :=
  { naming := ⟨"fabric-cluster", "fabric-hub"⟩, circuitReset := false,
    circuitConfig := ⟨3, 30000000000⟩ }

/-- The refresh puts the old names back. -/
theorem renamedDuringProbe_loses_name :
    ¬Guarded (System.step defaultConfig) (KeepsRegistrations defaultConfig) System.start
      (renamedDuringProbe ++ [.probe 0 (.endpoint "alpha:50052" false)]) := by
  intro h
  obtain ⟨s, hs⟩ : ∃ s, run (System.step defaultConfig) System.start renamedDuringProbe = some s :=
    ⟨_, rfl⟩
  obtain ⟨-, hlast, -⟩ := h.append hs
  obtain ⟨t, ht⟩ : ∃ t, s.step defaultConfig (.probe 0 (.endpoint "alpha:50052" false)) =
      some t := by
    cases hs
    exact ⟨_, rfl⟩
  have hnames := (hlast t ht).1 7
  cases hs
  cases ht
  revert hnames
  decide

end QueryFabric.Federation
