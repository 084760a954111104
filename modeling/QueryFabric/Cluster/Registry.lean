import Mathlib.Data.List.AList

/-!
# The hub's registry

The maps that a hub shares between its actors, `crates/queryfabric-cluster/src/registry.rs` and
`routing.rs`: a handle for each cluster and a location for each resource. A concurrent hash map is
an association list without repeated keys; its order stands for the unspecified order of iteration.
Every operation on a map is atomic.
-/

namespace QueryFabric.Cluster

/-- `ClusterRemoteHandle`. -/
structure ClusterRemoteHandle (C : Type) where
  clusterId : C
  clusterName : String
  dhtName : String
  flightEndpoint : Option String
  flightTls : Bool
deriving DecidableEq, Repr

/-- The handles of the clusters. -/
abbrev ClusterRefs (C : Type) := AList fun _ : C => ClusterRemoteHandle C

/-- `ResourceLocation`. -/
structure ResourceLocation (C : Type) where
  clusterId : C
  tables : List String
deriving DecidableEq, Repr

/-- The locations of the resources. -/
abbrev ResourceIndex (R C : Type) := AList fun _ : R => ResourceLocation C

/-- `HubRegistryState`. -/
structure HubRegistryState (R C : Type) where
  clusterRefs : ClusterRefs C
  resourceIndex : ResourceIndex R C

namespace HubRegistryState

variable {R C : Type}

/-- `upsert_cluster`. -/
def upsertCluster [DecidableEq C] (registry : HubRegistryState R C)
    (handle : ClusterRemoteHandle C) :
    HubRegistryState R C :=
  { registry with clusterRefs := registry.clusterRefs.insert handle.clusterId handle }

variable [DecidableEq R]

/-- `upsert_resource`. -/
def upsertResource (registry : HubRegistryState R C) (resourceId : R)
    (location : ResourceLocation C) : HubRegistryState R C :=
  { registry with resourceIndex := registry.resourceIndex.insert resourceId location }

/-- `remove_resource`. -/
def removeResource (registry : HubRegistryState R C) (resourceId : R) : HubRegistryState R C :=
  { registry with resourceIndex := registry.resourceIndex.erase resourceId }

end HubRegistryState

/-- `dht_name`. -/
def dhtName (namePrefix clusterName : String) : String := namePrefix ++ ":" ++ clusterName

/-- `DhtNaming`. -/
structure DhtNaming where
  clusterPrefix : String
  hubName : String
deriving DecidableEq, Repr

/-- `DhtNaming::cluster_name`. -/
def DhtNaming.clusterName (naming : DhtNaming) (name : String) : String :=
  dhtName naming.clusterPrefix name

/-! ## Routing -/

/-- `RemoteGroup`. -/
structure RemoteGroup (R C : Type) where
  clusterId : C
  resourceIds : List R
deriving DecidableEq, Repr

/-- `RoutingDecision`. -/
structure RoutingDecision (R C : Type) where
  localIds : List R
  remote : List (RemoteGroup R C)
deriving DecidableEq, Repr

section Locality

variable {R C : Type} [DecidableEq R] [DecidableEq C]

/-- The loop of `resolve_locality`, from the groups it has so far. -/
def partitionResources (index : ResourceIndex R C) :
    List R → List R → (AList fun _ : C => List R) → List R × AList fun _ : C => List R
  | [], localIds, remoteMap => (localIds, remoteMap)
  | resourceId :: resourceIds, localIds, remoteMap =>
    match index.lookup resourceId with
    | some location =>
      partitionResources index resourceIds localIds
        (remoteMap.insert location.clusterId
          ((remoteMap.lookup location.clusterId).getD [] ++ [resourceId]))
    | none => partitionResources index resourceIds (localIds ++ [resourceId]) remoteMap

/-- `resolve_locality`: a resource that is not in the index is taken to be local. -/
def resolveLocality (index : ResourceIndex R C) (resourceIds : List R) : RoutingDecision R C :=
  let (localIds, remoteMap) := partitionResources index resourceIds [] ∅
  { localIds, remote := remoteMap.entries.map fun entry => ⟨entry.1, entry.2⟩ }

/-- The decision sends the resource to the cluster. -/
def RoutingDecision.RoutesTo (decision : RoutingDecision R C) (resourceId : R)
    (clusterId : C) : Prop :=
  ∃ group ∈ decision.remote, group.clusterId = clusterId ∧ resourceId ∈ group.resourceIds

/-- A resource is in the group of a cluster when it was there before or is one of those that the
index places there. -/
theorem mem_partitionResources (index : ResourceIndex R C) (resourceIds localIds : List R)
    (remoteMap : AList fun _ : C => List R) (resourceId : R) (clusterId : C) :
    (∃ group, (partitionResources index resourceIds localIds remoteMap).2.lookup clusterId =
      some group ∧
      resourceId ∈ group) ↔
    (∃ group, remoteMap.lookup clusterId = some group ∧ resourceId ∈ group) ∨
      resourceId ∈ resourceIds ∧
        (index.lookup resourceId).map ResourceLocation.clusterId = some clusterId := by
  -- The loop takes a resource at a time; what it has grouped so far only grows.
  induction resourceIds generalizing localIds remoteMap with
  | nil => simp [partitionResources]
  | cons first resourceIds ih =>
    unfold partitionResources
    cases hfirst : index.lookup first with
    -- A resource without a location joins the local ones.
    | none =>
      have hfirst' : ¬(resourceId = first ∧
          (index.lookup resourceId).map ResourceLocation.clusterId = some clusterId) := by
        rintro ⟨rfl, h⟩
        simp [hfirst] at h
      simp only [ih, List.mem_cons, or_and_right, hfirst', false_or]
    | some location =>
      simp only [ih, List.mem_cons, or_and_right]
      -- The first resource joins the group of its own cluster and no other.
      by_cases hcluster : clusterId = location.clusterId
      · subst hcluster
        have hgroup : (∃ group, some ((remoteMap.lookup location.clusterId).getD [] ++ [first]) =
            some group ∧ resourceId ∈ group) ↔
            (∃ group, remoteMap.lookup location.clusterId = some group ∧ resourceId ∈ group) ∨
              resourceId = first := by
          cases remoteMap.lookup location.clusterId <;> simp
        have hfirst' :
          (resourceId = first ∧ (index.lookup resourceId).map ResourceLocation.clusterId =
            some location.clusterId) ↔ resourceId = first := by
          refine and_iff_left_of_imp ?_
          rintro rfl
          simp [hfirst]
        rw [AList.lookup_insert, hgroup, hfirst', or_assoc]
      · have hfirst' : ¬(resourceId = first ∧
            (index.lookup resourceId).map ResourceLocation.clusterId = some clusterId) := by
          rintro ⟨rfl, h⟩
          rw [hfirst, Option.map_some, Option.some.injEq] at h
          exact hcluster h.symm
        simp only [AList.lookup_insert_ne hcluster, hfirst', false_or]

/-- A resource is routed to the cluster of its location, or is local. -/
theorem routesTo_resolveLocality_iff (index : ResourceIndex R C) (resourceIds : List R)
    (resourceId : R) (clusterId : C) :
    (resolveLocality index resourceIds).RoutesTo resourceId clusterId ↔
      resourceId ∈ resourceIds ∧
        (index.lookup resourceId).map ResourceLocation.clusterId = some clusterId := by
  have h := mem_partitionResources index resourceIds [] ∅ resourceId clusterId
  simp only [AList.lookup_empty, reduceCtorEq, false_and, exists_false, false_or] at h
  rw [← h]
  unfold RoutingDecision.RoutesTo resolveLocality
  simp only [List.mem_map]
  constructor
  · rintro ⟨_, ⟨⟨c, group⟩, hgroup, rfl⟩, rfl, hmem⟩
    exact ⟨group, AList.mem_lookup_iff.mpr hgroup, hmem⟩
  · rintro ⟨group, hgroup, hmem⟩
    exact ⟨_, ⟨⟨clusterId, group⟩, AList.mem_lookup_iff.mp hgroup, rfl⟩, rfl, hmem⟩

end Locality

end QueryFabric.Cluster
