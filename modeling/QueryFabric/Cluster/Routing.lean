import QueryFabric.Cluster.Registry
import Mathlib.Data.List.Induction

/-!
# Resource locators

`InMemoryResourceLocator` of `crates/queryfabric-cluster/src/routing.rs`, over any sequence of its
operations. `locateMany_partitions` says what a routing decision then is: the resources that are
asked for, split by where the last operation on each has put it, in their order and as often as they
are asked for.
-/

namespace QueryFabric.Cluster

variable {R C : Type} [DecidableEq R]

/-- The operations on locations. -/
inductive LocatorAction (R C : Type)
  | upsert (resourceId : R) (location : ResourceLocation C)
  | remove (resourceId : R)

namespace LocatorAction

/-- The resource of an operation. -/
def resourceId : LocatorAction R C → R
  | upsert resourceId _ | remove resourceId => resourceId

/-- Where the operation puts its resource. -/
def location? : LocatorAction R C → Option (ResourceLocation C)
  | upsert _ location => some location
  | remove _ => none

/-- `upsert` and `remove`. -/
def apply (index : ResourceIndex R C) : LocatorAction R C → ResourceIndex R C
  | upsert resourceId location => index.insert resourceId location
  | remove resourceId => index.erase resourceId

end LocatorAction

/-- The index of an `InMemoryResourceLocator` after some operations. -/
def locatorIndex (actions : List (LocatorAction R C)) : ResourceIndex R C :=
  actions.foldl LocatorAction.apply ∅

/-- Where the last operation on a resource has put it. -/
def lastLocation (actions : List (LocatorAction R C)) (resourceId : R) :
    Option (ResourceLocation C) :=
  (actions.reverse.find? fun action => action.resourceId = resourceId).bind LocatorAction.location?

/-- The location of a resource after an operation. -/
theorem lookup_apply (index : ResourceIndex R C) (action : LocatorAction R C) (resourceId : R) :
    (action.apply index).lookup resourceId =
      if action.resourceId = resourceId then action.location? else index.lookup resourceId := by
  cases action with
  | upsert id location =>
    by_cases heq : id = resourceId
    · subst heq
      exact (AList.lookup_insert index).trans (if_pos rfl).symm
    · exact (AList.lookup_insert_ne (Ne.symm heq)).trans (if_neg heq).symm
  | remove id =>
    by_cases heq : id = resourceId
    · subst heq
      exact (AList.lookup_erase id index).trans (if_pos rfl).symm
    · exact (AList.lookup_erase_ne (Ne.symm heq)).trans (if_neg heq).symm

/-- The location of a resource is the last one that operations set. -/
theorem lookup_locatorIndex (actions : List (LocatorAction R C)) (resourceId : R) :
    (locatorIndex actions).lookup resourceId = lastLocation actions resourceId := by
  induction actions using List.reverseRecOn with
  | nil => rfl
  | append_singleton actions action ih =>
    have hindex : locatorIndex (actions ++ [action]) = action.apply (locatorIndex actions) := by
      rw [locatorIndex, List.foldl_append]
      rfl
    rw [hindex, lookup_apply, ih, lastLocation, lastLocation, List.reverse_append]
    by_cases heq : action.resourceId = resourceId
    · simp [heq]
    · simp [heq]

section Locality

/-- The cluster of a resource. -/
def placeOf (index : ResourceIndex R C) (resourceId : R) : Option C :=
  (index.lookup resourceId).map ResourceLocation.clusterId

/-- A resource without a location is local. -/
theorem placeOf_eq_none {index : ResourceIndex R C} {resourceId : R}
    (h : index.lookup resourceId = none) :
    placeOf index resourceId = none := by rw [placeOf, h, Option.map_none]

/-- A resource with a location is at its cluster. -/
theorem placeOf_eq_some {index : ResourceIndex R C} {resourceId : R} {location : ResourceLocation C}
    (h : index.lookup resourceId = some location) :
    placeOf index resourceId = some location.clusterId := by
  rw [placeOf, h, Option.map_some]

variable [DecidableEq C]

/-- The local resources are those before and those that are local. -/
theorem partitionResources_localIds (index : ResourceIndex R C) (resourceIds localIds : List R)
    (remoteMap : AList fun _ : C => List R) :
    (partitionResources index resourceIds localIds remoteMap).1 =
      localIds ++ resourceIds.filter fun resourceId => placeOf index resourceId = none := by
  induction resourceIds generalizing localIds remoteMap with
  | nil => exact (List.append_nil _).symm
  | cons first resourceIds ih =>
    unfold partitionResources
    cases hfirst : index.lookup first with
    | none =>
      rw [ih, List.filter_cons_of_pos (by simp [placeOf_eq_none hfirst]), List.append_assoc]
      rfl
    | some location =>
      rw [ih, List.filter_cons_of_neg (by simp [placeOf_eq_some hfirst])]

/-- The group of a cluster, after the loop. -/
theorem lookup_partitionResources (index : ResourceIndex R C) (resourceIds localIds : List R)
    (remoteMap : AList fun _ : C => List R) (clusterId : C) :
    (partitionResources index resourceIds localIds remoteMap).2.lookup clusterId =
      match resourceIds.filter fun resourceId => placeOf index resourceId = some clusterId with
      | [] => remoteMap.lookup clusterId
      | placed => some ((remoteMap.lookup clusterId).getD [] ++ placed) := by
  induction resourceIds generalizing localIds remoteMap with
  | nil => rfl
  | cons first resourceIds ih =>
    unfold partitionResources
    cases hfirst : index.lookup first with
    | none => rw [ih, List.filter_cons_of_neg (by simp [placeOf_eq_none hfirst])]
    | some location =>
      by_cases hcluster : clusterId = location.clusterId
      · subst hcluster
        rw [ih, List.filter_cons_of_pos (by simp [placeOf_eq_some hfirst]), AList.lookup_insert]
        cases resourceIds.filter fun resourceId =>
          placeOf index resourceId = some location.clusterId with
        | nil => rfl
        | cons next placed => simp
      · rw [ih, List.filter_cons_of_neg (by simp [placeOf_eq_some hfirst, Ne.symm hcluster]),
          AList.lookup_insert_ne hcluster]

/-- The resources of all groups. -/
def grouped (remoteMap : AList fun _ : C => List R) : List R :=
  remoteMap.entries.flatMap fun entry => entry.2

/-- A resource is put into the group of its cluster. -/
theorem grouped_insert (remoteMap : AList fun _ : C => List R) (clusterId : C) (resourceId : R) :
    (grouped
      (remoteMap.insert clusterId ((remoteMap.lookup clusterId).getD [] ++ [resourceId]))).Perm
      (resourceId :: grouped remoteMap) := by
  rw [grouped, grouped, AList.entries_insert, List.flatMap_cons]
  cases hgroup : remoteMap.lookup clusterId with
  | none =>
    rw [List.kerase_of_notMem_keys (AList.lookup_eq_none.mp hgroup)]
    exact List.Perm.refl _
  | some group =>
    have hmem : clusterId ∈ remoteMap.entries.keys :=
      AList.mem_keys.mp (AList.lookup_isSome.mp (by rw [hgroup]; rfl))
    obtain ⟨old, before, after, -, hentries, herased⟩ := List.exists_of_kerase hmem
    have hold : remoteMap.lookup clusterId = some old :=
      AList.mem_lookup_iff.mpr (hentries ▸ List.mem_append_right _ List.mem_cons_self)
    obtain rfl := Option.some.inj (hgroup.symm.trans hold)
    rw [herased, hentries, Option.getD_some, List.perm_iff_count]
    intro other
    simp only [List.flatMap_append, List.flatMap_cons, List.count_append, List.count_cons,
      List.count_nil]
    omega

/-- Every resource is in one of the groups, as often as it was asked for. -/
theorem partitionResources_perm (index : ResourceIndex R C) (resourceIds localIds : List R)
    (remoteMap : AList fun _ : C => List R) :
    ((partitionResources index resourceIds localIds remoteMap).1 ++
        grouped (partitionResources index resourceIds localIds remoteMap).2).Perm
      (localIds ++ grouped remoteMap ++ resourceIds) := by
  induction resourceIds generalizing localIds remoteMap with
  | nil =>
    rw [List.append_nil]
    exact List.Perm.refl _
  | cons first resourceIds ih =>
    unfold partitionResources
    cases index.lookup first with
    | none =>
      refine (ih _ _).trans (List.perm_iff_count.mpr fun other => ?_)
      simp only [List.count_append, List.count_cons, List.count_nil]
      omega
    | some location =>
      refine (ih _ _).trans (List.perm_iff_count.mpr fun other => ?_)
      have hinsert := (grouped_insert remoteMap location.clusterId first).count_eq other
      simp only [List.count_append, List.count_cons] at hinsert ⊢
      omega

/-- A decision splits the resources that are asked for: those without a place are local, every
cluster has at most one group, of the resources that are placed there, and no resource is lost or
doubled. -/
structure RoutingDecision.Partitions (decision : RoutingDecision R C) (place : R → Option C)
    (resourceIds : List R) :
    Prop where
  localIds : decision.localIds = resourceIds.filter fun resourceId => place resourceId = none
  clusters : (decision.remote.map RemoteGroup.clusterId).Nodup
  groups : ∀ group ∈ decision.remote, group.resourceIds ≠ [] ∧
    group.resourceIds = resourceIds.filter fun resourceId => place resourceId = some group.clusterId
  all : (decision.localIds ++ decision.remote.flatMap RemoteGroup.resourceIds).Perm resourceIds

/-- The decision partitions the resources. -/
theorem resolveLocality_partitions (index : ResourceIndex R C) (resourceIds : List R) :
    (resolveLocality index resourceIds).Partitions (placeOf index) resourceIds where
  localIds := partitionResources_localIds index resourceIds [] ∅
  clusters := by
    have hkeys := (partitionResources index resourceIds [] ∅).2.nodupKeys
    rw [resolveLocality, List.map_map]
    exact hkeys
  groups group hgroup := by
    obtain ⟨⟨clusterId, placed⟩, hentry, rfl⟩ := List.mem_map.mp hgroup
    have hlookup := lookup_partitionResources index resourceIds [] ∅ clusterId
    rw [AList.mem_lookup_iff.mpr hentry, AList.lookup_empty] at hlookup
    split at hlookup
    · cases hlookup
    · rename_i hne
      obtain rfl := Option.some.inj hlookup
      exact ⟨hne, rfl⟩
  all := by
    have hperm := partitionResources_perm index resourceIds [] ∅
    rw [resolveLocality, List.flatMap_map]
    exact hperm

/-- After any operations a locator splits the resources by where the last operation on each has put
it. -/
theorem locateMany_partitions (actions : List (LocatorAction R C)) (resourceIds : List R) :
    (resolveLocality (locatorIndex actions) resourceIds).Partitions
      (fun resourceId => (lastLocation actions resourceId).map ResourceLocation.clusterId)
        resourceIds := by
  have hplace : placeOf (locatorIndex actions) =
      fun resourceId => (lastLocation actions resourceId).map ResourceLocation.clusterId :=
    funext fun resourceId => by rw [placeOf, lookup_locatorIndex]
  rw [← hplace]
  exact resolveLocality_partitions _ _

end Locality

end QueryFabric.Cluster
