import QueryFabric.Federation.System

/-!
# Announcements of moved resources

The hub keeps one location for each resource, and an announcement replaces or removes it whoever
owns it. The location of a resource is therefore the one that its latest announcement leaves, and
when a resource moves, a `Removed` of its old cluster that is handled after the `Added` of the new
one takes away the new location. `moved_resources_routed_iff` says that no announcement takes away
the location of another cluster, and that every moved resource is routed to its new cluster, just
when no cluster's `Removed` is handled while the latest announcement of the resource places it on
another cluster.
-/

namespace QueryFabric.Federation

open Cluster Lib

variable {R C : Type} [DecidableEq R]

/-- The location that an announcement leaves. -/
def ResourceAnnouncement.location? (msg : ResourceAnnouncement R C) : Option (ResourceLocation C) :=
  match msg.action with
  | .added | .updated => some { clusterId := msg.clusterId, tables := msg.facets }
  | .removed => none

/-- The announcements of a resource in a log. -/
def announcementsOf (announcements : List (ResourceAnnouncement R C)) (resourceId : R) :
    List (ResourceAnnouncement R C) :=
  announcements.filter fun msg => msg.resourceId = resourceId

/-- The location that the latest announcement of a resource leaves. -/
def latestLocation (announcements : List (ResourceAnnouncement R C)) (resourceId : R) :
    Option (ResourceLocation C) :=
  (announcementsOf announcements resourceId).head?.bind ResourceAnnouncement.location?

/-- The announcement that the hub takes from its mailbox in a step. -/
def System.announcement? (s : System R C) (a : Action R C) : Option (ResourceAnnouncement R C) :=
  match a, s.hub, s.hubMailbox with
  | .hub .done, .idle, .announce msg :: _ => some msg
  | _, _, _ => none

/-- A `Removed` is handled only while no other cluster has the latest announcement of the
resource. -/
def OwnersRemove (s : System R C) (a : Action R C) : Prop :=
  ∀ msg, s.announcement? a = some msg → msg.action = .removed → ∀ location,
    latestLocation s.announcements msg.resourceId = some location →
      location.clusterId = msg.clusterId

/-- The announcements of a resource after one more at the front. -/
theorem announcementsOf_cons (msg : ResourceAnnouncement R C)
    (announcements : List (ResourceAnnouncement R C)) (resourceId : R) :
    announcementsOf (msg :: announcements) resourceId =
      if msg.resourceId = resourceId then msg :: announcementsOf announcements resourceId
      else announcementsOf announcements resourceId := by
  unfold announcementsOf
  rw [List.filter_cons]
  simp only [decide_eq_true_eq]

/-- An announcement leaves its location, and no other resource's location changes. -/
theorem lookup_handleAnnouncement (registry : HubRegistryState R C) (msg : ResourceAnnouncement R C)
    (resourceId : R) :
    (handleAnnouncement registry msg).resourceIndex.lookup resourceId =
      if msg.resourceId = resourceId then
        msg.location? else registry.resourceIndex.lookup resourceId := by
  unfold handleAnnouncement ResourceAnnouncement.location?
  by_cases h : msg.resourceId = resourceId
  · subst h
    rw [if_pos rfl]
    cases msg.action
    · exact AList.lookup_insert _
    · exact AList.lookup_erase _ _
    · exact AList.lookup_insert _
  · rw [if_neg h]
    cases msg.action
    · exact AList.lookup_insert_ne (Ne.symm h)
    · exact AList.lookup_erase_ne (Ne.symm h)
    · exact AList.lookup_insert_ne (Ne.symm h)

variable [DecidableEq C]

/-- When the two latest announcements of a resource are the `Removed` of one cluster and the `Added`
of another, in whichever order, the resource is routed to the other. -/
def MovedRouted (s : System R C) : Prop :=
  ∀ (resourceId : R) (oldCluster newCluster : C) (removed added : ResourceAnnouncement R C)
    (earlier : List (ResourceAnnouncement R C)), oldCluster ≠ newCluster →
    removed.clusterId = oldCluster → removed.action = .removed →
    added.clusterId = newCluster → added.action = .added →
    (announcementsOf s.announcements resourceId = removed :: added :: earlier ∨
      announcementsOf s.announcements resourceId = added :: removed :: earlier) →
    ∀ resourceIds, resourceId ∈ resourceIds →
      (resolveLocality s.registry.resourceIndex resourceIds).RoutesTo resourceId newCluster

/-- A `Removed` that is handled in the step leaves the locations of other clusters as they are, and
moved resources are routed to their new clusters. -/
def KeepsLocations (config : Config) (s : System R C) (a : Action R C) : Prop :=
  ∀ t, s.step config a = some t →
    (∀ msg, s.announcement? a = some msg → msg.action = .removed → ∀ resourceId location,
      s.registry.resourceIndex.lookup resourceId = some location →
        location.clusterId ≠ msg.clusterId →
          t.registry.resourceIndex.lookup resourceId = some location) ∧
    MovedRouted t

/-- What holds between the steps of a run in which only owners remove locations. -/
structure Located (s : System R C) : Prop where
  index : ∀ resourceId, s.registry.resourceIndex.lookup resourceId =
    latestLocation s.announcements resourceId
  moved : MovedRouted s

/-- At the start no resource is located. -/
theorem located_start : Located (System.start : System R C) where
  index _ := rfl
  moved _ _ _ _ _ _ _ _ _ _ _ h := by rcases h with h | h <;> cases h

section Steps

variable {config : Config} {s t : System R C} {a : Action R C}

/-- The hub can take the announcement that is next in its mailbox. -/
theorem exists_step_of_announcement {msg : ResourceAnnouncement R C}
    (hmsg : s.announcement? a = some msg) :
    ∃ t, s.step config a = some t ∧ t.registry = handleAnnouncement s.registry msg ∧
      t.announcements = msg :: s.announcements := by
  unfold System.announcement? at hmsg
  split at hmsg
  · rename_i hub hmailbox
    cases hmsg
    simp [System.step, System.hubStep, hub, hmailbox, System.hubHandle]
  · cases hmsg

/-- A step changes the index and the log only by handling an announcement. -/
theorem announcement_cases (h : s.step config a = some t) :
    (s.announcement? a = none ∧ t.registry.resourceIndex = s.registry.resourceIndex ∧
      t.announcements = s.announcements) ∨
    ∃ msg, s.announcement? a = some msg ∧ t.registry = handleAnnouncement s.registry msg ∧
      t.announcements = msg :: s.announcements := by
  cases hmsg : s.announcement? a with
  | some msg =>
    obtain ⟨t', ht', hregistry, hlog⟩ := exists_step_of_announcement hmsg
    rw [h, Option.some.injEq] at ht'
    subst ht'
    exact .inr ⟨msg, rfl, hregistry, hlog⟩
  | none =>
    refine .inl ⟨rfl, ?_⟩
    cases System.step_effect h with
    | quiet hregistry _ hannouncements => exact ⟨congrArg _ hregistry, hannouncements⟩
    | registered _ _ _ hregistry _ hannouncements =>
      exact ⟨hregistry ▸ rfl, hannouncements⟩
    | announced msg hubMailbox haction hhub hmailbox =>
      simp [System.announcement?, haction, hhub, hmailbox] at hmsg
    | visited _ _ _ _ hregistry _ hannouncements => exact ⟨congrArg _ hregistry, hannouncements⟩
    | refreshed _ _ _ _ _ _ _ _ _ _ hindex _ hannouncements => exact ⟨hindex, hannouncements⟩

/-- A step leaves the index at the latest location announced. -/
theorem Located.index_step (hs : Located s) (h : s.step config a = some t) (resourceId : R) :
    t.registry.resourceIndex.lookup resourceId = latestLocation t.announcements resourceId := by
  obtain ⟨-, hindex, hlog⟩ | ⟨msg, -, hregistry, hlog⟩ := announcement_cases h
  · rw [hindex, hlog]
    exact hs.index resourceId
  · rw [hregistry, hlog, lookup_handleAnnouncement, latestLocation, announcementsOf_cons]
    by_cases hmsg : msg.resourceId = resourceId
    · rw [if_pos hmsg, if_pos hmsg]
      rfl
    · rw [if_neg hmsg, if_neg hmsg]
      exact hs.index resourceId

/-- A guarded step keeps the index located. -/
theorem Located.step (hs : Located s) (hguard : OwnersRemove s a) (h : s.step config a = some t) :
    Located t := by
  refine ⟨hs.index_step h, ?_⟩
  intro resourceId oldCluster newCluster removed added earlier hne hold hremoved hnew hadded hlatest
    resourceIds hmem
  rw [routesTo_resolveLocality_iff, hs.index_step h]
  refine ⟨hmem, ?_⟩
  rcases hlatest with hlatest | hlatest
  · -- The old cluster's `Removed` came last: it was handled in this step or in an earlier one.
    obtain ⟨-, hindex, hlog⟩ | ⟨msg, hmsg, -, hlog⟩ := announcement_cases h
    · rw [hlog] at hlatest ⊢
      have hroutes :=
        hs.moved resourceId oldCluster newCluster removed added earlier hne hold hremoved
        hnew hadded (.inl hlatest) resourceIds hmem
      rw [routesTo_resolveLocality_iff, hs.index] at hroutes
      exact hroutes.2
    · rw [hlog, announcementsOf_cons] at hlatest
      split at hlatest
      · rename_i hid
        obtain ⟨rfl, htail⟩ := List.cons.inj hlatest
        have hlocation : latestLocation s.announcements msg.resourceId =
            some { clusterId := added.clusterId, tables := added.facets } := by
          simp [latestLocation, hid, htail, ResourceAnnouncement.location?, hadded]
        have howner := hguard msg hmsg hremoved _ hlocation
        exact absurd (hold.symm.trans (howner.symm.trans hnew)) hne
      · rename_i hid
        have hroutes :=
          hs.moved resourceId oldCluster newCluster removed added earlier hne hold hremoved
          hnew hadded (.inl hlatest) resourceIds hmem
        rw [routesTo_resolveLocality_iff, hs.index] at hroutes
        rw [hlog, latestLocation, announcementsOf_cons, if_neg hid]
        exact hroutes.2
  · -- The new cluster's `Added` came last, and the index has its location.
    rw [latestLocation, hlatest]
    simp [ResourceAnnouncement.location?, hadded, hnew]

/-- A step of a run in which only owners removed locations keeps locations just when it does so
too. -/
theorem Located.keepsLocations_iff (hs : Located s) :
    KeepsLocations config s a ↔ OwnersRemove s a := by
  constructor
  · intro hkeeps msg hmsg hremoved location hlocation
    by_contra hother
    obtain ⟨t, ht, hregistry, -⟩ := exists_step_of_announcement hmsg
    have hkept := (hkeeps t ht).1 msg hmsg hremoved msg.resourceId location
      ((hs.index _).trans hlocation) hother
    rw [hregistry, lookup_handleAnnouncement, if_pos rfl] at hkept
    simp [ResourceAnnouncement.location?, hremoved] at hkept
  · intro hguard t ht
    refine ⟨fun msg hmsg hremoved resourceId location hlocation hother => ?_,
      (hs.step hguard ht).moved⟩
    obtain ⟨hnone, -⟩ | ⟨handled, hhandled, hregistry, -⟩ := announcement_cases ht
    · rw [hmsg] at hnone
      cases hnone
    · rw [hmsg, Option.some.injEq] at hhandled
      subst hhandled
      rw [hregistry, lookup_handleAnnouncement, if_neg]
      · exact hlocation
      · rintro rfl
        exact hother (hguard msg hmsg hremoved location ((hs.index _).symm.trans hlocation))

end Steps

/-- In a run, no `Removed` takes away the location of another cluster and every moved resource is
routed to its new cluster, just when only owners remove locations. -/
theorem moved_resources_routed_iff (config : Config) (actions : List (Action R C)) :
    Guarded (System.step config) (KeepsLocations config) System.start actions ↔
      Guarded (System.step config) OwnersRemove System.start actions :=
  guarded_congr (fun _ _ _ hs hguard h => hs.step hguard h)
    (fun _ _ hs => hs.keepsLocations_iff) actions located_start

/-- The `Added` of the new cluster overtakes the `Removed` of the old one. -/
def addedBeforeRemoved : List (Action Nat Nat) :=
  [.tellHub (.announce ⟨1, 5, .added, []⟩), .tellHub (.announce ⟨2, 5, .added, []⟩),
    .tellHub (.announce ⟨1, 5, .removed, []⟩), .hub .done, .hub .done, .hub .done, .hub .done]

/-- The run that removes a resource through another cluster's announcement is not guarded. -/
theorem addedBeforeRemoved_unroutes :
    ¬Guarded (System.step (R := Nat) (C := Nat) ⟨⟨"cluster", "hub"⟩, false, ⟨3, 30⟩⟩)
      (KeepsLocations ⟨⟨"cluster", "hub"⟩, false, ⟨3, 30⟩⟩) System.start
      (addedBeforeRemoved ++ [.hub .done]) := by
  intro h
  obtain ⟨s, hs⟩ : ∃ s, run (System.step ⟨⟨"cluster", "hub"⟩, false, ⟨3, 30⟩⟩) System.start
      addedBeforeRemoved = some s := ⟨_, rfl⟩
  obtain ⟨-, hlast, -⟩ := h.append hs
  obtain ⟨t, ht⟩ : ∃ t, s.step ⟨⟨"cluster", "hub"⟩, false, ⟨3, 30⟩⟩ (.hub .done) = some t := by
    cases hs
    exact ⟨_, rfl⟩
  have hkept := (hlast t ht).1 ⟨1, 5, .removed, []⟩
  cases hs
  cases ht
  have hlocation := hkept rfl rfl 5 ⟨2, []⟩ rfl (by decide)
  revert hlocation
  decide

end QueryFabric.Federation
