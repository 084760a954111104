import QueryFabric.Cluster.Registry
import QueryFabric.Federation.Schema
import QueryFabric.Lib.Runs

/-!
# Schema rollout

The handler of `SyncAllSchemas` in `crates/queryfabric-federation/src/hub_actor.rs` sends the
migrations of the hub to one registered cluster after the other, over a transport that may lose a
request or its reply, or hand over a request long after the hub has given it up. The hub's host
publishes further migrations at any time, with higher versions.

`rolledOut_run` says that the clusters agree all the same: what a node has applied is a stretch of
the hub's migrations, all of those between the version that it started on and the one that it is on,
so that nodes on one version have one schema. A cluster that a broadcast reports as synchronised has
every migration of that broadcast.
-/

namespace QueryFabric.Federation

open Cluster Lib

/-! ## The migrations that a message applies -/

/-- The migration that was applied. -/
def SyncEvent.applied? : SyncEvent → Option SchemaMigration
  | .applied migration => some migration
  | .skipped _ | .rejected _ | .failed .. => none

/-- The migrations that the events report as applied. -/
def appliedMigrations (events : List SyncEvent) : List SchemaMigration :=
  events.filterMap SyncEvent.applied?

/-- The migrations above one version, up to another. -/
def stretch (low high : Int) (migrations : List SchemaMigration) : List SchemaMigration :=
  migrations.filter fun migration => low < migration.version ∧ migration.version ≤ high

/-- Migrations with increasing versions. -/
def Increasing (migrations : List SchemaMigration) : Prop :=
  migrations.Pairwise fun a b => a.version < b.version

section Stretch

variable {low mid high : Int} {migrations : List SchemaMigration}

/-- No migration is between a version and itself. -/
theorem stretch_self : stretch low low migrations = [] :=
  List.filter_eq_nil_iff.mpr fun migration _ h => by
    rw [decide_eq_true_eq] at h
    omega

/-- Two stretches that meet make the stretch from the first to the last. -/
theorem stretch_append_stretch (h : Increasing migrations) (hlow : low ≤ mid) (hhigh : mid ≤ high) :
    stretch low mid migrations ++ stretch mid high migrations = stretch low high migrations := by
  induction migrations with
  | nil => rfl
  | cons first migrations ih =>
    obtain ⟨hfirst, hrest⟩ := List.pairwise_cons.mp h
    unfold stretch at ih ⊢
    by_cases hmid : first.version ≤ mid
    · by_cases habove : low < first.version
      · simp only [List.filter_cons, decide_eq_true_eq, if_pos (And.intro habove hmid),
          if_neg (show ¬(mid < first.version ∧ first.version ≤ high) by omega),
          if_pos (show low < first.version ∧ first.version ≤ high by omega),
            List.cons_append, ih hrest]
      · simp only [List.filter_cons, decide_eq_true_eq,
          if_neg (show ¬(low < first.version ∧ first.version ≤ mid) by omega),
          if_neg (show ¬(mid < first.version ∧ first.version ≤ high) by omega),
          if_neg (show ¬(low < first.version ∧ first.version ≤ high) by omega), ih hrest]
    · -- the first and all that follow are above the middle
      have habove : ∀ migration ∈ first :: migrations, mid < migration.version := by
        intro migration hmem
        obtain rfl | hmem := List.mem_cons.mp hmem
        · omega
        · have := hfirst migration hmem
          omega
      have hnone : (first :: migrations).filter
          (fun migration => low < migration.version ∧ migration.version ≤ mid) = [] :=
        List.filter_eq_nil_iff.mpr fun migration hmem hle => by
          have := habove migration hmem
          rw [decide_eq_true_eq] at hle
          omega
      rw [hnone, List.nil_append]
      refine List.filter_congr fun migration hmem => ?_
      have := habove migration hmem
      exact decide_eq_decide.mpr (by omega)

/-- Later migrations are no part of a stretch that ends before them. -/
theorem stretch_prefix {published : List SchemaMigration} (h : Increasing published)
    (hstart : migrations <+: published)
    (hhigh : high = low ∨ ∃ migration ∈ migrations, migration.version = high) :
    stretch low high published = stretch low high migrations := by
  obtain rfl | ⟨last, hlast, rfl⟩ := hhigh
  · rw [stretch_self, stretch_self]
  · obtain ⟨later, rfl⟩ := hstart
    have hlater : stretch low last.version later = [] :=
        List.filter_eq_nil_iff.mpr fun migration hmem hle => by
      have := (List.pairwise_append.mp h).2.2 last hlast migration hmem
      rw [decide_eq_true_eq] at hle
      omega
    unfold stretch at hlater ⊢
    rw [List.filter_append, hlater, List.append_nil]

end Stretch

/-- What the loop applies, of migrations in order. -/
structure SyncRun.Applies (run : SyncRun) (version : Int)
    (migrations : List SchemaMigration) : Prop where
  applied : appliedMigrations run.events = stretch version run.appliedVersion migrations
  monotone : version ≤ run.appliedVersion
  last : run.appliedVersion = version ∨
    ∃ migration ∈ migrations, migration.version = run.appliedVersion
  complete : run.errors.isEmpty = true → ∀ migration ∈ migrations,
    migration.version ≤ run.appliedVersion

/-- Over increasing migrations the loop applies a stretch. -/
theorem applies_syncMigrations (applyDdl : SchemaMigration → Option String) :
    ∀ {migrations : List SchemaMigration}
    (version : Int), Increasing migrations →
    (syncMigrations applyDdl version migrations).Applies version migrations
  | [], version, _ => ⟨rfl, Int.le_refl _, .inl rfl, fun _ => List.forall_mem_nil _⟩
  | migration :: migrations, version, h => by
    obtain ⟨hfirst, hrest⟩ := List.pairwise_cons.mp h
    have herror {event : SyncEvent} {message : String} (hnot : event.applied? = none) :
        SyncRun.Applies ⟨version, [message], [event]⟩ version (migration :: migrations) := by
      refine ⟨?_, Int.le_refl _, .inl rfl, nofun⟩
      rw [stretch_self, appliedMigrations, List.filterMap_cons, hnot]
      rfl
    unfold syncMigrations
    split_ifs with hold hrejected
    · -- skipped
      obtain ⟨happlied, hmonotone, hlast, hcomplete⟩ :=
        applies_syncMigrations applyDdl version hrest
      refine ⟨?_, hmonotone, ?_, fun hok => ?_⟩
      · refine Eq.trans happlied ?_
        unfold stretch
        rw [List.filter_cons_of_neg (by rw [decide_eq_true_eq]; omega)]
        rfl
      · obtain heq | ⟨m, hm, heq⟩ := hlast
        · exact .inl heq
        · exact .inr ⟨m, List.mem_cons_of_mem _ hm, heq⟩
      · exact List.forall_mem_cons.mpr ⟨Int.le_trans hold hmonotone, hcomplete hok⟩
    · exact herror rfl
    · split
      · -- applied
        have hlater := applies_syncMigrations applyDdl migration.version hrest
        obtain ⟨happlied, hmonotone, hlast, hcomplete⟩ := hlater
        refine ⟨?_, Int.le_trans (Int.le_of_lt (Int.not_le.mp hold)) hmonotone, .inr ?_,
          fun hok => ?_⟩
        · refine (congrArg (migration :: ·) happlied).trans ?_
          unfold stretch
          rw [List.filter_cons_of_pos (by
            rw [decide_eq_true_eq]
            exact ⟨Int.not_le.mp hold, hmonotone⟩)]
          refine congrArg _ (List.filter_congr fun later hlater => decide_eq_decide.mpr ?_)
          have := hfirst later hlater
          exact ⟨fun hle => ⟨by omega, hle.2⟩, fun hle => ⟨this, hle.2⟩⟩
        · obtain heq | ⟨m, hm, heq⟩ := hlast
          · exact ⟨migration, List.mem_cons_self, heq.symm⟩
          · exact ⟨m, List.mem_cons_of_mem _ hm, heq⟩
        · exact List.forall_mem_cons.mpr ⟨hmonotone, hcomplete hok⟩
      · exact herror rfl

/-! ## The hub, its nodes and the transport -/

/-- A node, with the version that it started on. -/
structure ClusterNode where
  initial : Int
  node : SchemaNode

/-- A `SchemaSync` on its way to a node. -/
structure Request where
  id : Nat
  dhtName : String
  sync : SchemaSync
deriving DecidableEq, Repr

/-- The handler of `SyncAllSchemas`: the clusters that are left, the one that was asked, by the
identifier of the request, with the reply that has come back, and the results so far. No step reads
the clusters that there were at first. -/
structure Broadcast (C : Type) where
  clusters : List (ClusterRemoteHandle C)
  sync : SchemaSync
  pending : List (ClusterRemoteHandle C)
  asked : Option (ClusterRemoteHandle C × Nat) := none
  reply : Option SchemaSyncReply := none
  results : List (ClusterRemoteHandle C × Bool) := []

namespace Broadcast

variable {C : Type}

/-- The reply to a broadcast that waits for this request. -/
def receive (broadcast : Broadcast C) (id : Nat) (reply : SchemaSyncReply) : Broadcast C :=
  if broadcast.asked.any fun asked => asked.2 = id then { broadcast with reply := some reply }
    else broadcast

/-- A broadcast goes on to the next cluster. -/
def goOn (broadcast : Broadcast C) (handle : ClusterRemoteHandle C) (success : Bool) :
    Broadcast C :=
  { broadcast with asked := none, reply := none,
                   results := broadcast.results ++ [(handle, success)] }

end Broadcast

/-- What a broadcast has answered, to which clusters it had gone and what it had sent. -/
structure Report (C : Type) where
  clusters : List (ClusterRemoteHandle C)
  sync : SchemaSync
  results : List (ClusterRemoteHandle C × Bool)

/-- The host's migrations, the clusters, the nodes and the broadcasts with their requests. -/
structure Rollout (C : Type) where
  /-- `schema_migrations(0)` of the hub's host. -/
  migrations : List SchemaMigration
  clusterRefs : ClusterRefs C
  nodes : String → Option ClusterNode
  inFlight : List Request
  nextId : Nat
  broadcast : Option (Broadcast C)
  reports : List (Report C)

/-- What can happen next to a rollout. -/
inductive RolloutAction (C : Type)
  | publish (migration : SchemaMigration)
  | register (handle : ClusterRemoteHandle C)
  /-- A node starts on a version. -/
  | join (dhtName : String) (version : Int)
  | syncAll
  /-- The hub asks the next cluster. -/
  | ask
  /-- A request reaches its node, whose host answers. -/
  | deliver (index : Nat) (applyDdl : SchemaMigration → Option String)
  | lose (index : Nat)
  /-- The hub goes on with a reply. -/
  | answered
  /-- The hub goes on without one: the node is not found, or the request failed. -/
  | failed
  | report

namespace Rollout

variable {C : Type}

/-- No migration, no cluster and no node. -/
def start : Rollout C := ⟨[], ∅, fun _ => none, [], 0, none, []⟩

/-- `schema_version` of the hub's host. -/
def schemaVersion (migrations : List SchemaMigration) : Int :=
  match migrations.getLast? with
  | some migration => migration.version
  | none => 0

/-- A request reaches its node. -/
def deliver (s : Rollout C) (index : Nat) (applyDdl : SchemaMigration → Option String) :
    Option (Rollout C) := do
  let request ← s.inFlight[index]?
  let member ← s.nodes request.dhtName
  let (node, reply) := member.node.handle ⟨request.sync, applyDdl⟩
  return { s with
    nodes := fun dhtName => if dhtName = request.dhtName then
      some { member with node } else s.nodes dhtName
    inFlight := s.inFlight.eraseIdx index
    broadcast := s.broadcast.map fun broadcast => broadcast.receive request.id reply }

/-- One step of a rollout. -/
def step [DecidableEq C] (s : Rollout C) : RolloutAction C → Option (Rollout C)
  | .publish migration =>
    if ∀ earlier ∈ s.migrations, earlier.version < migration.version then
      some { s with migrations := s.migrations ++ [migration] }
    else none
  | .register handle => some { s with clusterRefs := s.clusterRefs.insert handle.clusterId handle }
  | .join dhtName version =>
    match s.nodes dhtName with
    | some _ => none
    | none =>
      some { s with
        nodes := fun name => if name = dhtName then some ⟨version, { version }⟩ else s.nodes name }
  | .syncAll =>
    match s.broadcast with
    | some _ => none
    | none =>
      let clusters := s.clusterRefs.entries.map fun entry => entry.2
      -- The broadcast is fixed here: later registrations and migrations are not part of it.
      let sync := ⟨schemaVersion s.migrations, s.migrations⟩
      some { s with broadcast := some { clusters, sync, pending := clusters } }
  | .ask =>
    match s.broadcast with
    | some ⟨clusters, sync, handle :: pending, none, _, results⟩ => some { s with
        inFlight := s.inFlight ++ [⟨s.nextId, handle.dhtName, sync⟩]
        nextId := s.nextId + 1
        broadcast := some ⟨clusters, sync, pending, some (handle, s.nextId), none, results⟩ }
    | _ => none
  | .deliver index applyDdl => s.deliver index applyDdl
  -- A request can be lost, and then only the failure of its ask goes on.
  | .lose index => some { s with inFlight := s.inFlight.eraseIdx index }
  | .answered => do
    let broadcast ← s.broadcast
    let (handle, _) ← broadcast.asked
    let reply ← broadcast.reply
    return { s with broadcast := some (broadcast.goOn handle reply.success) }
  -- An ask fails whether or not its request was delivered.
  | .failed => do
    let broadcast ← s.broadcast
    let (handle, _) ← broadcast.asked
    return { s with broadcast := some (broadcast.goOn handle false) }
  | .report =>
    match s.broadcast with
    | some ⟨clusters, sync, [], none, _, results⟩ =>
      some { s with broadcast := none, reports := s.reports ++ [⟨clusters, sync, results⟩] }
    | _ => none

end Rollout

/-! ## Agreement -/

section Agreement

variable {C : Type}

/-- A node has applied the migrations above the version that it started on, up to the one that it is
on. -/
structure ClusterNode.Agrees (migrations : List SchemaMigration) (member : ClusterNode) : Prop where
  applied : appliedMigrations member.node.log =
    stretch member.initial member.node.version migrations
  monotone : member.initial ≤ member.node.version
  last : member.node.version = member.initial ∨
    ∃ migration ∈ migrations, migration.version = member.node.version

/-- A cluster has every migration of a message. -/
def IsSynced (nodes : String → Option ClusterNode) (dhtName : String) (sync : SchemaSync) : Prop :=
  ∃ member, nodes dhtName = some member ∧ ∀ migration ∈ sync.migrations,
    migration.version ≤ member.node.version

/-- The clusters that are reported as synchronised are. -/
def TrueResults (nodes : String → Option ClusterNode) (sync : SchemaSync)
    (results : List (ClusterRemoteHandle C × Bool)) : Prop :=
  ∀ handle, (handle, true) ∈ results → IsSynced nodes handle.dhtName sync

/-- What a broadcast has to be like between steps. -/
structure Broadcast.Sound (s : Rollout C) (broadcast : Broadcast C) : Prop where
  clusters : broadcast.clusters = broadcast.results.map Prod.fst ++
    (broadcast.asked.map Prod.fst).toList ++ broadcast.pending
  sent : broadcast.sync.migrations <+: s.migrations
  fresh : ∀ handle id, broadcast.asked = some (handle, id) → id < s.nextId
  request : ∀ handle id, broadcast.asked = some (handle, id) → ∀ request ∈ s.inFlight,
    request.id = id →
    request.dhtName = handle.dhtName ∧ request.sync = broadcast.sync
  reply : ∀ handle id reply, broadcast.asked = some (handle, id) → broadcast.reply = some reply →
    reply.success = true → IsSynced s.nodes handle.dhtName broadcast.sync
  results : TrueResults s.nodes broadcast.sync broadcast.results

/-- What holds between steps. -/
structure RolledOut (s : Rollout C) : Prop where
  increasing : Increasing s.migrations
  requests : ∀ request ∈ s.inFlight, request.id < s.nextId ∧
    request.sync.migrations <+: s.migrations
  nodes : ∀ dhtName member, s.nodes dhtName = some member → member.Agrees s.migrations
  broadcast : ∀ broadcast, s.broadcast = some broadcast → Broadcast.Sound s broadcast
  reports : ∀ report ∈ s.reports, report.results.map Prod.fst = report.clusters ∧
    TrueResults s.nodes report.sync report.results

/-! ## Steps -/

/-- At the start nothing is rolled out. -/
theorem rolledOut_start : RolledOut (Rollout.start : Rollout C) where
  increasing := List.Pairwise.nil
  requests := List.forall_mem_nil _
  nodes _ _ h := nomatch h
  broadcast _ h := nomatch h
  reports := List.forall_mem_nil _

/-- The nodes of one state are there in another, and have not gone back. -/
def Advances (nodes nodes' : String → Option ClusterNode) : Prop :=
  ∀ dhtName member, nodes dhtName = some member →
    ∃ member', nodes' dhtName = some member' ∧ member.node.version ≤ member'.node.version

/-- The nodes advance from themselves. -/
theorem Advances.refl (nodes : String → Option ClusterNode) : Advances nodes nodes :=
  fun _ member h => ⟨member, h, Int.le_refl _⟩

section Steps

variable {s t : Rollout C} {nodes nodes' : String → Option ClusterNode}
  {migrations : List SchemaMigration}

/-- A node that is synced stays so as the nodes advance. -/
theorem IsSynced.mono {dhtName : String} {sync : SchemaSync} (h : IsSynced nodes dhtName sync)
    (hnodes : Advances nodes nodes') : IsSynced nodes' dhtName sync := by
  obtain ⟨member, hmember, hall⟩ := h
  obtain ⟨member', hmember', hle⟩ := hnodes dhtName member hmember
  exact ⟨member', hmember', fun migration hmigration =>
    Int.le_trans (hall migration hmigration) hle⟩

/-- Results that are true stay so as the nodes advance. -/
theorem TrueResults.mono {sync : SchemaSync} {results : List (ClusterRemoteHandle C × Bool)}
    (h : TrueResults nodes sync results) (hnodes : Advances nodes nodes') :
    TrueResults nodes' sync results :=
  fun handle hhandle => (h handle hhandle).mono hnodes

/-- A node handles a part of the hub's migrations. -/
theorem ClusterNode.Agrees.handle {member : ClusterNode} (h : member.Agrees migrations)
    (hincreasing : Increasing migrations) {sync : SchemaSync}
    (hsync : sync.migrations <+: migrations) (applyDdl : SchemaMigration → Option String) :
    ({ member with node := (member.node.handle ⟨sync, applyDdl⟩).1 } : ClusterNode).Agrees
      migrations ∧
      member.node.version ≤ (member.node.handle ⟨sync, applyDdl⟩).1.version ∧
      ((member.node.handle ⟨sync, applyDdl⟩).2.success = true →
        ∀ migration ∈ sync.migrations,
        migration.version ≤ (member.node.handle ⟨sync, applyDdl⟩).1.version) := by
  have hrun :=
    applies_syncMigrations applyDdl member.node.version (hincreasing.sublist hsync.sublist)
  refine ⟨⟨?_, Int.le_trans h.monotone hrun.monotone, ?_⟩, hrun.monotone, hrun.complete⟩
  -- What is applied now continues what was applied before.
  · have hlog : appliedMigrations (member.node.handle ⟨sync, applyDdl⟩).1.log =
      appliedMigrations member.node.log ++
        appliedMigrations (syncMigrations applyDdl member.node.version sync.migrations).events :=
          List.filterMap_append
    refine hlog.trans ?_
    rw [h.applied, hrun.applied, ← stretch_prefix hincreasing hsync hrun.last]
    exact stretch_append_stretch hincreasing h.monotone hrun.monotone
  · show (syncMigrations applyDdl member.node.version sync.migrations).appliedVersion =
      member.initial ∨ ∃ migration ∈ migrations,
        migration.version =
          (syncMigrations applyDdl member.node.version sync.migrations).appliedVersion
    -- The last version is the old one or that of a migration of this message.
    obtain heq | ⟨migration, hmem, heq⟩ := hrun.last
    · rw [heq]
      exact h.last
    · exact .inr ⟨migration, hsync.subset hmem, heq⟩

/-- The hub publishes a migration with a higher version. -/
theorem ClusterNode.Agrees.publish {member : ClusterNode} (h : member.Agrees migrations)
    {migration : SchemaMigration}
    (hnew : ∀ earlier ∈ migrations, earlier.version < migration.version) :
    member.Agrees (migrations ++ [migration]) := by
  refine ⟨?_, h.monotone, h.last.imp_right fun ⟨m, hm, heq⟩ => ⟨m, List.mem_append_left _ hm, heq⟩⟩
  rw [h.applied]
  have hnone : stretch member.initial member.node.version [migration] = [] := by
    refine List.filter_eq_nil_iff.mpr fun other hother hle => ?_
    rw [List.mem_singleton.mp hother, decide_eq_true_eq] at hle
    obtain heq | ⟨m, hm, heq⟩ := h.last
    · omega
    · have := hnew m hm
      omega
  unfold stretch at hnone ⊢
  rw [List.filter_append, hnone, List.append_nil]

/-- A sound broadcast stays so as the rollout goes on. -/
theorem Broadcast.Sound.mono {broadcast : Broadcast C} (h : broadcast.Sound s)
    (hmigrations : s.migrations <+: t.migrations) (hnext : s.nextId ≤ t.nextId)
    (hflight : ∀ request ∈ t.inFlight, request ∈ s.inFlight)
    (hnodes : Advances s.nodes t.nodes) : broadcast.Sound t where
  clusters := h.clusters
  sent := h.sent.trans hmigrations
  fresh handle id hasked := (h.fresh handle id hasked).trans_le hnext
  request handle id hasked request hrequest :=
    h.request handle id hasked request (hflight request hrequest)
  reply handle id reply hasked hreply hsuccess :=
    (h.reply handle id reply hasked hreply hsuccess).mono hnodes
  results := h.results.mono hnodes

/-- A broadcast goes on with a result. -/
theorem Broadcast.Sound.goOn {broadcast : Broadcast C} (h : broadcast.Sound s)
    {handle : ClusterRemoteHandle C}
    {id : Nat} (hasked : broadcast.asked = some (handle, id)) {success : Bool}
    (hsuccess : success = true → IsSynced s.nodes handle.dhtName broadcast.sync) :
    (broadcast.goOn handle success).Sound s where
  clusters := by
    refine h.clusters.trans ?_
    rw [hasked]
    simp [Broadcast.goOn]
  sent := h.sent
  fresh _ _ h := nomatch h
  request _ _ h := nomatch h
  reply _ _ _ h := nomatch h
  results other hother := by
    obtain hold | hnew := List.mem_append.mp hother
    · exact h.results other hold
    · obtain ⟨rfl, hvalue⟩ := Prod.mk.inj (List.mem_singleton.mp hnew)
      exact hsuccess hvalue.symm

/-- A request reaches its node, and its reply the broadcast that waits for it. -/
theorem Broadcast.Sound.receive {broadcast : Broadcast C} (h : broadcast.Sound s)
    {request : Request}
    (hrequest : request ∈ s.inFlight) (hmigrations : s.migrations = t.migrations)
    (hnext : s.nextId = t.nextId)
    (hflight : ∀ request ∈ t.inFlight, request ∈ s.inFlight) (hnodes : Advances s.nodes t.nodes)
    {reply : SchemaSyncReply}
    (hreply : reply.success = true → IsSynced t.nodes request.dhtName request.sync) :
    (broadcast.receive request.id reply).Sound t := by
  have hmono : broadcast.Sound t :=
    h.mono (hmigrations ▸ List.prefix_rfl) (Nat.le_of_eq hnext) hflight hnodes
  unfold Broadcast.receive
  split_ifs with hid
  · refine ⟨hmono.clusters, hmono.sent, hmono.fresh, hmono.request,
      fun handle id other hasked hother hsuccess => ?_,
      hmono.results⟩
    obtain rfl := Option.some.inj hother
    have hasked' : broadcast.asked = some (handle, id) := hasked
    rw [hasked', Option.any_some, decide_eq_true_eq] at hid
    obtain ⟨hname, hsync⟩ := h.request handle id hasked' request hrequest hid.symm
    have hsynced := hreply hsuccess
    rwa [hname, hsync] at hsynced
  · exact hmono

/-- Delivering a request keeps the rollout's invariant. -/
theorem RolledOut.deliver (hs : RolledOut s) {index : Nat}
    {applyDdl : SchemaMigration → Option String}
    (h : s.deliver index applyDdl = some t) : RolledOut t := by
  obtain ⟨request, hrequest, h⟩ := Option.bind_eq_some_iff.mp h
  obtain ⟨member, hmember, h⟩ := Option.bind_eq_some_iff.mp h
  obtain rfl := Option.some.inj h
  have hmem := List.mem_of_getElem? hrequest
  have hsync := (hs.requests request hmem).2
  -- The node handles a stretch of the host's migrations, which leaves it on one.
  obtain ⟨hagrees, hle, hcomplete⟩ :=
    (hs.nodes _ member hmember).handle hs.increasing hsync applyDdl
  -- Only the node that the request is for moves, and it moves forward.
  have hnodes : Advances s.nodes fun dhtName => if dhtName = request.dhtName then
      some { member with node := (member.node.handle ⟨request.sync, applyDdl⟩).1 }
          else s.nodes dhtName := by
    intro dhtName other hother
    by_cases heq : dhtName = request.dhtName
    · subst heq
      obtain rfl := Option.some.inj (hmember.symm.trans hother)
      exact ⟨_, if_pos rfl, hle⟩
    · exact ⟨other, (if_neg heq).trans hother, Int.le_refl _⟩
  refine ⟨hs.increasing, fun other hother => hs.requests other (List.mem_of_mem_eraseIdx hother),
    fun dhtName other hother => ?_, fun broadcast hbroadcast => ?_, fun report hreport =>
      ⟨(hs.reports report hreport).1, (hs.reports report hreport).2.mono hnodes⟩⟩
  · dsimp only at hother
    split_ifs at hother with heq
    · obtain rfl := Option.some.inj hother
      exact hagrees
    · exact hs.nodes dhtName other hother
  · obtain ⟨before, hbefore, rfl⟩ := Option.map_eq_some_iff.mp hbroadcast
    -- A reply of success says that the node is complete.
    refine (hs.broadcast before hbefore).receive hmem ?_ ?_ ?_ hnodes fun hsuccess => ?_
    · rfl
    · rfl
    · exact fun other => List.mem_of_mem_eraseIdx
    · exact ⟨_, if_pos rfl, hcomplete hsuccess⟩

/-- A step keeps the rollout's invariant. -/
theorem RolledOut.step [DecidableEq C] (hs : RolledOut s) {action : RolloutAction C}
    (h : s.step action = some t) :
    RolledOut t := by
  have hrefl := Advances.refl s.nodes
  cases action with
  | publish migration =>
    dsimp only [Rollout.step] at h
    split_ifs at h with hnew
    obtain rfl := Option.some.inj h
    have hstart : s.migrations <+: s.migrations ++ [migration] := List.prefix_append _ _
    refine ⟨?_, fun request hrequest => ?_,
      fun dhtName member hmember => (hs.nodes dhtName member hmember).publish hnew,
      fun broadcast hbroadcast => ?_, hs.reports⟩
    · refine List.pairwise_append.mpr ⟨hs.increasing, List.pairwise_singleton _ _, ?_⟩
      intro earlier hearlier later hlater
      rw [List.mem_singleton.mp hlater]
      exact hnew earlier hearlier
    · exact ⟨(hs.requests request hrequest).1, (hs.requests request hrequest).2.trans hstart⟩
    · exact (hs.broadcast broadcast hbroadcast).mono hstart (Nat.le_refl _) (fun _ h => h) hrefl
  | register handle =>
    obtain rfl := Option.some.inj h
    exact ⟨hs.increasing, hs.requests, hs.nodes,
      fun broadcast hbroadcast => (hs.broadcast broadcast hbroadcast).mono
      List.prefix_rfl (Nat.le_refl _) (fun _ h => h) hrefl, hs.reports⟩
  | join dhtName version =>
    dsimp only [Rollout.step] at h
    split at h
    · cases h
    · rename_i hnone
      obtain rfl := Option.some.inj h
      have hnodes : Advances s.nodes fun name =>
          if name = dhtName then some ⟨version, { version }⟩ else s.nodes name := by
        intro name member hmember
        refine ⟨member, (if_neg ?_).trans hmember, Int.le_refl _⟩
        rintro rfl
        rw [hnone] at hmember
        cases hmember
      refine ⟨hs.increasing, hs.requests, fun name member hmember => ?_,
        fun broadcast hbroadcast => ?_,
        fun report hreport =>
          ⟨(hs.reports report hreport).1, (hs.reports report hreport).2.mono hnodes⟩⟩
      · dsimp only at hmember
        split_ifs at hmember with heq
        · obtain rfl := Option.some.inj hmember
          exact ⟨stretch_self.symm, Int.le_refl _, .inl rfl⟩
        · exact hs.nodes name member hmember
      · exact (hs.broadcast broadcast hbroadcast).mono List.prefix_rfl (Nat.le_refl _)
          (fun _ h => h) hnodes
  | syncAll =>
    dsimp only [Rollout.step] at h
    split at h
    · cases h
    · obtain rfl := Option.some.inj h
      refine ⟨hs.increasing, hs.requests, hs.nodes, fun broadcast hbroadcast => ?_, hs.reports⟩
      obtain rfl := Option.some.inj hbroadcast
      exact ⟨rfl, List.prefix_rfl, nofun, nofun, nofun, fun handle hhandle => by cases hhandle⟩
  | ask =>
    dsimp only [Rollout.step] at h
    split at h
    · rename_i clusters sync handle pending reply results hbefore
      obtain rfl := Option.some.inj h
      have hsound := hs.broadcast _ hbefore
      refine ⟨hs.increasing, fun request hrequest => ?_, hs.nodes,
        fun broadcast hbroadcast => ?_, hs.reports⟩
      · obtain hold | hnew := List.mem_append.mp hrequest
        · exact ⟨(hs.requests request hold).1.trans (Nat.lt_succ_self _),
            (hs.requests request hold).2⟩
        · rw [List.mem_singleton.mp hnew]
          exact ⟨Nat.lt_succ_self _, hsound.sent⟩
      · obtain rfl := Option.some.inj hbroadcast
        refine ⟨hsound.clusters.trans (by simp), hsound.sent, fun _ _ hasked => ?_,
          fun _ _ hasked request hrequest hid => ?_, nofun, hsound.results⟩
        · cases hasked
          exact Nat.lt_succ_self _
        · cases hasked
          obtain hold | hnew := List.mem_append.mp hrequest
          · -- the identifiers of earlier requests are lower
            exact absurd hid (Nat.ne_of_lt (hs.requests request hold).1)
          · rw [List.mem_singleton.mp hnew]
            exact ⟨rfl, rfl⟩
    · cases h
  | deliver index applyDdl => exact hs.deliver h
  | lose index =>
    obtain rfl := Option.some.inj h
    exact ⟨hs.increasing, fun request hrequest =>
      hs.requests request (List.mem_of_mem_eraseIdx hrequest), hs.nodes,
      fun broadcast hbroadcast =>
        (hs.broadcast broadcast hbroadcast).mono List.prefix_rfl (Nat.le_refl _)
        (fun _ => List.mem_of_mem_eraseIdx) hrefl, hs.reports⟩
  | answered =>
    obtain ⟨broadcast, hbroadcast, h⟩ := Option.bind_eq_some_iff.mp h
    obtain ⟨⟨handle, id⟩, hasked, h⟩ := Option.bind_eq_some_iff.mp h
    obtain ⟨reply, hreply, h⟩ := Option.bind_eq_some_iff.mp h
    obtain rfl := Option.some.inj h
    have hsound := hs.broadcast broadcast hbroadcast
    refine ⟨hs.increasing, hs.requests, hs.nodes, fun other hother => ?_, hs.reports⟩
    obtain rfl := Option.some.inj hother
    have hgone := hsound.goOn hasked (hsound.reply handle id reply hasked hreply)
    exact hgone.mono List.prefix_rfl (Nat.le_refl _) (fun _ h => h) hrefl
  | failed =>
    obtain ⟨broadcast, hbroadcast, h⟩ := Option.bind_eq_some_iff.mp h
    obtain ⟨⟨handle, id⟩, hasked, h⟩ := Option.bind_eq_some_iff.mp h
    obtain rfl := Option.some.inj h
    refine ⟨hs.increasing, hs.requests, hs.nodes, fun other hother => ?_, hs.reports⟩
    obtain rfl := Option.some.inj hother
    have hgone : (broadcast.goOn handle false).Sound s :=
      (hs.broadcast broadcast hbroadcast).goOn hasked nofun
    exact hgone.mono List.prefix_rfl (Nat.le_refl _) (fun _ h => h) hrefl
  | report =>
    dsimp only [Rollout.step] at h
    split at h
    · rename_i clusters sync reply results hbefore
      obtain rfl := Option.some.inj h
      have hsound := hs.broadcast _ hbefore
      refine ⟨hs.increasing, hs.requests, hs.nodes, nofun, fun report hreport => ?_⟩
      obtain hold | hnew := List.mem_append.mp hreport
      · exact hs.reports report hold
      · rw [List.mem_singleton.mp hnew]
        exact ⟨by simpa using hsound.clusters.symm, hsound.results⟩
    · cases h

end Steps

/-- However the hub publishes, asks and reports, and whatever the transport loses, delays or
answers. -/
theorem rolledOut_run [DecidableEq C] {actions : List (RolloutAction C)} {s : Rollout C}
    (h : run Rollout.step Rollout.start actions = some s) : RolledOut s :=
  run_preserves (fun _ _ _ hs hstep => hs.step hstep) rolledOut_start h

end Agreement

/-! A broadcast gives up its request to one of two nodes, which gets it when the hub has published
another migration. -/

namespace TwoNodes

/-- A cluster's handle under its name. -/
def handle (clusterId : Nat) (name : String) : ClusterRemoteHandle Nat :=
  ⟨clusterId, name, "cluster:" ++ name, none, false⟩

/-- Two nodes, one of which does not answer, and one migration. -/
def actions : List (RolloutAction Nat) := [
  .publish (createMigration 1),
  .register (handle 1 "a"),
  .register (handle 2 "b"),
  .join "cluster:a" 0,
  .join "cluster:b" 0,
  .syncAll,
  .ask,
  .deliver 0 fun _ => none,
  .answered,
  .ask,
  .failed,
  .report,
  .publish (createMigration 2),
  .deliver 0 fun _ => none]

end TwoNodes

open TwoNodes in
/-- The run reports the node that applied the migration and the one that did not. -/
theorem rolledOut_twoNodes : ∃ s, run Rollout.step Rollout.start actions = some s ∧
    s.reports.map (fun report => report.results.map Prod.snd) = [[true, false]] ∧
    (s.nodes "cluster:a").map (fun member => member.node.version) = some 1 ∧ RolledOut s :=
  have hrun : run Rollout.step Rollout.start actions = some _ := rfl
  ⟨_, hrun, rfl, rfl, rolledOut_run hrun⟩

end QueryFabric.Federation
