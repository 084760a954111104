import QueryFabric.Dialect.Helpers
import Mathlib.Data.Int.Basic
import Mathlib.Data.List.Basic

/-!
# Schema migrations

`apply_schema_sync` of `crates/queryfabric-federation/src/schema.rs` and the node that handles
`SchemaSync` messages. What the host's `apply_ddl` answers is part of a message: the loop hands it
no migration twice, since it goes on with higher versions only, so that its answers are a function
of the migration.

Over any messages a node applies versions in strictly increasing order and ends each on the last of
them (`inOrder_handleAll`). The target version of a message is never read, and a list out of order
is skipped in part, so that a success may leave a node behind its hub (`converges_iff`).
-/

namespace QueryFabric.Federation

/-- `SchemaMigration`. -/
structure SchemaMigration where
  version : Int
  name : String
  sql : String
deriving DecidableEq, Repr

/-- `SchemaSync`. -/
structure SchemaSync where
  targetVersion : Int
  migrations : List SchemaMigration
deriving DecidableEq, Repr

/-- `SchemaSyncReply`. -/
structure SchemaSyncReply where
  success : Bool
  appliedVersion : Int
  errors : List String
deriving DecidableEq, Repr

/-- `ddl_allowed`. -/
def ddlAllowed (sql : String) : Bool :=
  let upper := Dialect.toAsciiUppercase (Dialect.trimStart sql.toList)
  "CREATE ".toList.isPrefixOf upper || "ALTER ".toList.isPrefixOf upper

/-- What the loop does with a migration. -/
inductive SyncEvent
  | skipped (migration : SchemaMigration)
  | rejected (migration : SchemaMigration)
  | applied (migration : SchemaMigration)
  | failed (migration : SchemaMigration) (error : String)
deriving DecidableEq, Repr

namespace SyncEvent

/-- The migration that an event is about. -/
def migration : SyncEvent → SchemaMigration
  | .skipped migration | .rejected migration | .applied migration | .failed migration _ => migration

/-- The version of a migration that was applied. -/
def appliedVersion? : SyncEvent → Option Int
  | .applied migration => some migration.version
  | .skipped _ | .rejected _ | .failed .. => none

/-- The migration that the host was handed. -/
def handed? : SyncEvent → Option SchemaMigration
  | .applied migration | .failed migration _ => some migration
  | .skipped _ | .rejected _ => none

/-- Whether a migration was rejected or failed. -/
def isError : SyncEvent → Bool
  | .rejected _ | .failed .. => true
  | .skipped _ | .applied _ => false

end SyncEvent

/-- The versions that were applied. -/
def appliedVersions (events : List SyncEvent) : List Int :=
  events.filterMap SyncEvent.appliedVersion?

/-- The migrations that the host was handed. -/
def handedMigrations (events : List SyncEvent) : List SchemaMigration :=
  events.filterMap SyncEvent.handed?

/-- What the loop comes to, with a log of what it did. -/
structure SyncRun where
  appliedVersion : Int
  errors : List String
  events : List SyncEvent
deriving DecidableEq, Repr

/-- A run after one more event at its start. -/
def SyncRun.after (run : SyncRun) (event : SyncEvent) : SyncRun :=
  { run with events := event :: run.events }

section Apply

variable (applyDdl : SchemaMigration → Option String)

/-- The loop of `apply_schema_sync`, from the version applied so far. -/
def syncMigrations : Int → List SchemaMigration → SyncRun
  | appliedVersion, [] => ⟨appliedVersion, [], []⟩
  | appliedVersion, migration :: migrations =>
    if migration.version ≤ appliedVersion then
      (syncMigrations appliedVersion migrations).after (.skipped migration)
    else if !ddlAllowed migration.sql then
      let message := "Migration v" ++ toString migration.version ++ " '" ++ migration.name ++
        "' rejected: only CREATE/ALTER DDL is allowed"
      ⟨appliedVersion, [message], [.rejected migration]⟩
    else
      match applyDdl migration with
      | none => (syncMigrations migration.version migrations).after (.applied migration)
      | some error =>
        let message := "Migration v" ++ toString migration.version ++ " '" ++ migration.name ++
          "' failed: " ++ error
        ⟨appliedVersion, [message], [.failed migration error]⟩

/-- The reply of `apply_schema_sync`, with the version that it stores and the log of its loop. -/
def applySchemaSync (version : Int) (sync : SchemaSync) : SchemaSyncReply × Int × List SyncEvent :=
  let run := syncMigrations applyDdl version sync.migrations
  ({ success := run.errors.isEmpty, appliedVersion := run.appliedVersion, errors := run.errors },
    run.appliedVersion, run.events)

end Apply

/-! ## One message -/

/-- The last entry of two lists put together. -/
theorem getLastD_append {α : Type} (xs ys : List α) (a : α) :
    (xs ++ ys).getLastD a = ys.getLastD (xs.getLastD a) := by
  rw [List.getLastD_eq_getLast?, List.getLastD_eq_getLast?, List.getLastD_eq_getLast?,
    List.getLast?_append]
  cases ys.getLast? <;> rfl

/-- The last of increasing versions is the highest. -/
theorem le_getLastD : ∀ {versions : List Int} {first : Int}, (first :: versions).Pairwise (· < ·) →
    ∀ version ∈ first :: versions, version ≤ versions.getLastD first
  | [], first, _, version, hmem => Int.le_of_eq (List.mem_singleton.mp hmem)
  | second :: versions, first, h, version, hmem => by
    obtain ⟨hfirst, hrest⟩ := List.pairwise_cons.mp h
    have hlast : (second :: versions).getLastD first = versions.getLastD second :=
      getLastD_append [second] versions first
    rw [hlast]
    obtain rfl | hmem := List.mem_cons.mp hmem
    · have hlt := hfirst second List.mem_cons_self
      exact Int.le_trans (Int.le_of_lt hlt) (le_getLastD hrest second List.mem_cons_self)
    · exact le_getLastD hrest version hmem

/-- What the loop does with a list of migrations from a version. -/
structure SyncRun.InOrder (run : SyncRun) (version : Int)
    (migrations : List SchemaMigration) : Prop where
  increasing : (version :: appliedVersions run.events).Pairwise (· < ·)
  last : run.appliedVersion = (appliedVersions run.events).getLastD version
  stops : ∀ (before : List SyncEvent) (event : SyncEvent) (after : List SyncEvent),
    run.events = before ++ event :: after → event.isError = true → after = []
  order : run.events.map SyncEvent.migration <+: migrations
  success : run.errors.isEmpty = true ↔ ∀ event ∈ run.events, event.isError = false

/-- A run that ends with an error at its first migration. -/
theorem SyncRun.inOrder_error {version : Int} {migration : SchemaMigration}
    {migrations : List SchemaMigration}
    {event : SyncEvent} {message : String} (hmigration : event.migration = migration)
    (herror : event.isError = true) (happlied : event.appliedVersion? = none) :
    SyncRun.InOrder ⟨version, [message], [event]⟩ version (migration :: migrations) where
  increasing := by
    rw [appliedVersions, List.filterMap_cons, happlied]
    exact List.pairwise_singleton _ _
  last := by
    rw [appliedVersions, List.filterMap_cons, happlied]
    rfl
  stops before other after heq _ := by
    have hlength := congrArg List.length heq
    rw [List.length_singleton, List.length_append, List.length_cons] at hlength
    exact List.eq_nil_of_length_eq_zero (by omega)
  order := ⟨migrations, by rw [← hmigration]; rfl⟩
  success := by
    refine iff_of_false Bool.false_ne_true fun h => ?_
    rw [h event List.mem_cons_self] at herror
    cases herror

/-- A run after an event that is no error. -/
theorem SyncRun.InOrder.after {run : SyncRun} {event : SyncEvent} {version next : Int}
    {migrations : List SchemaMigration}
    (h : run.InOrder next migrations) (herror : event.isError = false)
    (hnext : (event.appliedVersion? = none ∧ next = version) ∨
      (event.appliedVersion? = some next ∧ version < next)) :
    (run.after event).InOrder version (event.migration :: migrations) where
  -- An event that applies a migration moves the version, and any other leaves it.
  increasing := by
    show (version :: List.filterMap _ (event :: run.events)).Pairwise (· < ·)
    obtain ⟨hnone, rfl⟩ | ⟨hsome, hlt⟩ := hnext
    · rw [List.filterMap_cons, hnone]
      exact h.increasing
    · rw [List.filterMap_cons, hsome]
      refine .cons (List.forall_mem_cons.mpr ⟨hlt, fun later hlater => ?_⟩) h.increasing
      exact Int.lt_trans hlt ((List.pairwise_cons.mp h.increasing).1 later hlater)
  last := by
    show run.appliedVersion = (List.filterMap _ (event :: run.events)).getLastD version
    rw [h.last]
    obtain ⟨hnone, rfl⟩ | ⟨hsome, hlt⟩ := hnext
    · rw [List.filterMap_cons, hnone]
      rfl
    · rw [List.filterMap_cons, hsome]
      exact (getLastD_append [next] (appliedVersions run.events) version).symm
  -- An error ends the loop, so the first event is none.
  stops before other after heq hother := by
    cases before with
    | nil =>
      cases heq
      rw [herror] at hother
      cases hother
    | cons first before => exact h.stops before other after (List.cons.inj heq).2 hother
  order := List.prefix_cons_inj _ |>.mpr h.order
  success := by
    rw [show (run.after event).errors = run.errors from rfl, h.success]
    exact ⟨fun hrun => List.forall_mem_cons.mpr ⟨herror, hrun⟩,
      fun hrun => (List.forall_mem_cons.mp hrun).2⟩

/-- The loop takes the migrations above the version in their order. -/
theorem inOrder_syncMigrations (applyDdl : SchemaMigration → Option String) :
    ∀ (migrations : List SchemaMigration)
    (version : Int), (syncMigrations applyDdl version migrations).InOrder version migrations
  | [], version => by
    refine ⟨List.pairwise_singleton _ _, rfl, fun before event after heq _ => ?_,
      List.nil_prefix, ?_⟩
    · simp [syncMigrations] at heq
    · exact iff_of_true rfl (List.forall_mem_nil _)
  | migration :: migrations, version => by
    unfold syncMigrations
    split_ifs with hold hrejected
    · exact (inOrder_syncMigrations applyDdl migrations version).after rfl (.inl ⟨rfl, rfl⟩)
    · exact SyncRun.inOrder_error rfl rfl rfl
    · split
      · exact (inOrder_syncMigrations applyDdl migrations migration.version).after
          rfl (.inr ⟨rfl, Int.not_le.mp hold⟩)
      · exact SyncRun.inOrder_error rfl rfl rfl

/-! ## A node -/

/-- A `SchemaSync` message with the answers of the host. -/
structure SyncMessage where
  sync : SchemaSync
  applyDdl : SchemaMigration → Option String

/-- The schema version of a node, with a log of what its messages did. -/
structure SchemaNode where
  version : Int
  log : List SyncEvent := []

namespace SchemaNode

/-- The handler of `SchemaSync`. -/
def handle (node : SchemaNode) (message : SyncMessage) : SchemaNode × SchemaSyncReply :=
  let (reply, version, events) := applySchemaSync message.applyDdl node.version message.sync
  ({ version, log := node.log ++ events }, reply)

/-- A node after some messages. -/
def handleAll (node : SchemaNode) (messages : List SyncMessage) : SchemaNode :=
  messages.foldl (fun node message => (node.handle message).1) node

/-- What a node does with a message: it does not go back, replies with the version that it ends on,
takes the migrations in their order, does nothing after an error, and reports success just when
there was none. -/
structure Handles (node : SchemaNode) (message : SyncMessage) (events : List SyncEvent) : Prop where
  log : (node.handle message).1.log = node.log ++ events
  monotone : node.version ≤ (node.handle message).1.version
  reply : (node.handle message).2.appliedVersion = (node.handle message).1.version
  order : events.map SyncEvent.migration <+: message.sync.migrations
  stops : ∀ (before : List SyncEvent) (event : SyncEvent) (after : List SyncEvent),
    events = before ++ event :: after → event.isError = true → after = []
  success : (node.handle message).2.success = true ↔ ∀ event ∈ events, event.isError = false

/-- A node applies versions in strictly increasing order, above the one it started on, and is on the
last of them. -/
structure InOrder (initial : Int) (node : SchemaNode) : Prop where
  increasing : (initial :: appliedVersions node.log).Pairwise (· < ·)
  version : node.version = (appliedVersions node.log).getLastD initial
  handles : ∀ message, ∃ events, node.Handles message events

/-- What the loop's events say of each migration of the message. -/
theorem handles_syncMigrations (node : SchemaNode) (message : SyncMessage) :
    node.Handles message
      (syncMigrations message.applyDdl node.version message.sync.migrations).events := by
  have h := inOrder_syncMigrations message.applyDdl message.sync.migrations node.version
  refine ⟨rfl, ?_, rfl, h.order, h.stops, h.success⟩
  show node.version ≤
    (syncMigrations message.applyDdl node.version message.sync.migrations).appliedVersion
  rw [h.last]
  -- The last version is the node's own or a later one.
  obtain heq | hmem := List.mem_cons.mp (List.getLastD_mem_cons)
  · exact Int.le_of_eq heq.symm
  · exact Int.le_of_lt ((List.pairwise_cons.mp h.increasing).1 _ hmem)

/-- Handling a message keeps the node's events in order. -/
theorem InOrder.handle {initial : Int} {node : SchemaNode} (h : InOrder initial node)
    (message : SyncMessage) :
    InOrder initial (node.handle message).1 := by
  have hrun := inOrder_syncMigrations message.applyDdl message.sync.migrations node.version
  have hlog : appliedVersions (node.handle message).1.log = appliedVersions node.log ++
      appliedVersions
        (syncMigrations message.applyDdl node.version message.sync.migrations).events :=
    List.filterMap_append
  refine ⟨?_, ?_, fun message => ⟨_, handles_syncMigrations _ message⟩⟩
  · rw [hlog, ← List.cons_append]
    obtain ⟨hnew, hevents⟩ := List.pairwise_cons.mp hrun.increasing
    refine List.pairwise_append.mpr ⟨h.increasing, hevents, fun old hold new hmem => ?_⟩
    -- What was applied before is at most the version of the node, and what is applied now is above
    -- it.
    have hle : old ≤ node.version := by
      rw [h.version]
      exact le_getLastD h.increasing old hold
    exact Int.lt_of_le_of_lt hle (hnew new hmem)
  · rw [hlog, getLastD_append, ← h.version]
    exact hrun.last

/-- After any messages a node has applied its migrations once each and in order, and handles the
next message so. -/
theorem inOrder_handleAll (initial : Int) (messages : List SyncMessage) :
    InOrder initial (handleAll { version := initial } messages) := by
  have hstart : InOrder initial { version := initial } :=
    ⟨List.pairwise_singleton _ _, rfl, fun message => ⟨_, handles_syncMigrations _ message⟩⟩
  generalize ({ version := initial } : SchemaNode) = node at hstart
  induction messages generalizing node with
  | nil => exact hstart
  | cons message messages ih => exact ih _ (hstart.handle message)

end SchemaNode

/-! ## Convergence -/

/-- The migrations whose version is above the given one and above those of all migrations before
them. -/
def records : Int → List SchemaMigration → List SchemaMigration
  | _, [] => []
  | version, migration :: migrations =>
    if migration.version ≤ version then records version migrations
    else migration :: records migration.version migrations

/-- A message takes its node to the target version and through all migrations above its version. -/
def Converged (applyDdl : SchemaMigration → Option String) (version : Int)
    (sync : SchemaSync) : Prop :=
  (∀ migration ∈ sync.migrations, version < migration.version →
    .applied migration ∈ (applySchemaSync applyDdl version sync).2.2) ∧
  sync.targetVersion ≤ (applySchemaSync applyDdl version sync).2.1

/-- Pending migrations, repetitions left out, come in the order of their versions. -/
def InVersionOrder (version : Int) (migrations : List SchemaMigration) : Prop :=
  ∀ (before : List SchemaMigration) (migration : SchemaMigration) (after : List SchemaMigration),
    migrations = before ++ migration :: after → version < migration.version →
    migration ∈ before ∨ ∀ earlier ∈ before, earlier.version < migration.version

/-- A migration that the host applies. -/
def Accepted (applyDdl : SchemaMigration → Option String) (migration : SchemaMigration) : Prop :=
  ddlAllowed migration.sql = true ∧ applyDdl migration = none

/-- A record is one of the migrations and above the version. -/
theorem lt_of_mem_records :
    ∀ {migrations : List SchemaMigration} {version : Int} {migration : SchemaMigration},
    migration ∈ records version migrations → migration ∈ migrations ∧ version < migration.version
  | [], _, _, h => by cases h
  | first :: migrations, version, migration, h => by
    unfold records at h
    split_ifs at h with hold
    · obtain ⟨hmem, hlt⟩ := lt_of_mem_records h
      exact ⟨List.mem_cons_of_mem _ hmem, hlt⟩
    · obtain rfl | h := List.mem_cons.mp h
      · exact ⟨List.mem_cons_self, Int.not_le.mp hold⟩
      · obtain ⟨hmem, hlt⟩ := lt_of_mem_records h
        exact ⟨List.mem_cons_of_mem _ hmem, Int.lt_trans (Int.not_le.mp hold) hlt⟩

/-- Migrations are in version order where the first is and the rest are from there. -/
theorem inVersionOrder_cons {version : Int} {first : SchemaMigration}
    {migrations : List SchemaMigration} :
    InVersionOrder version (first :: migrations) ↔
      ∀ (before : List SchemaMigration) (migration : SchemaMigration)
        (after : List SchemaMigration), migrations = before ++ migration :: after →
        version < migration.version →
        migration ∈ first :: before ∨ ∀ earlier ∈ first :: before,
        earlier.version < migration.version := by
  constructor
  · intro h before migration after heq hpending
    exact h (first :: before) migration after (by rw [heq, List.cons_append]) hpending
  · intro h before migration after heq hpending
    cases before with
    | nil => exact .inr (List.forall_mem_nil _)
    | cons earlier before =>
      cases heq
      exact h before migration after rfl hpending

/-- All pending migrations are records just when they are in the order of their versions. -/
theorem pending_records_iff : ∀ (migrations : List SchemaMigration) (version : Int),
    (∀ migration ∈ migrations, version < migration.version →
      migration ∈ records version migrations) ↔
      InVersionOrder version migrations
  | [], version => by
    refine iff_of_true (List.forall_mem_nil _) fun before migration after heq => ?_
    simp at heq
  | first :: migrations, version => by
    rw [inVersionOrder_cons]
    unfold records
    split_ifs with hold
    · rw [List.forall_mem_cons, pending_records_iff migrations version]
      constructor
      · rintro ⟨-, h⟩ before migration after heq hpending
        obtain hmem | hall := h before migration after heq hpending
        · exact .inl (List.mem_cons_of_mem _ hmem)
        · exact .inr (List.forall_mem_cons.mpr ⟨by omega, hall⟩)
      · refine fun h => ⟨fun hpending => by omega, fun before migration after heq hpending => ?_⟩
        obtain hmem | hall := h before migration after heq hpending
        · obtain rfl | hmem := List.mem_cons.mp hmem
          · omega
          · exact .inl hmem
        · exact .inr (List.forall_mem_cons.mp hall).2
    · have ih := pending_records_iff migrations first.version
      constructor
      · intro h before migration after heq hpending
        -- The migrations above the first one are records among the rest.
        have hrest : ∀ later ∈ migrations, first.version < later.version →
            later ∈ records first.version migrations := by
          intro later hlater hlt
          obtain rfl | hmem := List.mem_cons.mp (h later (List.mem_cons_of_mem _ hlater) (by omega))
          · omega
          · exact hmem
        have hin : migration ∈ migrations := by
          rw [heq]
          exact List.mem_append_right _ List.mem_cons_self
        obtain rfl | hmem := List.mem_cons.mp (h migration (List.mem_cons_of_mem _ hin) hpending)
        · exact .inl List.mem_cons_self
        · have hlt := (lt_of_mem_records hmem).2
          obtain hbefore | hall := ih.mp hrest before migration after heq hlt
          · exact .inl (List.mem_cons_of_mem _ hbefore)
          · exact .inr (List.forall_mem_cons.mpr ⟨hlt, hall⟩)
      · intro h migration hmem hpending
        have horder : InVersionOrder first.version migrations := by
          intro before later after heq hlt
          obtain hbefore | hall := h before later after heq (by omega)
          · obtain rfl | hbefore := List.mem_cons.mp hbefore
            · omega
            · exact .inl hbefore
          · exact .inr (List.forall_mem_cons.mp hall).2
        obtain rfl | hin := List.mem_cons.mp hmem
        · exact List.mem_cons_self
        · -- Where it stands first, a migration is above those before it, or is the first one.
          obtain ⟨before, after, heq, hnew⟩ := List.eq_append_cons_of_mem hin
          obtain hbefore | hall := h before migration after heq hpending
          · obtain rfl | hbefore := List.mem_cons.mp hbefore
            · exact List.mem_cons_self
            · exact absurd hbefore hnew
          · have hlt := (List.forall_mem_cons.mp hall).1
            exact List.mem_cons_of_mem _ (ih.mpr horder migration hin hlt)

/-- The highest version of the migrations is that of the last record. -/
theorem le_last_record_iff (target : Int) : ∀ (migrations : List SchemaMigration) (version : Int),
    target ≤ ((records version migrations).map SchemaMigration.version).getLastD version ↔
      target ≤ version ∨ ∃ migration ∈ migrations, target ≤ migration.version
  | [], version => by simp [records]
  | first :: migrations, version => by
    unfold records
    -- A migration that is not newer is skipped, and cannot reach the target alone.
    split_ifs with hold
    · rw [le_last_record_iff target migrations version, List.exists_mem_cons_iff]
      constructor
      · rintro (h | h)
        · exact .inl h
        · exact .inr (.inr h)
      · rintro (h | h | h)
        · exact .inl h
        · exact .inl (by omega)
        · exact .inr h
    -- A newer one is the version from here on.
    · have hlast : (((first :: records first.version migrations).map
        SchemaMigration.version).getLastD version) =
          ((records first.version migrations).map SchemaMigration.version).getLastD first.version :=
        getLastD_append [first.version] _ version
      rw [hlast, le_last_record_iff target migrations first.version, List.exists_mem_cons_iff]
      constructor
      · rintro (h | h)
        · exact .inr (.inl h)
        · exact .inr (.inr h)
      · rintro (h | h | h)
        · exact .inl (by omega)
        · exact .inl h
        · exact .inr h

section Clean

variable {applyDdl : SchemaMigration → Option String}

/-- The loop reports no error just when the host applies all records. -/
theorem syncMigrations_errors_iff : ∀ (migrations : List SchemaMigration) (version : Int),
    (syncMigrations applyDdl version migrations).errors.isEmpty = true ↔
      ∀ migration ∈ records version migrations, Accepted applyDdl migration
  | [], version => iff_of_true rfl (List.forall_mem_nil _)
  | first :: migrations, version => by
    unfold syncMigrations records
    -- Skipped, rejected, or handed to the host, who may fail.
    split_ifs with hold hrejected
    · exact syncMigrations_errors_iff migrations version
    · refine iff_of_false Bool.false_ne_true fun h => ?_
      rw [(List.forall_mem_cons.mp h).1.1] at hrejected
      cases hrejected
    · rw [List.forall_mem_cons]
      rw [Bool.not_eq_true', Bool.not_eq_false] at hrejected
      cases happly : applyDdl first with
      | none =>
        have haccepted : Accepted applyDdl first := ⟨hrejected, happly⟩
        rw [and_iff_right haccepted]
        exact syncMigrations_errors_iff migrations first.version
      | some error =>
        refine iff_of_false Bool.false_ne_true fun h => ?_
        have hnone := h.1.2
        rw [happly] at hnone
        cases hnone

/-- Then it applies the records and no others. -/
theorem syncMigrations_of_accepted : ∀ {migrations : List SchemaMigration} {version : Int},
    (∀ migration ∈ records version migrations, Accepted applyDdl migration) →
      (syncMigrations applyDdl version migrations).appliedVersion =
        ((records version migrations).map SchemaMigration.version).getLastD version ∧
      ∀ migration, .applied migration ∈ (syncMigrations applyDdl version migrations).events ↔
        migration ∈ records version migrations
  | [], version, _ => ⟨rfl, fun migration => by simp [syncMigrations, records]⟩
  | first :: migrations, version, h => by
    unfold records at h ⊢
    unfold syncMigrations
    -- Skipped, rejected, or applied.
    split_ifs at h ⊢ with hold hrejected
    · obtain ⟨hversion, hevents⟩ := syncMigrations_of_accepted h
      refine ⟨hversion, fun migration => ?_⟩
      rw [← hevents]
      simp [SyncRun.after]
    · rw [(List.forall_mem_cons.mp h).1.1] at hrejected
      cases hrejected
    · obtain ⟨⟨hallowed, happly⟩, hrest⟩ := List.forall_mem_cons.mp h
      obtain ⟨hversion, hevents⟩ := syncMigrations_of_accepted hrest
      rw [happly]
      refine ⟨?_, fun migration => ?_⟩
      · rw [List.map_cons]
        exact hversion.trans (getLastD_append [first.version] _ version).symm
      · rw [List.mem_cons, ← hevents]
        simp [SyncRun.after]

/-- A success means convergence exactly when the host does not apply some record, or the pending
migrations are in the order of their versions and one of them reaches the target version. -/
theorem converges_iff (applyDdl : SchemaMigration → Option String) (version : Int)
    (sync : SchemaSync) :
    ((applySchemaSync applyDdl version sync).1.success = true → Converged applyDdl version sync) ↔
      (∃ migration ∈ records version sync.migrations, ¬Accepted applyDdl migration) ∨
        (InVersionOrder version sync.migrations ∧
          (sync.targetVersion ≤ version ∨
            ∃ migration ∈ sync.migrations, sync.targetVersion ≤ migration.version)) := by
  have hsuccess : (applySchemaSync applyDdl version sync).1.success = true ↔
      ∀ migration ∈ records version sync.migrations, Accepted applyDdl migration :=
    syncMigrations_errors_iff sync.migrations version
  rw [hsuccess]
  -- A migration that is not accepted makes the answer a failure.
  by_cases hclean : ∀ migration ∈ records version sync.migrations, Accepted applyDdl migration
  · have hnone : ¬∃ migration ∈ records version sync.migrations, ¬Accepted applyDdl migration := by
      rintro ⟨migration, hmem, hnot⟩
      exact hnot (hclean migration hmem)
    obtain ⟨hversion, hevents⟩ := syncMigrations_of_accepted hclean
    rw [or_iff_right hnone, ← pending_records_iff, ← le_last_record_iff, ← hversion]
    -- Otherwise the log holds the records, and the version is that of the last.
    refine ⟨fun h => ?_, fun h _ => ?_⟩
    · obtain ⟨happlied, htarget⟩ := h hclean
      exact ⟨fun migration hmem hpending =>
        (hevents migration).mp (happlied migration hmem hpending), htarget⟩
    · exact ⟨fun migration hmem hpending =>
        (hevents migration).mpr (h.1 migration hmem hpending), h.2⟩
  · refine iff_of_true (fun h => absurd h hclean) (.inl ?_)
    rw [not_forall] at hclean
    obtain ⟨migration, hmigration⟩ := hclean
    rw [Classical.not_imp] at hmigration
    exact ⟨migration, hmigration.1, hmigration.2⟩

end Clean

/-- A migration with a body that is allowed. -/
def createMigration (version : Int) : SchemaMigration :=
  { version, name := "create", sql := "CREATE TABLE t (id Int64)" }

/-- The second version comes after the third and is skipped, and the target is beyond both. -/
theorem not_converged_outOfOrder :
    ¬∀ (applyDdl : SchemaMigration → Option String) (version : Int) (sync : SchemaSync),
    (applySchemaSync applyDdl version sync).1.success = true → Converged applyDdl version sync := by
  intro h
  have hconverged := h (fun _ => none) 1 ⟨4, [createMigration 3, createMigration 2]⟩ (by decide)
  exact absurd hconverged.2 (by decide)

end QueryFabric.Federation
