import Mathlib.Data.List.AList
import Mathlib.Data.Finset.Insert
import Mathlib.Data.Finset.Prod

/-!
# Access decisions

The access tiers of `crates/queryfabric-access/src/decision.rs`, over the registry of accounts,
groups and agreements that `InMemoryOwnership` of `crates/queryfabric-tenancy` keeps. The decision
for a restricted resource fetches the facts one after the other and stops at the first that allows.

A `HashMap` is the list of its entries. The facts of a history of operations are read off it by the
last operation that sets them, or by any that adds to them; `evaluateAccess_restricted_iff` says
that the registry and the decision follow these.
-/

namespace QueryFabric.Access

/-! ## Subjects and policies -/

/-- The 128 bits of a UUID. -/
abbrev Uuid := BitVec 128
/-- `GroupId`: groups are identified by UUIDs. -/
abbrev GroupId := Uuid

/-- `ResourceRef`: a resource, in its namespace. -/
structure ResourceRef where
  namespace_ : Uuid
  id : Uuid
deriving DecidableEq, Repr

/-- `Subject`: who asks for access. -/
structure Subject where
  id : Uuid
  registered : Bool
  attributes : List (String × String) := []
deriving DecidableEq, Repr

/-- `AccessPolicy`. -/
inductive AccessPolicy
  | open_
  | registered
  | restricted (dataUseRestrictions : List String)
deriving DecidableEq, Repr

/-- `AccessOutcome`. -/
inductive AccessOutcome
  | allow
  | deny (reason : String)
deriving DecidableEq, Repr

/-- The facts that a host looks up. -/
structure OwnershipSource where
  owner : ResourceRef → Option Subject
  groupsFor : Subject → List GroupId
  resourceGroups : ResourceRef → List GroupId
  hasAcceptedAgreement : Subject → ResourceRef → Bool

/-- `OwnershipSnapshot`: the facts about a subject and a resource that a decision uses. -/
structure OwnershipSnapshot where
  isOwner : Bool
  inAuthorizedGroup : Bool
  hasAcceptedAgreement : Bool
deriving DecidableEq, Repr

/-- `OwnershipSnapshot::none`: no fact holds. -/
def OwnershipSnapshot.none : OwnershipSnapshot := ⟨false, false, false⟩

/-- `evaluate_with_snapshot`. -/
def evaluateWithSnapshot (subject : Subject) (policy : AccessPolicy)
    (ownership : OwnershipSnapshot) :
    AccessOutcome :=
  match policy with
  | .open_ => .allow
  | .registered =>
    if subject.registered then .allow else .deny "resource requires a registered account"
  | .restricted _ =>
    if ownership.isOwner || ownership.inAuthorizedGroup ||
      ownership.hasAcceptedAgreement then .allow
    else .deny "restricted resource: no ownership, group membership, or accepted agreement"

/-- `snapshot_for`. -/
def snapshotFor (subject : Subject) (resource : ResourceRef) (ownership : OwnershipSource) :
    OwnershipSnapshot :=
  let isOwner := (ownership.owner resource).any fun owner => owner.id = subject.id
  if isOwner then { isOwner := true, inAuthorizedGroup := false, hasAcceptedAgreement := false }
  else
    let subjectGroups := ownership.groupsFor subject
    let inAuthorizedGroup :=
      if subjectGroups.isEmpty then false
      else (ownership.resourceGroups resource).any fun group => subjectGroups.contains group
    if inAuthorizedGroup then
      { isOwner := false, inAuthorizedGroup := true, hasAcceptedAgreement := false }
    else
      { isOwner := false, inAuthorizedGroup := false
        hasAcceptedAgreement := ownership.hasAcceptedAgreement subject resource }

/-- `evaluate_access`. -/
def evaluateAccess (subject : Subject) (resource : ResourceRef) (policy : AccessPolicy)
    (ownership : OwnershipSource) :
    AccessOutcome :=
  let snapshot := match policy with
    | .restricted _ => snapshotFor subject resource ownership
    | _ => .none
  evaluateWithSnapshot subject policy snapshot

/-! ## The registry -/

/-- `AccountKind`. -/
inductive AccountKind
  | human
  | service
deriving DecidableEq, Repr

/-- `Account`. -/
structure Account where
  id : Uuid
  email : String
  active : Bool
  verified : Bool
  kind : AccountKind
deriving DecidableEq, Repr

/-- `Account::subject`. -/
def Account.subject (account : Account) : Subject :=
  { id := account.id, registered := account.verified }

/-- `Group`. -/
structure Group where
  id : GroupId
  name : String
  admin : Uuid
  institution : Option String
  members : List Uuid
deriving DecidableEq, Repr

/-- The state of `InMemoryOwnership`. -/
structure State where
  accounts : AList fun _ : Uuid => Account := ∅
  groups : AList fun _ : GroupId => Group := ∅
  resourceOwner : AList fun _ : ResourceRef => Uuid := ∅
  resourceGroups : AList fun _ : ResourceRef => List GroupId := ∅
  agreements : Finset (Uuid × ResourceRef) := ∅

/-- The operations that change the facts. -/
inductive Operation
  | addAccount (account : Account)
  | addGroup (group : Group)
  | setOwner (resource : ResourceRef) (owner : Uuid)
  | authorizeGroup (resource : ResourceRef) (group : GroupId)
  | acceptAgreement (account : Uuid) (resource : ResourceRef)
deriving DecidableEq, Repr

namespace State

/-- `add_account`. -/
def addAccount (s : State) (account : Account) : State :=
  { s with accounts := s.accounts.insert account.id account }

/-- `add_group`. -/
def addGroup (s : State) (group : Group) : State :=
  { s with groups := s.groups.insert group.id group }

/-- `set_owner`. -/
def setOwner (s : State) (resource : ResourceRef) (owner : Uuid) : State :=
  { s with resourceOwner := s.resourceOwner.insert resource owner }

/-- `authorize_group`. -/
def authorizeGroup (s : State) (resource : ResourceRef) (group : GroupId) : State :=
  { s with
    resourceGroups :=
      s.resourceGroups.insert resource ((s.resourceGroups.lookup resource).getD [] ++ [group]) }

/-- `accept_agreement`. -/
def acceptAgreement (s : State) (account : Uuid) (resource : ResourceRef) : State :=
  { s with agreements := insert (account, resource) s.agreements }

/-- The state after one operation. -/
def apply (s : State) : Operation → State
  | .addAccount account => s.addAccount account
  | .addGroup group => s.addGroup group
  | .setOwner resource owner => s.setOwner resource owner
  | .authorizeGroup resource group => s.authorizeGroup resource group
  | .acceptAgreement account resource => s.acceptAgreement account resource

/-- The registry after a history of operations. -/
def after (history : List Operation) : State := history.foldl apply {}

/-- `InMemoryOwnership` as a source of facts. -/
def source (s : State) : OwnershipSource where
  owner resource := (s.resourceOwner.lookup resource).bind fun owner =>
    (s.accounts.lookup owner).map Account.subject
  groupsFor subject :=
    ((s.groups.entries.map Sigma.snd).filter fun group =>
      group.members.contains subject.id).map Group.id
  resourceGroups resource := (s.resourceGroups.lookup resource).getD []
  hasAcceptedAgreement subject resource := decide ((subject.id, resource) ∈ s.agreements)

end State

/-! ## The facts of a history -/

/-- What the last operation that gives a value gives. -/
def last {β : Type} (value : Operation → Option β) (history : List Operation) : Option β :=
  (history.filterMap value).getLast?

/-- The owner that an operation sets for a resource. -/
def ownerSet (resource : ResourceRef) : Operation → Option Uuid
  | .setOwner other owner => if other = resource then some owner else none
  | _ => none

/-- The account that an operation adds under an id. -/
def accountAdded (id : Uuid) : Operation → Option Account
  | .addAccount account => if account.id = id then some account else none
  | _ => none

/-- The group that an operation adds under an id. -/
def groupAdded (id : GroupId) : Operation → Option Group
  | .addGroup group => if group.id = id then some group else none
  | _ => none

section Facts

variable (history : List Operation) (subject : Subject) (resource : ResourceRef)

/-- The last set owner of the resource has the subject's id, and an account has it. -/
def IsOwner : Prop :=
  last (ownerSet resource) history = some subject.id ∧
    ∃ account, .addAccount account ∈ history ∧ account.id = subject.id

/-- The subject is a member of the last version of a group that was authorized for the resource. -/
def InAuthorizedGroup : Prop :=
  ∃ id group, .authorizeGroup resource id ∈ history ∧ last (groupAdded id) history = some group ∧
    subject.id ∈ group.members

/-- The subject accepted the agreement of the resource at some time. -/
def HasAgreed : Prop := .acceptAgreement subject.id resource ∈ history

end Facts

/-! ## The registry follows the history -/

/-- The last value that operations set, after one operation more. -/
theorem last_concat {β : Type} (value : Operation → Option β) (history : List Operation)
    (op : Operation) :
    last value (history ++ [op]) = (value op).or (last value history) := by
  unfold last
  rw [List.filterMap_append]
  cases hop : value op with
  | none => simp [hop]
  | some b => simp [hop]

/-- What was set last was set by an operation. -/
theorem exists_of_last {β : Type} {value : Operation → Option β} {history : List Operation} {b : β}
    (h : last value history = some b) : ∃ op ∈ history, value op = some b :=
  List.mem_filterMap.mp (List.mem_of_getLast? h)

/-- After an operation that sets a value there is a last one. -/
theorem exists_last {β : Type} {value : Operation → Option β} {history : List Operation}
    {op : Operation} {b : β}
    (hop : op ∈ history) (h : value op = some b) : ∃ b, last value history = some b := by
  have hne : history.filterMap value ≠ [] :=
    List.ne_nil_of_mem (List.mem_filterMap.mpr ⟨op, hop, h⟩)
  exact ⟨_, List.getLast?_eq_some_getLast hne⟩

/-- The id under which an account was added is its own. -/
theorem of_accountAdded {id : Uuid} {op : Operation} {account : Account}
    (h : accountAdded id op = some account) :
    op = .addAccount account ∧ account.id = id := by
  cases op with
  | addAccount other =>
    obtain ⟨hid, ⟨⟩⟩ := Option.ite_none_right_eq_some.mp h
    exact ⟨rfl, hid⟩
  | _ => cases h

/-- An operation that adds a group adds it under its own identifier. -/
theorem of_groupAdded {id : GroupId} {op : Operation} {group : Group}
    (h : groupAdded id op = some group) :
    op = .addGroup group ∧ group.id = id := by
  cases op with
  | addGroup other =>
    obtain ⟨hid, ⟨⟩⟩ := Option.ite_none_right_eq_some.mp h
    exact ⟨rfl, hid⟩
  | _ => cases h

/-- The registry holds the facts of a history. -/
structure Records (history : List Operation) (s : State) : Prop where
  accounts : ∀ id, s.accounts.lookup id = last (accountAdded id) history
  groups : ∀ id, s.groups.lookup id = last (groupAdded id) history
  owners : ∀ resource, s.resourceOwner.lookup resource = last (ownerSet resource) history
  authorized : ∀ resource id,
    id ∈ (s.resourceGroups.lookup resource).getD [] ↔ .authorizeGroup resource id ∈ history
  agreements : ∀ id resource, (id, resource) ∈ s.agreements ↔ .acceptAgreement id resource ∈ history

/-- Nothing happened before the start. -/
theorem records_start : Records [] {} where
  accounts _ := rfl
  groups _ := rfl
  owners _ := rfl
  authorized _ _ := by simp
  agreements _ _ := by simp

/-- A map after an insertion, by the key that is looked up. -/
theorem lookup_insert_or {κ β : Type} [DecidableEq κ] (m : AList fun _ : κ => β)
    (key : κ) (value : β) (k : κ) :
    (m.insert key value).lookup k = (if key = k then some value else none).or (m.lookup k) := by
  by_cases h : key = k
  · subst h
    -- The new value hides the one that was there.
    rw [AList.lookup_insert, if_pos rfl, Option.some_or]
  · rw [AList.lookup_insert_ne (Ne.symm h), if_neg h, Option.none_or]

/-- An operation changes the facts that it sets or adds to, and no others. -/
theorem Records.apply {history : List Operation} {s : State} (h : Records history s)
    (op : Operation) :
    Records (history ++ [op]) (s.apply op) where
  -- The three maps hold the last value that was written for a key.
  accounts id := by
    rw [last_concat, ← h.accounts]
    cases op with
    | addAccount account => exact lookup_insert_or s.accounts account.id account id
    | _ => rfl
  groups id := by
    rw [last_concat, ← h.groups]
    cases op with
    | addGroup group => exact lookup_insert_or s.groups group.id group id
    | _ => rfl
  owners resource := by
    rw [last_concat, ← h.owners]
    cases op with
    | setOwner other owner => exact lookup_insert_or s.resourceOwner other owner resource
    | _ => rfl
  -- The groups of a resource and the agreements only grow.
  authorized resource id := by
    rw [List.mem_append, ← h.authorized, List.mem_singleton]
    cases op with
    | authorizeGroup other group =>
      -- The new group is added to the ones that are there, under its own resource only.
      show id ∈ ((s.resourceGroups.insert other _).lookup resource).getD [] ↔ _
      rw [lookup_insert_or]
      by_cases hother : other = resource
      · subst hother
        simp
      · simp [hother, Ne.symm hother]
    | _ => exact (or_iff_left nofun).symm
  agreements id resource := by
    rw [List.mem_append, ← h.agreements, List.mem_singleton]
    cases op with
    | acceptAgreement account other =>
      show (id, resource) ∈ insert (account, other) s.agreements ↔ _
      rw [Finset.mem_insert, Prod.mk.injEq, Operation.acceptAgreement.injEq, or_comm]
    | _ => exact (or_iff_left nofun).symm

/-- The state after operations records them. -/
theorem records_after (history : List Operation) : Records history (State.after history) := by
  -- The last operation decides what the registry holds, so that the induction is from the end.
  induction history using List.reverseRecOn with
  | nil => exact records_start
  | append_singleton history op ih =>
    rw [State.after, List.foldl_concat]
    exact ih.apply op

section Sources

variable {history : List Operation} {s : State} (h : Records history s) (subject : Subject)
  (resource : ResourceRef)

include h

/-- The recorded owner is the owner. -/
theorem Records.isOwner_iff :
    ((s.source.owner resource).any fun owner => owner.id = subject.id) = true ↔
      IsOwner history subject resource := by
  simp only [State.source, h.owners, h.accounts, Option.any_eq_true, Option.bind_eq_some_iff,
    Option.map_eq_some_iff, decide_eq_true_eq]
  constructor
  · rintro ⟨_, ⟨owner, howner, account, haccount, rfl⟩, hid⟩
    -- The account that is found under an id was added under it.
    obtain ⟨op, hop, hadded⟩ := exists_of_last haccount
    obtain ⟨rfl, rfl⟩ := of_accountAdded hadded
    have hid : account.id = subject.id := hid
    rw [hid] at howner
    exact ⟨howner, account, hop, hid⟩
  · rintro ⟨howner, account, hop, hid⟩
    have hadded : accountAdded subject.id (.addAccount account) = some account := if_pos hid
    -- A later account may have replaced it, with the same id.
    obtain ⟨latest, hlatest⟩ := exists_last hop hadded
    obtain ⟨_, -, hadded⟩ := exists_of_last hlatest
    exact ⟨_, ⟨subject.id, howner, latest, hlatest, rfl⟩, (of_accountAdded hadded).2⟩

/-- The groups found for a subject are those that it was last a member of. -/
theorem Records.mem_groupsFor_iff (id : GroupId) :
    id ∈ s.source.groupsFor subject ↔
      ∃ group, last (groupAdded id) history = some group ∧ subject.id ∈ group.members := by
  simp only [State.source, List.mem_map, List.mem_filter, List.contains_iff_mem]
  constructor
  · rintro ⟨group, ⟨⟨entry, hentry, rfl⟩, hmember⟩, rfl⟩
    have hlookup := AList.mem_lookup_iff.mpr hentry
    rw [h.groups] at hlookup
    obtain ⟨_, -, hadded⟩ := exists_of_last hlookup
    rw [(of_groupAdded hadded).2]
    exact ⟨entry.2, hlookup, hmember⟩
  · rintro ⟨group, hlast, hmember⟩
    obtain ⟨_, -, hadded⟩ := exists_of_last hlast
    rw [← h.groups] at hlast
    exact ⟨group, ⟨⟨⟨id, group⟩, AList.mem_lookup_iff.mp hlast, rfl⟩, hmember⟩,
      (of_groupAdded hadded).2⟩

/-- A recorded authorization is one of a group of the subject. -/
theorem Records.inAuthorizedGroup_iff :
    ((s.source.resourceGroups resource).any fun group =>
      (s.source.groupsFor subject).contains group) = true ↔
      InAuthorizedGroup history subject resource := by
  simp only [List.any_eq_true, List.contains_iff_mem, h.mem_groupsFor_iff]
  constructor
  · rintro ⟨id, hid, group, hgroup, hmember⟩
    exact ⟨id, group, (h.authorized resource id).mp hid, hgroup, hmember⟩
  · rintro ⟨id, group, hid, hgroup, hmember⟩
    exact ⟨id, (h.authorized resource id).mpr hid, group, hgroup, hmember⟩

/-- A recorded agreement is one that was accepted. -/
theorem Records.hasAgreed_iff :
    s.source.hasAcceptedAgreement subject resource = true ↔ HasAgreed history subject resource := by
  rw [State.source, decide_eq_true_eq]
  exact h.agreements subject.id resource

end Sources

/-! ## Decisions -/

/-- All the facts for a subject and a resource. -/
def fullSnapshot (subject : Subject) (resource : ResourceRef) (ownership : OwnershipSource) :
    OwnershipSnapshot where
  isOwner := (ownership.owner resource).any fun owner => owner.id = subject.id
  inAuthorizedGroup :=
    (ownership.resourceGroups resource).any fun group =>
      (ownership.groupsFor subject).contains group
  hasAcceptedAgreement := ownership.hasAcceptedAgreement subject resource

/-- A subject without groups is in no group that is authorized. -/
theorem inAuthorizedGroup_eq (subjectGroups resourceGroups : List GroupId) :
    (if subjectGroups.isEmpty then false else resourceGroups.any fun group =>
      subjectGroups.contains group) =
      resourceGroups.any fun group => subjectGroups.contains group := by
  cases subjectGroups with
  | nil => simp
  | cons group groups => rfl

/-- The facts that are not fetched do not change the decision. -/
theorem evaluateAccess_eq_full (subject : Subject) (resource : ResourceRef) (policy : AccessPolicy)
    (ownership : OwnershipSource) :
    evaluateAccess subject resource policy ownership =
      evaluateWithSnapshot subject policy (fullSnapshot subject resource ownership) := by
  cases policy with
  | open_ => rfl
  | registered => rfl
  | restricted codes =>
    unfold evaluateAccess fullSnapshot snapshotFor
    dsimp only
    rw [inAuthorizedGroup_eq]
    unfold evaluateWithSnapshot
    dsimp only
    -- The owner's other facts are not fetched, and neither is the agreement of a member.
    cases (ownership.owner resource).any fun owner => owner.id = subject.id with
    | true => rfl
    | false =>
      cases (ownership.resourceGroups resource).any fun group =>
        (ownership.groupsFor subject).contains group with
      | true => rfl
      | false => rfl

/-- A restricted resource is open to its last owner, if it is registered, to the members of the
groups authorized for it, and to those who accepted an agreement; and the decision is the one on all
the facts. -/
theorem evaluateAccess_restricted_iff (history : List Operation) (subject : Subject)
    (resource : ResourceRef) (codes : List String) :
    (evaluateAccess subject resource (.restricted codes) (State.after history).source = .allow ↔
      IsOwner history subject resource ∨ InAuthorizedGroup history subject resource ∨
        HasAgreed history subject resource) ∧
    evaluateAccess subject resource (.restricted codes) (State.after history).source =
      evaluateWithSnapshot subject (.restricted codes)
        (fullSnapshot subject resource (State.after history).source) := by
  have h := records_after history
  refine ⟨?_, evaluateAccess_eq_full _ _ _ _⟩
  rw [evaluateAccess_eq_full, ← h.isOwner_iff, ← h.inAuthorizedGroup_iff, ← h.hasAgreed_iff]
  unfold evaluateWithSnapshot fullSnapshot
  dsimp only
  split
  · rename_i hallowed
    simpa [or_assoc] using hallowed
  · rename_i hdenied
    simpa [or_assoc] using hdenied

end QueryFabric.Access
