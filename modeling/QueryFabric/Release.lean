import QueryFabric.Lib.Layers
import QueryFabric.Maps
import QueryFabric.Portability.Tabular
import Mathlib.Data.List.Perm.Basic
import Mathlib.Data.List.Nodup

/-!
# The order of publication

`publishable_crates` of `crates/queryfabric-release/src/main.rs` takes the metadata of Cargo and
gives the names of the workspace members that may be published, in the order in which they are
published. The loop takes, again and again, all packages that depend on no remaining one.

Running Cargo and reading its output is left out: the metadata is what was parsed.
-/

namespace QueryFabric.Release

open Lib
open QueryFabric.Portability (Json)

/-- The fields of a package that the order reads. -/
structure Package where
  id : String
  name : String
  publish : Option (List String)
deriving DecidableEq

/-- A node of the resolve graph, with its dependencies as the JSON has them. -/
structure ResolveNode where
  id : String
  dependencies : List Json

/-- The fields of the metadata that the order reads. -/
structure Metadata where
  packages : List Package
  nodes : List ResolveNode
  workspaceMembers : List String

/-- The order of a `BTreeSet<String>`. -/
def idLt (a b : String) : Bool := decide (a < b)

/-- The order of the ids is one that keys can be sorted by. -/
theorem isKeyOrder_idLt : IsKeyOrder idLt where
  irrefl a := by simp [idLt]
  trans hab hbc := decide_eq_true (lt_trans (of_decide_eq_true hab) (of_decide_eq_true hbc))
  trichotomy a b hab hba := by
    simp only [idLt, decide_eq_false_iff_not, not_lt] at hab hba
    exact le_antisymm hba hab

/-- The id of a dependency: a string, or the `pkg` of an object. -/
def dependencyId : Json → Option String
  | .string id => some id
  | .object entries =>
    match entries.lookup "pkg" with
    | some (.string id) => some id
    | _ => none
  | _ => none

section Metadata

variable (metadata : Metadata)

/-- The packages that pass both filters. -/
def isPublishable (package : Package) : Bool :=
  metadata.workspaceMembers.contains package.id && package.publish.all fun registries =>
    !registries.isEmpty

/-- The set `publishable`. -/
def publishable : List String :=
  ((metadata.packages.filter (isPublishable metadata)).map (·.id)).foldl
    (fun ids id => setInsert idLt id ids) []

/-- The map `names`. -/
def names : List (String × String) :=
  metadata.packages.foldl (fun names package => mapInsert idLt package.id package.name names) []

/-- The dependencies of a node as a set. -/
def ResolveNode.dependencySet (node : ResolveNode) : List String :=
  (node.dependencies.filterMap dependencyId).foldl (fun ids id => setInsert idLt id ids) []

/-- The map `dependencies`. -/
def dependencies : List (String × List String) :=
  metadata.nodes.foldl
    (fun dependencies node => mapInsert idLt node.id node.dependencySet dependencies) []

end Metadata

/-- The packages of `remaining` with no dependency in `remaining`. -/
def ready (dependencies : List (String × List String)) (remaining : List String) : List String :=
  remaining.filter fun package =>
    (((dependencies.lookup package).getD []).filter fun dependency =>
      remaining.contains dependency).length == 0

/-- The loop over `ready`: each package is removed from `remaining`, and its name is added to
`ordered`. -/
def publishReady (names : List (String × String)) : List String → List String → List String →
    Except String (List String × List String)
  | [], remaining, ordered => .ok (remaining, ordered)
  | package :: ready, remaining, ordered =>
    match names.lookup package with
    | some name => publishReady names ready (remaining.erase package) (ordered ++ [name])
    | none => .error ("missing package name for `" ++ package ++ "`")

/-- What a layer leaves, and what it adds when the names of its packages are known. -/
theorem publishReady_eq {names : List (String × String)} {name : String → String} :
    ∀ {ready : List String} (remaining ordered : List String),
    (∀ package ∈ ready, names.lookup package = some (name package)) →
    publishReady names ready remaining ordered =
      .ok (remaining.diff ready, ordered ++ ready.map name)
  | [], remaining, ordered, _ => by rw [publishReady, List.diff_nil, List.map_nil, List.append_nil]
  | package :: ready, remaining, ordered, h => by
    have ih := publishReady_eq (remaining.erase package) (ordered ++ [name package])
      fun other hother => h other (List.mem_cons_of_mem _ hother)
    rw [publishReady, h package List.mem_cons_self]
    dsimp only
    rw [ih, List.diff_cons, List.append_assoc, List.map_cons, List.singleton_append]

/-- What publishing the ready packages of a layer returns. -/
theorem publishReady_ok {names : List (String × String)} : ∀ {ready remaining ordered : List String}
    {rest : List String × List String}, publishReady names ready remaining ordered = .ok rest →
    rest.1 = remaining.diff ready
  | [], remaining, ordered, rest, h => by
    cases h
    rfl
  | package :: ready, remaining, ordered, rest, h => by
    rw [publishReady] at h
    cases hname : names.lookup package with
    | none => simp [hname] at h
    | some name =>
      rw [hname] at h
      rw [List.diff_cons]
      exact publishReady_ok h

/-- A layer makes the rest shorter. -/
theorem length_diff_lt {ready remaining : List String} (hne : ready ≠ [])
    (hready : ∀ a ∈ ready, a ∈ remaining) :
    (remaining.diff ready).length < remaining.length := by
  obtain ⟨package, ready, rfl⟩ := List.exists_cons_of_ne_nil hne
  have hmem : package ∈ remaining := hready package List.mem_cons_self
  have hpos : 0 < remaining.length := List.length_pos_of_mem hmem
  have herase : (remaining.erase package).length = remaining.length - 1 :=
    List.length_erase_of_mem hmem
  have hdiff : ((remaining.erase package).diff ready).length ≤ (remaining.erase package).length :=
    (List.diff_sublist _ _).length_le
  rw [List.diff_cons]
  omega

/-- A ready package remains, and depends on none that remains. -/
theorem mem_of_mem_ready {dependencies : List (String × List String)} {remaining : List String}
    {package : String} (h : package ∈ ready dependencies remaining) : package ∈ remaining :=
  (List.mem_filter.mp h).1

/-- The message for a cycle. -/
def cycleMessage : String := "publishable Cargo packages contain a dependency cycle"

/-- The `while` loop. -/
def publishLoop (names : List (String × String)) (dependencies : List (String × List String))
    (remaining ordered : List String) : Except String (List String) :=
  if remaining = [] then .ok ordered
  else if _hready : ready dependencies remaining = [] then .error cycleMessage
  else
    match _h : publishReady names (ready dependencies remaining) remaining ordered with
    | .ok rest => publishLoop names dependencies rest.1 rest.2
    | .error message => .error message
termination_by remaining.length
decreasing_by
  rw [publishReady_ok _h]
  exact length_diff_lt _hready fun _ => mem_of_mem_ready

/-- `publishable_crates`, on the metadata that was parsed. -/
def publishableCrates (metadata : Metadata) : Except String (List String) :=
  publishLoop (names metadata) (dependencies metadata) (publishable metadata) []

/-! ## What the packages depend on -/

/-- The ids that the last node of a package names. -/
def DependsOn (metadata : Metadata) (a b : String) : Prop :=
  ∃ node, metadata.nodes.reverse.find? (fun node => node.id = a) = some node ∧
    ∃ dependency ∈ node.dependencies, dependencyId dependency = some b

/-- The id of a workspace member that may be published. -/
def IsPublishableId (metadata : Metadata) (id : String) : Prop :=
  ∃ package ∈ metadata.packages, isPublishable metadata package = true ∧ package.id = id

/-- An id is a dependency of a node where one of its entries names it. -/
theorem mem_dependencySet {node : ResolveNode} {id : String} :
    id ∈ node.dependencySet ↔ ∃ dependency ∈ node.dependencies, dependencyId dependency =
      some id := by
  rw [ResolveNode.dependencySet, mem_foldl_setInsert isKeyOrder_idLt.trichotomy, List.mem_filterMap]
  exact or_iff_right (List.not_mem_nil)

/-- The map `dependencies` holds what a package depends on. -/
theorem mem_lookup_dependencies (metadata : Metadata) {a b : String} :
    b ∈ ((dependencies metadata).lookup a).getD [] ↔ DependsOn metadata a b := by
  rw [dependencies, lookup_foldl_mapInsert isKeyOrder_idLt]
  unfold DependsOn
  cases metadata.nodes.reverse.find? fun node => node.id = a with
  | none => simp
  | some node => simp [mem_dependencySet]

section Metadata

variable {metadata : Metadata}

/-- A package is ready when it depends on nothing that remains. -/
theorem mem_ready {remaining : List String} {package : String} :
    package ∈ ready (dependencies metadata) remaining ↔
      package ∈ remaining ∧ ∀ b ∈ remaining, ¬ DependsOn metadata package b := by
  rw [ready, List.mem_filter, beq_iff_eq, List.length_eq_zero_iff, List.filter_eq_nil_iff]
  refine and_congr_right fun _ => ⟨fun h b hb hdep => ?_, fun h b hb => ?_⟩
  · exact h b ((mem_lookup_dependencies metadata).mpr hdep) (List.contains_iff_mem.mpr hb)
  · exact fun hmem => h b (List.contains_iff_mem.mp hmem) ((mem_lookup_dependencies metadata).mp hb)

/-- The publishable ids are those of the definition. -/
theorem mem_publishable {id : String} :
    id ∈ publishable metadata ↔ IsPublishableId metadata id := by
  rw [publishable, mem_foldl_setInsert isKeyOrder_idLt.trichotomy, or_iff_right List.not_mem_nil,
    List.mem_map]
  simp only [List.mem_filter, and_assoc]
  exact Iff.rfl

/-- No id is publishable twice. -/
theorem nodup_publishable : (publishable metadata).Nodup := by
  -- The set is kept in the order of its ids.
  have hpairwise : ∀ (ids : List String) {l : List String}, l.Pairwise (idLt · · = true) →
      (ids.foldl (fun ids id => setInsert idLt id ids) l).Pairwise (idLt · · = true) := by
    intro ids
    induction ids with
    | nil => exact fun hl => hl
    | cons id ids ih => exact fun hl => ih (pairwise_setInsert isKeyOrder_idLt id hl)
  exact nodup_of_pairwise isKeyOrder_idLt (hpairwise _ .nil)

/-- The name found for a package is its own. -/
theorem lookup_names (hids : (metadata.packages.map (·.id)).Nodup) {package : Package}
    (hmem : package ∈ metadata.packages) :
    (names metadata).lookup package.id = some package.name := by
  have hsome : (metadata.packages.reverse.find? fun c => c.id = package.id).isSome := by
    rw [List.find?_isSome]
    exact ⟨package, List.mem_reverse.mpr hmem, decide_eq_true rfl⟩
  obtain ⟨found, hfound⟩ := Option.isSome_iff_exists.mp hsome
  have hid : found.id = package.id := by simpa using List.find?_some hfound
  have hfoundMem : found ∈ metadata.packages :=
    List.mem_reverse.mp (List.mem_of_find?_eq_some hfound)
  obtain rfl : found = package := List.inj_on_of_nodup_map hids hfoundMem hmem hid
  rw [names, lookup_foldl_mapInsert isKeyOrder_idLt, hfound]
  rfl

/-- What the loop keeps: the packages taken and the remaining ones are the publishable ones, and
those taken depend on none that was taken later or that remains. -/
structure Taken (metadata : Metadata) (done remaining : List String) : Prop where
  perm : (done ++ remaining).Perm (publishable metadata)
  layered : Layered (DependsOn metadata) done remaining

/-- At the start nothing is taken. -/
theorem taken_nil : Taken metadata [] (publishable metadata) :=
  ⟨.refl _, layered_nil _⟩

/-- What remains is publishable. -/
theorem Taken.isPublishableId {done remaining : List String} (h : Taken metadata done remaining)
    {id : String} (hid : id ∈ remaining) : IsPublishableId metadata id :=
  mem_publishable.mp (h.perm.mem_iff.mp (List.mem_append_right _ hid))

/-- One layer keeps it. -/
theorem Taken.step {done remaining : List String} (h : Taken metadata done remaining) :
    Taken metadata (done ++ ready (dependencies metadata) remaining)
      (remaining.diff (ready (dependencies metadata) remaining)) where
  perm := by
    have hsub : (ready (dependencies metadata) remaining).Sublist remaining := List.filter_sublist
    have hsplit : (ready (dependencies metadata) remaining ++
        remaining.diff (ready (dependencies metadata) remaining)).Perm remaining :=
      List.subperm_append_diff_self_of_count_le fun id _ => hsub.count_le id
    rw [List.append_assoc]
    exact (hsplit.append_left done).trans h.perm
  layered := h.layered.append (fun _ ha => mem_ready.mp ha) fun _ hb =>
    (List.diff_sublist _ _).subset hb

/-- Where nothing is ready there is a cycle. -/
theorem Taken.hasCycle {done remaining : List String} (h : Taken metadata done remaining)
    (hne : remaining ≠ []) (hready : ready (dependencies metadata) remaining = []) :
    HasCycle (DependsOn metadata) (IsPublishableId metadata) := by
  by_contra hcycle
  have hnone : ¬ HasCycle (DependsOn metadata) (· ∈ remaining) :=
    fun hc => hcycle (hc.mono fun _ => h.isPublishableId)
  -- Something that remains depends on nothing that remains, and would be ready.
  obtain ⟨a, ha, hdep⟩ := exists_ready hne hnone
  have hmem : a ∈ ready (dependencies metadata) remaining := mem_ready.mpr ⟨ha, hdep⟩
  rw [hready] at hmem
  cases hmem

/-- The loop ends with an order of the publishable packages, or with the error where there is a
cycle. -/
theorem publishLoop_spec {name : String → String}
    (hname : ∀ id, IsPublishableId metadata id → (names metadata).lookup id = some (name id))
    (done remaining : List String) (h : Taken metadata done remaining) :
    (∃ ids : List String, publishLoop (names metadata)
      (dependencies metadata) remaining (done.map name) =
        .ok (ids.map name) ∧ ids.Perm (publishable metadata) ∧
        DependenciesFirst (DependsOn metadata) ids) ∨
      publishLoop (names metadata) (dependencies metadata) remaining (done.map name) =
        .error cycleMessage ∧
        HasCycle (DependsOn metadata) (IsPublishableId metadata) := by
  rw [publishLoop]
  by_cases hne : remaining = []
  · subst hne
    refine .inl ⟨done, if_pos rfl, ?_, h.layered.dependenciesFirst⟩
    simpa using h.perm
  · rw [if_neg hne]
    by_cases hready : ready (dependencies metadata) remaining = []
    · rw [dif_pos hready]
      exact .inr ⟨rfl, h.hasCycle hne hready⟩
    · have hnames : ∀ package ∈ ready (dependencies metadata) remaining,
          (names metadata).lookup package = some (name package) :=
        fun package hpackage => hname package (h.isPublishableId (mem_of_mem_ready hpackage))
      have hlayer := publishReady_eq remaining (done.map name) hnames
      have hshorter := length_diff_lt hready fun _ => mem_of_mem_ready
      -- The layer that is taken makes what remains shorter, which is what the induction is on.
      have ih := publishLoop_spec hname (done ++ ready (dependencies metadata) remaining)
        (remaining.diff (ready (dependencies metadata) remaining)) h.step
      rw [dif_neg hready]
      split
      · rename_i rest hrest
        obtain rfl := Except.ok.inj (hlayer.symm.trans hrest)
        rwa [List.map_append] at ih
      · rename_i message hmessage
        cases hlayer.symm.trans hmessage
termination_by remaining.length

end Metadata

/-- The set `publishable` holds the id of each publishable package once. -/
theorem publishable_perm {metadata : Metadata} (hids : (metadata.packages.map (·.id)).Nodup) :
    (publishable metadata).Perm
      ((metadata.packages.filter (isPublishable metadata)).map (·.id)) := by
  have hnodup : ((metadata.packages.filter (isPublishable metadata)).map (·.id)).Nodup :=
    hids.sublist (List.filter_sublist.map _)
  rw [List.perm_ext_iff_of_nodup nodup_publishable hnodup]
  intro id
  rw [mem_publishable, List.mem_map]
  simp only [List.mem_filter, and_assoc]
  exact Iff.rfl

/-- `publishable_crates` names each publishable member of the workspace once, after all that it
depends on, or fails with the error of a cycle, and it does so just when there is one. -/
theorem publishableCrates_spec (metadata : Metadata) (hids : (metadata.packages.map (·.id)).Nodup) :
    (publishableCrates metadata = .error cycleMessage ↔
      HasCycle (DependsOn metadata) (IsPublishableId metadata)) ∧
    (¬ HasCycle (DependsOn metadata) (IsPublishableId metadata) → ∃ packages : List Package,
      packages.Perm (metadata.packages.filter (isPublishable metadata)) ∧
      DependenciesFirst (fun a b => DependsOn metadata a.id b.id) packages ∧
      publishableCrates metadata = .ok (packages.map (·.name))) := by
  have hname : ∀ id, IsPublishableId metadata id →
      (names metadata).lookup id = some (((names metadata).lookup id).getD "") := by
    rintro _ ⟨package, hmem, -, rfl⟩
    rw [lookup_names hids hmem]
    rfl
  obtain ⟨ids, hok, hperm, hfirst⟩ | ⟨herror, hcycle⟩ :=
    publishLoop_spec hname [] (publishable metadata) taken_nil
  · have hnot : ¬ HasCycle (DependsOn metadata) (IsPublishableId metadata) := fun hcycle =>
      hfirst.not_hasCycle (hperm.nodup_iff.mpr nodup_publishable)
        (hcycle.mono fun id hid => hperm.mem_iff.mpr (mem_publishable.mpr hid))
    have hresult : publishableCrates metadata = _ := hok
    refine ⟨⟨fun h => ?_, fun h => absurd h hnot⟩, fun _ => ?_⟩
    · cases hresult.symm.trans h
    -- The loop orders ids, and the ids tell the packages apart.
    · obtain ⟨packages, hpackages, rfl⟩ := exists_perm_map_eq (hperm.trans (publishable_perm hids))
      have hmem : ∀ package ∈ packages, package ∈ metadata.packages :=
        fun package h => (List.mem_filter.mp (hpackages.mem_iff.mp h)).1
      refine ⟨packages, hpackages, hfirst.of_map fun a ha b hb hid => ?_, ?_⟩
      · exact List.inj_on_of_nodup_map hids (hmem a ha) (hmem b hb) hid
      · rw [hresult, List.map_map]
        refine congrArg Except.ok (List.map_congr_left fun package h => ?_)
        rw [Function.comp_apply, lookup_names hids (hmem package h)]
        rfl
  · exact ⟨⟨fun _ => hcycle, fun _ => herror⟩, fun hnot => absurd hcycle hnot⟩

/-- Two packages, of which the first depends on the second. -/
def twoPackages : Metadata where
  packages := [⟨"a 0.1.0", "a", none⟩, ⟨"b 0.1.0", "b", none⟩, ⟨"c 0.1.0", "c", some []⟩]
  nodes := [⟨"a 0.1.0", [.string "b 0.1.0"]⟩, ⟨"b 0.1.0", [.object [("pkg", .string "c 0.1.0")]]⟩]
  workspaceMembers := ["a 0.1.0", "b 0.1.0", "c 0.1.0"]

/-- Two packages without a cycle are ordered by their dependency. -/
theorem twoPackages_order :
    (publishableCrates twoPackages = .error cycleMessage ↔
      HasCycle (DependsOn twoPackages) (IsPublishableId twoPackages)) ∧
    (¬ HasCycle (DependsOn twoPackages) (IsPublishableId twoPackages) → ∃ packages : List Package,
      packages.Perm (twoPackages.packages.filter (isPublishable twoPackages)) ∧
      DependenciesFirst (fun a b => DependsOn twoPackages a.id b.id) packages ∧
      publishableCrates twoPackages = .ok (packages.map (·.name))) :=
  publishableCrates_spec twoPackages (by decide)

end QueryFabric.Release
