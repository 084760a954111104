import QueryFabric.Access
import QueryFabric.Catalog.Namespaces
import QueryFabric.ClickHouse.Cost
import Mathlib.Data.Finset.Basic
import Mathlib.Data.Fintype.EquivFin

/-!
# Statistics of relations

`relation_statistics` of `MemoryCatalog` in `crates/queryfabric-catalog/src/model.rs`, and the
overlay of `stats_source.rs`, which answers from a source of statistics that relations are bound to.

The catalog resolves a relation and goes by its key, and so does `set_relation_statistics`. The
overlay goes by the name as it was spelled: it gives the same estimates for all names of a relation
just when what is bound only confirms what the catalog says, `followsResolution_iff`.
-/

namespace QueryFabric

open Access (ResourceRef)
open ClickHouse (StatisticsCatalog)
open MemoryCatalog (registerRelations Registered relationKey)

/-! ## The statistics of the catalog -/

/-- `str::parse::<u64>`. -/
def parseU64 (text : List Char) : Option UInt64 :=
  let digits := if text.head? = some '+' then text.tail else text
  if digits = [] ∨ digits.all Char.isDigit = false then none
  else if Portability.digitsValue digits ≤ 18446744073709551615 then
    some (UInt64.ofNat (Portability.digitsValue digits))
  else none

/-- The value of the first of the keys that is there. -/
def metadataValue (metadata : List (String × String)) (keys : List String) : Option String :=
  keys.findSome? fun key => metadata.lookup key

/-- `metadata_u64`. -/
def metadataU64 (metadata : List (String × String)) (keys : List String) : Option UInt64 :=
  (metadataValue metadata keys).bind fun value => parseU64 value.toList

/-- `metadata_u32`. -/
def metadataU32 (metadata : List (String × String)) (keys : List String) : Option UInt32 :=
  (metadataValue metadata keys).bind fun value => (Dialect.parseU32 value.toList).map UInt32.ofNat

/-- `relation_statistics_from_schema`. -/
def relationStatisticsFromSchema (relation : RelationSchema) : Option RelationStatistics :=
  (metadataU64 relation.metadata ["estimated_rows", "row_count", "rows"]).map fun estimatedRows =>
    { relation := relation.name
      estimatedRows
      averageRowBytes :=
        (metadataU64 relation.metadata ["average_row_bytes", "avg_row_bytes", "row_bytes"]).getD 64
      shardCount := metadataU32 relation.metadata ["shard_count", "shards"] }

/-- What the catalog knows of a relation that it has resolved. -/
def MemoryCatalog.statisticsOf (c : MemoryCatalog) (relation : RelationSchema) :
    Option RelationStatistics :=
  match c.statistics.lookup (relationKey relation) with
  | some statistics => some statistics
  | none => relationStatisticsFromSchema relation

/-- `relation_statistics` of `MemoryCatalog`. -/
def MemoryCatalog.relationStatistics (c : MemoryCatalog) (namespace_ : Option String)
    (name : String) :
    Option RelationStatistics :=
  (c.resolveRelation namespace_ name).bind c.statisticsOf

/-- A memory catalog as one with statistics. -/
def MemoryCatalog.toStatisticsCatalog (c : MemoryCatalog) : StatisticsCatalog where
  relationStatistics := c.relationStatistics
  resolveRelation := c.resolveRelation

/-! ## The overlay -/

/-- `RelationStats` of the contract. -/
structure RelationStats where
  estimatedRows : UInt64
  averageRowBytes : UInt64
deriving DecidableEq, Repr

/-- The `StatisticsSource` trait. -/
abbrev StatisticsSource := ResourceRef → Option RelationStats

/-- `relation_statistics_from_source`. -/
def relationStatisticsFromSource (source : StatisticsSource) (resource : ResourceRef)
    (relation : String) :
    Option RelationStatistics :=
  (source resource).map fun stats =>
    { relation, estimatedRows := stats.estimatedRows, averageRowBytes := stats.averageRowBytes,
      shardCount := none }

/-- `StatisticsOverlayCatalog`. -/
structure StatisticsOverlayCatalog where
  inner : StatisticsCatalog
  source : StatisticsSource
  bindings : List ((Option String × String) × ResourceRef) := []

namespace StatisticsOverlayCatalog

/-- `bind_resource`. -/
def bindResource (overlay : StatisticsOverlayCatalog) (namespace_ : Option String) (name : String)
    (resource : ResourceRef) : StatisticsOverlayCatalog :=
  { overlay with bindings := mapInsert nameKeyLt
                   (namespace_, toAsciiLowercase name) resource overlay.bindings }

/-- `relation_statistics` of the overlay. -/
def relationStatistics (overlay : StatisticsOverlayCatalog) (namespace_ : Option String)
    (name : String) :
    Option RelationStatistics :=
  ((overlay.bindings.lookup (namespace_, toAsciiLowercase name)).bind fun resource =>
    relationStatisticsFromSource overlay.source resource name).or
    (overlay.inner.relationStatistics namespace_ name)

/-- The overlay is a catalog again, which resolves as the inner one does. -/
def toStatisticsCatalog (overlay : StatisticsOverlayCatalog) : StatisticsCatalog where
  relationStatistics := overlay.relationStatistics
  resolveRelation := overlay.inner.resolveRelation

/-- The overlay after calls of `bind_resource`. -/
def bindResources (inner : StatisticsCatalog) (source : StatisticsSource)
    (calls : List (Option String × String × ResourceRef)) : StatisticsOverlayCatalog :=
  calls.foldl (fun overlay call => overlay.bindResource call.1 call.2.1 call.2.2) { inner, source }

end StatisticsOverlayCatalog

/-! ## Catalogs that were built -/

/-- The calls that change a `MemoryCatalog`. -/
inductive CatalogCall
  | setSnapshotId (snapshotId : String)
  | registerRelation (relation : RelationSchema)
  | registerFunction (signature : FunctionSignature)
  | setRelationStatistics (namespace_ : Option String) (name : String)
    (statistics : RelationStatistics)

/-- What a call does to the catalog. -/
def CatalogCall.apply (c : MemoryCatalog) : CatalogCall → MemoryCatalog
  | .setSnapshotId snapshotId => c.setSnapshotId snapshotId
  | .registerRelation relation => c.registerRelation relation
  | .registerFunction signature => c.registerFunction signature
  | .setRelationStatistics namespace_ name statistics =>
    c.setRelationStatistics namespace_ name statistics

/-- The catalog after a sequence of calls. -/
def catalogAfter (calls : List CatalogCall) : MemoryCatalog := calls.foldl CatalogCall.apply {}

/-- The relations that the calls register. -/
def registered (calls : List CatalogCall) : List RelationSchema :=
  calls.filterMap fun
    | .registerRelation relation => some relation
    | _ => none

/-- Only registrations change the relations of a catalog. -/
theorem relations_catalogAfter (calls : List CatalogCall) :
    (catalogAfter calls).relations = (registerRelations (registered calls)).relations := by
  have hfold : ∀ (calls : List CatalogCall) (c c' : MemoryCatalog), c.relations = c'.relations →
      (calls.foldl CatalogCall.apply c).relations =
        ((registered calls).foldl MemoryCatalog.registerRelation c').relations := by
    intro calls
    induction calls with
    | nil => exact fun _ _ h => h
    | cons call calls ih =>
      intro c c' h
      cases call with
      | registerRelation relation =>
        refine ih _ _ ?_
        rw [CatalogCall.apply, MemoryCatalog.registerRelation, MemoryCatalog.registerRelation, h]
      | setSnapshotId | registerFunction | setRelationStatistics => exact ih _ _ h
  exact hfold calls {} {} rfl

/-! ## Names of one relation -/

/-- The relation that `resolve_relation` finds where none is registered under the name. -/
def MemoryCatalog.fallbackRelation (c : MemoryCatalog) (name : String) : Option RelationSchema :=
  (c.relations.map Prod.snd).find? fun relation =>
    eqIgnoreAsciiCase relation.name name || relation.aliases.any fun alias_ =>
      eqIgnoreAsciiCase alias_ name

/-- A relation is found by its key, or else by a name that it answers to. -/
theorem MemoryCatalog.resolveRelation_eq (c : MemoryCatalog) (namespace_ : Option String)
    (name : String) :
    c.resolveRelation namespace_ name =
      (c.relations.lookup (namespace_, toAsciiLowercase name)).or (c.fallbackRelation name) :=
  rfl

/-- A relation is resolved under its own key, or as the fallback. -/
theorem resolveRelation_cases {calls : List CatalogCall} {namespace_ : Option String}
    {name : String} {relation : RelationSchema}
    (h : (catalogAfter calls).resolveRelation namespace_ name = some relation) :
    (namespace_, toAsciiLowercase name) = relationKey relation ∨
      (catalogAfter calls).fallbackRelation name = some relation := by
  rw [MemoryCatalog.resolveRelation_eq] at h
  cases hlookup : (catalogAfter calls).relations.lookup (namespace_, toAsciiLowercase name) with
  | none => exact .inr (by simpa [hlookup] using h)
  | some found =>
    obtain rfl : found = relation := by simpa [hlookup] using h
    -- What the map has under a key was registered with that key.
    obtain ⟨hsorted, hentries⟩ := MemoryCatalog.entries_registerRelations (registered calls)
    rw [relations_catalogAfter, lookup_eq_some_iff isKeyOrder_nameKeyLt _ _ hsorted, hentries]
      at hlookup
    exact .inl hlookup.1

/-- There is a namespace that is none of finitely many. -/
theorem exists_fresh (namespaces : List (Option String)) : ∃ text, some text ∉ namespaces := by
  -- There are infinitely many texts, of every length.
  have hinj : Function.Injective fun n : Nat => String.ofList (List.replicate n 'a') := by
    intro n m h
    have hlist : List.replicate n 'a' = List.replicate m 'a' := String.ofList_injective h
    simpa using congrArg List.length hlist
  have : Infinite String := Infinite.of_injective _ hinj
  obtain ⟨text, htext⟩ := Infinite.exists_notMem_finset (namespaces.filterMap id).toFinset
  exact ⟨text, fun h => htext (List.mem_toFinset.mpr (List.mem_filterMap.mpr ⟨some text, h, rfl⟩))⟩

/-- Nothing is registered under a namespace that no key has. -/
theorem lookup_eq_none_of_fresh {β : Type} {entries : List ((Option String × String) × β)}
    {text : String} (h : some text ∉ entries.map fun entry => entry.1.1) (name : String) :
    entries.lookup (some text, name) = none := by
  rw [List.lookup_eq_none_iff]
  intro entry hentry
  have hne : (some text, name) ≠ entry.1 := by
    rintro heq
    exact h (List.mem_map.mpr ⟨entry, hentry, by rw [← heq]⟩)
  simpa using hne

/-! ## Names and estimates -/

/-- The row and byte estimates. -/
def RelationStatistics.estimates (statistics : RelationStatistics) : UInt64 × UInt64 :=
  (statistics.estimatedRows, statistics.averageRowBytes)

/-- All pairs that the catalog resolves to one relation have the same estimates. -/
def FollowsResolution (catalog : StatisticsCatalog) : Prop :=
  ∀ namespace₁ name₁ namespace₂ name₂ relation,
    catalog.resolveRelation namespace₁ name₁ = some relation →
    catalog.resolveRelation namespace₂ name₂ = some relation →
    (catalog.relationStatistics namespace₁ name₁).map RelationStatistics.estimates =
      (catalog.relationStatistics namespace₂ name₂).map RelationStatistics.estimates

/-- What the source says of a pair that is bound, when the pair is one of a relation that is also
found as a fallback, is what the catalog knows of that relation. -/
def OnlyConfirms (c : MemoryCatalog) (overlay : StatisticsOverlayCatalog) : Prop :=
  ∀ namespace_ name resource stats relation other,
    overlay.bindings.lookup (namespace_, toAsciiLowercase name) = some resource →
    overlay.source resource = some stats → c.resolveRelation namespace_ name = some relation →
    c.fallbackRelation other = some relation →
    (c.statisticsOf relation).map RelationStatistics.estimates =
      some (stats.estimatedRows, stats.averageRowBytes)

/-- The statistics of a resolved relation are those registered, or those of its schema. -/
theorem MemoryCatalog.relationStatistics_of_resolved {c : MemoryCatalog}
    {namespace_ : Option String} {name : String}
    {relation : RelationSchema} (h : c.resolveRelation namespace_ name = some relation) :
    c.relationStatistics namespace_ name = c.statisticsOf relation := by
  rw [MemoryCatalog.relationStatistics, h, Option.bind_some]

/-- The catalog itself follows its resolution. -/
theorem MemoryCatalog.followsResolution (c : MemoryCatalog) :
    FollowsResolution c.toStatisticsCatalog := by
  intro namespace₁ name₁ namespace₂ name₂ relation h₁ h₂
  have hfirst := relationStatistics_of_resolved h₁
  have hsecond := relationStatistics_of_resolved h₂
  exact congrArg _ (hfirst.trans hsecond.symm)

section Overlay

variable {c : MemoryCatalog} {overlay : StatisticsOverlayCatalog} {namespace_ : Option String}
  {name : String} {relation : RelationSchema}

/-- The answer of the source to a pair. -/
def StatisticsOverlayCatalog.answer (overlay : StatisticsOverlayCatalog)
    (key : Option String × String) :
    Option RelationStats :=
  (overlay.bindings.lookup key).bind overlay.source

/-- The overlay answers for what is bound to a resource with statistics. -/
theorem StatisticsOverlayCatalog.answer_eq_some {key : Option String × String}
    {stats : RelationStats} :
    overlay.answer key = some stats ↔
      ∃ resource, overlay.bindings.lookup key = some resource ∧
      overlay.source resource = some stats :=
  Option.bind_eq_some_iff

/-- The estimates of the overlay: those of the source, or else those of the catalog. -/
theorem StatisticsOverlayCatalog.estimates_eq (hinner : overlay.inner = c.toStatisticsCatalog)
    (h : c.resolveRelation namespace_ name = some relation) :
    (overlay.relationStatistics namespace_ name).map RelationStatistics.estimates =
      ((overlay.answer (namespace_, toAsciiLowercase name)).map fun stats =>
        (stats.estimatedRows, stats.averageRowBytes)).or
        ((c.statisticsOf relation).map RelationStatistics.estimates) := by
  have hcatalog : overlay.inner.relationStatistics namespace_ name = c.statisticsOf relation := by
    rw [hinner]
    exact MemoryCatalog.relationStatistics_of_resolved h
  rw [StatisticsOverlayCatalog.relationStatistics, hcatalog, Option.map_or,
    StatisticsOverlayCatalog.answer]
  cases overlay.bindings.lookup (namespace_, toAsciiLowercase name) with
  | none => rfl
  | some resource =>
    rw [Option.bind_some, Option.bind_some, relationStatisticsFromSource]
    cases overlay.source resource <;> rfl

/-- Where the source only confirms, a pair of a relation that is found as a fallback has the
catalog's estimates. -/
theorem OnlyConfirms.estimates_eq (hconfirms : OnlyConfirms c overlay)
    (hinner : overlay.inner = c.toStatisticsCatalog)
    (h : c.resolveRelation namespace_ name = some relation)
    {other : String} (hother : c.fallbackRelation other = some relation) :
    (overlay.relationStatistics namespace_ name).map RelationStatistics.estimates =
      (c.statisticsOf relation).map RelationStatistics.estimates := by
  rw [StatisticsOverlayCatalog.estimates_eq hinner h]
  cases hanswer : overlay.answer (namespace_, toAsciiLowercase name) with
  | none => rfl
  | some stats =>
    obtain ⟨resource, hbound, hsource⟩ := StatisticsOverlayCatalog.answer_eq_some.mp hanswer
    exact (hconfirms _ _ _ _ _ _ hbound hsource h hother).symm

end Overlay

/-- The overlay follows the resolution of the catalog just when it only confirms what the catalog
knows. -/
theorem followsResolution_iff_onlyConfirms {calls : List CatalogCall}
    {overlay : StatisticsOverlayCatalog}
    (hinner : overlay.inner = (catalogAfter calls).toStatisticsCatalog) :
    FollowsResolution overlay.toStatisticsCatalog ↔ OnlyConfirms (catalogAfter calls) overlay := by
  have hresolve : overlay.toStatisticsCatalog.resolveRelation =
      (catalogAfter calls).resolveRelation := by
    rw [StatisticsOverlayCatalog.toStatisticsCatalog, hinner]
    rfl
  unfold FollowsResolution
  rw [hresolve]
  constructor
  · intro hfollows namespace_ name resource stats relation other hbound hsource hrelation hother
    -- In a namespace that nothing is registered or bound in, the relation is found as a fallback.
    obtain ⟨text, htext⟩ := exists_fresh
      (((catalogAfter calls).relations.map fun entry => entry.1.1) ++
        overlay.bindings.map fun entry => entry.1.1)
    have hregistered :
        (catalogAfter calls).relations.lookup (some text, toAsciiLowercase other) = none :=
      lookup_eq_none_of_fresh (fun h => htext (List.mem_append_left _ h)) _
    have hunbound : overlay.bindings.lookup (some text, toAsciiLowercase other) = none :=
      lookup_eq_none_of_fresh (fun h => htext (List.mem_append_right _ h)) _
    have hfallback : (catalogAfter calls).resolveRelation (some text) other = some relation := by
      rw [MemoryCatalog.resolveRelation_eq, hregistered, Option.none_or, hother]
    have hsame := hfollows namespace_ name (some text) other relation hrelation hfallback
    have hbinding := StatisticsOverlayCatalog.estimates_eq hinner hrelation
    have hcatalog := StatisticsOverlayCatalog.estimates_eq hinner hfallback
    rw [StatisticsOverlayCatalog.answer, hbound, Option.bind_some, hsource] at hbinding
    rw [StatisticsOverlayCatalog.answer, hunbound] at hcatalog
    exact hcatalog.symm.trans (hsame.symm.trans hbinding)
  · intro hconfirms namespace₁ name₁ namespace₂ name₂ relation h₁ h₂
    obtain hkey₁ | hfallback := resolveRelation_cases h₁
    · obtain hkey₂ | hfallback := resolveRelation_cases h₂
      · -- Both pairs are the key of the relation.
        have hestimates₁ := StatisticsOverlayCatalog.estimates_eq hinner h₁
        have hestimates₂ := StatisticsOverlayCatalog.estimates_eq hinner h₂
        rw [hkey₁] at hestimates₁
        rw [hkey₂] at hestimates₂
        exact hestimates₁.trans hestimates₂.symm
      -- A relation that one pair finds as a fallback has the catalog's estimates under both.
      · exact (hconfirms.estimates_eq hinner h₁ hfallback).trans
          (hconfirms.estimates_eq hinner h₂ hfallback).symm
    · exact (hconfirms.estimates_eq hinner h₁ hfallback).trans
        (hconfirms.estimates_eq hinner h₂ hfallback).symm

/-- Binding resources keeps the catalog below. -/
theorem inner_bindResources (inner : StatisticsCatalog) (source : StatisticsSource)
    (calls : List (Option String × String × ResourceRef)) :
    (StatisticsOverlayCatalog.bindResources inner source calls).inner = inner := by
  unfold StatisticsOverlayCatalog.bindResources
  generalize hoverlay : ({ inner, source } : StatisticsOverlayCatalog) = overlay
  have hinner : overlay.inner = inner := by rw [← hoverlay]
  clear hoverlay
  induction calls generalizing overlay with
  | nil => exact hinner
  | cons call calls ih => exact ih _ hinner

/-- After any sequence of bindings, over a catalog that was built in any way, the overlay gives the
same estimates for all names of a relation just when it only confirms what the catalog knows. -/
theorem followsResolution_iff (calls : List CatalogCall) (source : StatisticsSource)
    (bindings : List (Option String × String × ResourceRef)) :
    FollowsResolution
      (StatisticsOverlayCatalog.bindResources (catalogAfter calls).toStatisticsCatalog source
        bindings).toStatisticsCatalog ↔
      OnlyConfirms (catalogAfter calls)
        (StatisticsOverlayCatalog.bindResources
          (catalogAfter calls).toStatisticsCatalog source bindings) :=
  followsResolution_iff_onlyConfirms (inner_bindResources _ _ _)

/-- The relation `samples` is bound by its name: its alias `s` has no estimates. -/
theorem alias_without_estimates :
    let samples : RelationSchema :=
      { namespace_ := none, name := "samples", aliases := ["s"], kind := .table, columns := [] }
    let catalog := (catalogAfter [.registerRelation samples]).toStatisticsCatalog
    let overlay := StatisticsOverlayCatalog.bindResources catalog (fun _ => some ⟨42000, 96⟩)
      [(none, "samples", ⟨7, 1⟩)]
    overlay.inner.resolveRelation none "samples" = some samples ∧
      overlay.inner.resolveRelation none "s" = some samples ∧
      (overlay.relationStatistics none "samples").map RelationStatistics.estimates =
        some (42000, 96) ∧
      overlay.relationStatistics none "s" = none ∧
          ¬ FollowsResolution overlay.toStatisticsCatalog := by
  refine ⟨rfl, rfl, rfl, rfl, fun h => ?_⟩
  have hsame := h none "samples" none "s" _ rfl rfl
  exact absurd hsame (by decide)

end QueryFabric
