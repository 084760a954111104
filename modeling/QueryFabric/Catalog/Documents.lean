import QueryFabric.Catalog.Namespaces
import Mathlib.Data.List.Nodup

/-!
# Catalog documents

`to_document` and `from_document` of `model.rs`. A document lists the relations and the functions of
a catalog, the builtin functions among them, in key order and without their keys. In every catalog
that registrations reach, an entry is under the key of its own name, so that a reloaded catalog has
the relations of the stored one, and its functions are what the stored one lists.
-/

namespace QueryFabric

/-- A catalog as it is stored. -/
structure CatalogDocument where
  snapshotId : String
  relations : List RelationSchema
  functions : List FunctionSignature
deriving DecidableEq, Repr

namespace MemoryCatalog

/-- The key that a function is registered under. -/
def functionKey (signature : FunctionSignature) : Option String × String :=
  (signature.namespace_, toAsciiLowercase signature.name)

/-- `Catalog::relations`. -/
def listedRelations (c : MemoryCatalog) : List RelationSchema := c.relations.map Prod.snd

/-- The builtin functions under their keys. -/
def builtinFunctions : List ((Option String × String) × FunctionSignature) :=
  portableBuiltinFunctions.foldl
    (fun values signature => mapInsert nameKeyLt (functionKey signature) signature values) []

/-- The builtin functions, with the registered ones in place of those of the same key. -/
def mergedFunctions (c : MemoryCatalog) : List ((Option String × String) × FunctionSignature) :=
  c.functions.foldl (fun values entry => mapInsert nameKeyLt entry.1 entry.2 values)
    builtinFunctions

/-- `FunctionRegistry::functions`. -/
def listedFunctions (c : MemoryCatalog) : List FunctionSignature := c.mergedFunctions.map Prod.snd

/-- `to_document`. -/
def toDocument (c : MemoryCatalog) : CatalogDocument where
  snapshotId := c.snapshotId
  relations := c.listedRelations
  functions := c.listedFunctions

/-- `from_document`. -/
def fromDocument (document : CatalogDocument) : MemoryCatalog :=
  document.functions.foldl registerFunction
    (document.relations.foldl registerRelation { snapshotId := document.snapshotId })

/-! ## The catalogs that registrations reach -/

/-- An update of a catalog. -/
inductive CatalogOp
  | setSnapshotId (snapshotId : String)
  | registerRelation (relation : RelationSchema)
  | registerFunction (signature : FunctionSignature)
  | setRelationStatistics (namespace_ : Option String) (name : String)
    (statistics : RelationStatistics)

/-- The catalog after an update. -/
def CatalogOp.apply (c : MemoryCatalog) : CatalogOp → MemoryCatalog
  | .setSnapshotId snapshotId => c.setSnapshotId snapshotId
  | .registerRelation relation => c.registerRelation relation
  | .registerFunction signature => c.registerFunction signature
  | .setRelationStatistics namespace_ name statistics =>
    c.setRelationStatistics namespace_ name statistics

/-- The catalog after updates one after the other. -/
def applyOps (ops : List CatalogOp) : MemoryCatalog := ops.foldl CatalogOp.apply {}

/-- The relations and functions are in key order, each under the key of its own name. -/
structure WellKeyed (c : MemoryCatalog) : Prop where
  relationsSorted : KeysSorted nameKeyLt c.relations
  relationKeys : ∀ entry ∈ c.relations, entry.1 = relationKey entry.2
  functionsSorted : KeysSorted nameKeyLt c.functions
  functionKeys : ∀ entry ∈ c.functions, entry.1 = functionKey entry.2

/-- An empty catalog is well keyed. -/
theorem wellKeyed_empty : WellKeyed {} where
  relationsSorted := List.Pairwise.nil
  relationKeys := List.forall_mem_nil _
  functionsSorted := List.Pairwise.nil
  functionKeys := List.forall_mem_nil _

/-- An update keeps the entries under the keys of their names. -/
theorem WellKeyed.apply {c : MemoryCatalog} (h : WellKeyed c) (op : CatalogOp) :
    WellKeyed (op.apply c) := by
  cases op with
  | setSnapshotId snapshotId => exact { h with }
  | setRelationStatistics namespace_ name statistics => exact { h with }
  | registerRelation relation =>
    refine { h with
      relationsSorted := keysSorted_mapInsert isKeyOrder_nameKeyLt _ _ h.relationsSorted
      relationKeys := fun entry hentry => ?_ }
    obtain rfl | ⟨-, hentry⟩ :=
      (mem_mapInsert_iff isKeyOrder_nameKeyLt _ _ _ h.relationsSorted).mp hentry
    · rfl
    · exact h.relationKeys entry hentry
  | registerFunction signature =>
    refine { h with
      functionsSorted := keysSorted_mapInsert isKeyOrder_nameKeyLt _ _ h.functionsSorted
      functionKeys := fun entry hentry => ?_ }
    obtain rfl | ⟨-, hentry⟩ :=
      (mem_mapInsert_iff isKeyOrder_nameKeyLt _ _ _ h.functionsSorted).mp hentry
    · rfl
    · exact h.functionKeys entry hentry

/-- Operations keep a catalog well keyed. -/
theorem wellKeyed_foldl (ops : List CatalogOp) : ∀ {c : MemoryCatalog}, WellKeyed c →
    WellKeyed (ops.foldl CatalogOp.apply c) := by
  induction ops with
  | nil => intro c h; exact h
  | cons op ops ih => intro c h; exact ih (h.apply op)

/-- A catalog made by operations is well keyed. -/
theorem wellKeyed_applyOps (ops : List CatalogOp) : WellKeyed (applyOps ops) :=
  wellKeyed_foldl ops wellKeyed_empty

/-! ## The functions that a catalog lists -/

/-- No two builtin functions have the same key. -/
theorem nodup_builtinKeys : (portableBuiltinFunctions.map functionKey).Nodup := by
  decide

/-- The builtin functions are sorted by their keys. -/
theorem builtinFunctions_sorted : KeysSorted nameKeyLt builtinFunctions :=
  keysSorted_foldl_mapInsert isKeyOrder_nameKeyLt
    functionKey id portableBuiltinFunctions List.Pairwise.nil

/-- The builtin functions are the portable ones, under their keys. -/
theorem mem_builtinFunctions_iff (entry : (Option String × String) × FunctionSignature) :
    entry ∈ builtinFunctions ↔ entry.2 ∈ portableBuiltinFunctions ∧
    entry.1 = functionKey entry.2 := by
  have hiff :=
    mem_foldl_mapInsert_iff isKeyOrder_nameKeyLt id entry List.Pairwise.nil nodup_builtinKeys
  rw [builtinFunctions]
  refine hiff.trans ⟨?_, ?_⟩
  · rintro (⟨hnil, -⟩ | ⟨signature, hsignature, rfl⟩)
    · cases hnil
    · exact ⟨hsignature, rfl⟩
  · rintro ⟨hsignature, hkey⟩
    exact .inr ⟨entry.2, hsignature, Prod.ext hkey rfl⟩

/-- The builtin that is found is the one of the key. -/
theorem builtinFunctionSignature_eq_some_iff (namespace_ : Option String) (name : String)
    (signature : FunctionSignature) : builtinFunctionSignature namespace_ name = some signature ↔
      ((namespace_, toAsciiLowercase name), signature) ∈ builtinFunctions := by
  -- A signature is looked up by its key, whatever the letter case of the name.
  have hmatches : ∀ s : FunctionSignature,
    (s.namespace_ == namespace_ && eqIgnoreAsciiCase s.name name) = true ↔
      (namespace_, toAsciiLowercase name) = functionKey s := by
    intro s
    rw [Bool.and_eq_true, beq_iff_eq, eqIgnoreAsciiCase_iff, functionKey, Prod.mk.injEq, eq_comm,
      @eq_comm _ (toAsciiLowercase s.name)]
  have hkey : ∀ s : FunctionSignature, (portableBuiltinFunctions.find? fun s =>
      s.namespace_ == namespace_ && eqIgnoreAsciiCase s.name name) = some s →
      (namespace_, toAsciiLowercase name) = functionKey s := by
    intro s hs
    have hfound := List.find?_some hs
    exact (hmatches s).mp hfound
  rw [mem_builtinFunctions_iff, builtinFunctionSignature]
  constructor
  · intro h
    exact ⟨List.mem_of_find?_eq_some h, hkey signature h⟩
  · rintro ⟨hmem, hsignature⟩
    have hsome : (portableBuiltinFunctions.find? fun s =>
        s.namespace_ == namespace_ && eqIgnoreAsciiCase s.name name).isSome = true :=
      List.find?_isSome.mpr ⟨signature, hmem, (hmatches signature).mpr hsignature⟩
    obtain ⟨found, hfound⟩ := Option.isSome_iff_exists.mp hsome
    -- The first match has the same key, and the keys are all different.
    have hsame : functionKey found = functionKey signature :=
      (hkey found hfound).symm.trans hsignature
    rw [hfound,
      List.inj_on_of_nodup_map nodup_builtinKeys (List.mem_of_find?_eq_some hfound) hmem hsame]

/-- The merged functions are the builtin ones that no other hides, and the others. -/
theorem mem_mergedFunctions_iff {c : MemoryCatalog} (h : WellKeyed c)
    (entry : (Option String × String) × FunctionSignature) : entry ∈ c.mergedFunctions ↔
      (entry ∈ builtinFunctions ∧ entry.1 ∉ c.functions.map Prod.fst) ∨ entry ∈ c.functions := by
  have hnodup := nodup_keys isKeyOrder_nameKeyLt h.functionsSorted
  have hiff :=
    mem_foldl_mapInsert_iff isKeyOrder_nameKeyLt Prod.snd entry builtinFunctions_sorted hnodup
  rw [mergedFunctions]
  refine hiff.trans (or_congr_right ⟨?_, fun hentry => ⟨entry, hentry, rfl⟩⟩)
  rintro ⟨other, hother, rfl⟩
  exact hother

/-- The merged functions are sorted by their keys. -/
theorem mergedFunctions_sorted (c : MemoryCatalog) : KeysSorted nameKeyLt c.mergedFunctions :=
  keysSorted_foldl_mapInsert isKeyOrder_nameKeyLt Prod.fst Prod.snd c.functions
    builtinFunctions_sorted

/-- The merged functions are under their own keys. -/
theorem mergedFunctions_keys {c : MemoryCatalog} (h : WellKeyed c) :
    ∀ entry ∈ c.mergedFunctions, entry.1 = functionKey entry.2 := by
  intro entry hentry
  obtain ⟨hbuiltin, -⟩ | hfunction := (mem_mergedFunctions_iff h entry).mp hentry
  · exact ((mem_builtinFunctions_iff entry).mp hbuiltin).2
  · exact h.functionKeys entry hfunction

/-- A function is resolved to the one that the catalog lists under its key. -/
theorem resolveFunction_eq_lookup {c : MemoryCatalog} (h : WellKeyed c) (namespace_ : Option String)
    (name : String) :
    c.resolveFunction namespace_ name =
      c.mergedFunctions.lookup (namespace_, toAsciiLowercase name) := by
  refine Option.ext fun signature => ?_
  rw [lookup_eq_some_iff isKeyOrder_nameKeyLt _ _ c.mergedFunctions_sorted,
    mem_mergedFunctions_iff h, resolveFunction, Option.or_eq_some_iff,
    lookup_eq_some_iff isKeyOrder_nameKeyLt _ _ h.functionsSorted,
    builtinFunctionSignature_eq_some_iff]
  have hnone : c.functions.lookup (namespace_, toAsciiLowercase name) = none ↔
      (namespace_, toAsciiLowercase name) ∉ c.functions.map Prod.fst := by
    rw [List.lookup_eq_none_iff, List.mem_map]
    constructor
    · rintro hnone ⟨entry, hentry, heq⟩
      exact absurd heq.symm (by simpa using hnone entry hentry)
    · intro hnot entry hentry
      rw [bne_iff_ne]
      exact fun heq => hnot ⟨entry, hentry, heq.symm⟩
  rw [hnone, or_comm, and_comm]

/-! ## Reloading -/

/-- Registering relations changes no other part of a catalog. -/
theorem foldl_registerRelation (relations : List RelationSchema) : ∀ c : MemoryCatalog,
    relations.foldl registerRelation c = { c with
      relations := relations.foldl (fun m relation =>
        mapInsert nameKeyLt (relationKey relation) relation m) c.relations } := by
  induction relations with
  | nil => intro c; rfl
  | cons relation relations ih => intro c; exact ih (c.registerRelation relation)

/-- Registering functions changes no other part of a catalog. -/
theorem foldl_registerFunction (functions : List FunctionSignature) : ∀ c : MemoryCatalog,
    functions.foldl registerFunction c = { c with
      functions := functions.foldl (fun m signature =>
        mapInsert nameKeyLt (functionKey signature) signature m) c.functions } := by
  induction functions with
  | nil => intro c; rfl
  | cons signature functions ih => intro c; exact ih (c.registerFunction signature)

/-- A reloaded catalog has the relations of the stored one, and the functions that it lists. -/
theorem fromDocument_toDocument {c : MemoryCatalog} (h : WellKeyed c) :
    fromDocument c.toDocument =
      { snapshotId := c.snapshotId, relations := c.relations, functions := c.mergedFunctions } := by
  have hrelations := foldl_mapInsert_values isKeyOrder_nameKeyLt h.relationsSorted h.relationKeys
  have hfunctions :=
    foldl_mapInsert_values isKeyOrder_nameKeyLt c.mergedFunctions_sorted (mergedFunctions_keys h)
  rw [fromDocument, foldl_registerRelation, foldl_registerFunction]
  unfold toDocument listedRelations listedFunctions
  dsimp only
  rw [hrelations, hfunctions]

/-- A catalog that was read back is well keyed. -/
theorem wellKeyed_reloaded {c : MemoryCatalog} (h : WellKeyed c) :
    WellKeyed (fromDocument c.toDocument) := by
  rw [fromDocument_toDocument h]
  exact { relationsSorted := h.relationsSorted, relationKeys := h.relationKeys,
          functionsSorted := c.mergedFunctions_sorted, functionKeys := mergedFunctions_keys h }

/-- The builtin functions are all listed, so that a reloaded catalog lists the same functions. -/
theorem mergedFunctions_reloaded {c : MemoryCatalog} (h : WellKeyed c) :
    (fromDocument c.toDocument).mergedFunctions = c.mergedFunctions := by
  refine eq_of_mem_iff isKeyOrder_nameKeyLt (mergedFunctions_sorted _) c.mergedFunctions_sorted
    fun entry => ?_
  rw [mem_mergedFunctions_iff (wellKeyed_reloaded h), fromDocument_toDocument h]
  refine or_iff_right ?_
  rintro ⟨hbuiltin, hkey⟩
  -- A builtin of another key than the registered ones is listed itself.
  by_cases hregistered : entry.1 ∈ c.functions.map Prod.fst
  · obtain ⟨other, hother, heq⟩ := List.mem_map.mp hregistered
    have hlisted := (mem_mergedFunctions_iff h other).mpr (.inr hother)
    exact hkey (heq ▸ List.mem_map_of_mem hlisted)
  · exact hkey
      (List.mem_map_of_mem ((mem_mergedFunctions_iff h entry).mpr (.inl ⟨hbuiltin, hregistered⟩)))

/-- A catalog and the one reloaded from its document resolve the same names, and have the same
document. -/
structure RoundTrips (c : MemoryCatalog) : Prop where
  relation : ∀ namespace_ name,
    (fromDocument c.toDocument).resolveRelation namespace_ name = c.resolveRelation namespace_ name
  function : ∀ namespace_ name,
    (fromDocument c.toDocument).resolveFunction namespace_ name = c.resolveFunction namespace_ name
  document : (fromDocument c.toDocument).toDocument = c.toDocument

/-- Every catalog that updates reach round-trips through its document. -/
theorem documents_roundTrip (ops : List CatalogOp) : RoundTrips (applyOps ops) := by
  have h := wellKeyed_applyOps ops
  have hreloaded := fromDocument_toDocument h
  refine ⟨fun namespace_ name => ?_, fun namespace_ name => ?_, ?_⟩
  · rw [hreloaded]
    rfl
  · rw [resolveFunction_eq_lookup (wellKeyed_reloaded h), mergedFunctions_reloaded h,
      resolveFunction_eq_lookup h]
  · have hfunctions : (fromDocument (applyOps ops).toDocument).listedFunctions =
        (applyOps ops).listedFunctions := by
      rw [listedFunctions, mergedFunctions_reloaded h, listedFunctions]
    rw [toDocument, hfunctions, hreloaded]
    rfl

end MemoryCatalog

end QueryFabric
