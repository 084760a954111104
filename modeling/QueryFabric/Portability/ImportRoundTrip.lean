import QueryFabric.Portability.Acceptance
import QueryFabric.Portability.RoundTrip

/-!
# Exported tables are imported

`build_import_bundle` of `crates/queryfabric-portability/src/bundle.rs`, and the table that
`export_station` of `crates/queryfabric-demo/src/sovereignty.rs` puts into a bundle.

`exportedTable_imported_iff` follows a table through the two hosts. The one that exports writes the
rows and seals a bundle; the other one validates the bundle under a digest, plans the import and
decodes the rows. It gets the rows that were written exactly when the digest is that of the bundle,
the bundle keeps its limits, the target is one for the table, and the cells are portable.
-/

namespace QueryFabric.Portability

open Lib.Json
open Access (ResourceRef)
open Provenance (ProvenanceEntry ProvenanceHistory)
open Lib (bind_eq_ok pure_eq_ok mapError_eq_ok)

/-! ## Exports -/

/-- `ImportSealedBundle`. -/
structure ImportSealedBundle (φ : Type) where
  bundle : ExportBundle φ
  canonicalJson : String
  contentHash : String

section Export

variable {φ : Type} (codec : ImportCodec φ)

/-- `build_import_bundle`. -/
def buildImportBundle (request : BundleRequest φ) (store : ProvenanceStore (JsonValue φ)) :
    Except BundleError (ImportSealedBundle φ) := do
  let built ← buildBundleVersion codec.reader.toValueText codec.uuids codec.blake3
    codec.canonicalJsonStringV2 request store importBundleVersion true
  return ⟨built.bundle, built.canonicalJson, digestPrefix ++ built.contentHash⟩

/-- The manifest that `export_station` puts into a bundle for its table. -/
def tableManifest (schema : TabularSchema) (csvPath : String) (csvBytes : ByteArray)
    (rowCount : UInt64) :
    ArtifactManifest φ where
  kind := "table_export"
  storageUri := csvPath
  format := "csv"
  schemaFingerprint := tabularSchemaFingerprint codec schema
  contentHash := typedDigest codec csvBytes.data.toList
  rowCount
  byteCount := some (UInt64.ofNat csvBytes.size)
  manifestJson := Write.tabularSchema schema

/-- A sealed bundle is the text of its bundle and the digest of the text. -/
structure ImportSealedBundle.Seals (built : ImportSealedBundle φ) (request : BundleRequest φ)
    (history : ProvenanceHistory (JsonValue φ)) : Prop where
  version : built.bundle.exportBundle =
    ⟨importBundleVersion, request.resource, request.exportedAtUnixMs⟩
  metadata : built.bundle.metadataJsonld = request.metadataJsonld
  cslJson : built.bundle.citations.cslJson = cslJsonValue request.citation
  provenance : built.bundle.provenance = history
  artifacts : built.bundle.artifacts = request.artifacts
  canonicalJson : built.canonicalJson =
    codec.canonicalJsonStringV2 (Write.exportBundle codec.uuids built.bundle)
  contentHash : built.contentHash = typedDigest codec (utf8 built.canonicalJson)

/-- What is built seals the request and the history. -/
theorem seals_of_buildImportBundle {request : BundleRequest φ}
    {store : ProvenanceStore (JsonValue φ)}
    {history : ProvenanceHistory (JsonValue φ)} {built : ImportSealedBundle φ}
    (hhistory : store.history request.resource {} = .ok history)
    (hbuild : buildImportBundle codec request store = .ok built) :
    built.Seals codec request history := by
  rw [buildImportBundle, buildBundleVersion, hhistory] at hbuild
  obtain rfl := Except.ok.inj hbuild
  exact ⟨rfl, rfl, rfl, rfl, rfl, rfl, rfl⟩

/-- What `TabularSchema` serializes to is sorted. -/
theorem sorted_tabularSchema (schema : TabularSchema) :
    (Write.tabularSchema schema : JsonValue φ).Sorted := by
  have hcolumns : ∀ column ∈ schema.columns, (Write.tabularColumn column : JsonValue φ).Sorted :=
    fun column _ => inherited_sorted.structValue (by simp) (by simp [Value.Sorted])
  refine inherited_sorted.structValue (by simp) ?_
  simpa [Value.Sorted, Value.sortedItems_iff] using hcolumns

end Export

/-! ## Rows -/

section Rows

variable {parsers : ValueParsers} {schema : TabularSchema} {limits : ImportLimits}
  {values : List (List String)}

/-- The parser reads the rows that were written exactly when they are portable and no more than the
limit. -/
theorem parseCsv_written_iff {column : TabularColumn} {columns : List TabularColumn}
    (hcolumns : schema.columns = column :: columns) (hname : column.name ≠ "")
    (hlength : ∀ row ∈ values, row.length = schema.columns.length)
    (hvalid : ∀ row ∈ values, validateValues parsers row schema = .ok ()) :
    parseCsv parsers schema limits
        (String.ofList (encodeRecords (schema.columns.map TabularColumn.name :: values))).toUTF8 =
          .ok values ↔
      CsvPortable schema values ∧ values.length ≤ limits.maxRows := by
  have hne : schema.columns ≠ [] := hcolumns ▸ List.cons_ne_nil _ _
  constructor
  · intro hparse
    have hbom := ((parseCsv_toUTF8_iff parsers schema limits _ _).mp hparse).1
    obtain ⟨hnames, hvalues⟩ := List.forall_mem_cons.mp (inline_of_parseCsv hne hlength hparse)
    obtain ⟨-, doc, -, -, haccepted, hrows⟩ :=
      (parseCsv_eq_ok_iff parsers schema limits _ _).mp hparse
    refine ⟨⟨fun column hcolumn => hnames _ (List.mem_map_of_mem hcolumn), hvalues,
      (noBom_written_iff hcolumns hname).mp hbom⟩, ?_⟩
    rw [← hrows]
    exact haccepted.maxRows
  · rintro ⟨hportable, hmax⟩
    exact parseCsv_written hne hlength hvalid hmax
      ((noBom_written_iff hcolumns hname).mpr hportable.bom) hportable

end Rows

/-! ## Imports -/

section Import

variable {φ : Type} (codec : ImportCodec φ)

/-- The calls of `prepare_import` of `crates/queryfabric-demo/src/http.rs`, for any target. -/
def importTable (bundle : ByteArray) (expectedBundleDigest : String) (artifactBytes : ByteArray)
    (target : PlanTarget) (limits : BundleLimits) :
    Except BundleImportError (ValidatedBundle φ × List (List String) × ImportPlan) := do
  let validated ← validateImportBundle codec bundle expectedBundleDigest limits
  let plan ← planTabularImport codec validated artifactBytes target limits
  let rows ← (decodeTabularCsv codec.parsers target.expectedSchema limits.toImportLimits
    artifactBytes).mapError BundleImportError.profile
  return (validated, rows, plan)

/-- A bundle of one table keeps the limits of a host. -/
structure KeepsLimits (limits : BundleLimits) (built : ImportSealedBundle φ)
    (schema : TabularSchema) (csvPath : String) (csvBytes : ByteArray) : Prop where
  bundleBytes : built.canonicalJson.utf8ByteSize ≤ limits.maxBundleBytes
  depth : enforceJsonLimits limits 0 (Write.exportBundle codec.uuids built.bundle) = true
  metadata : jsonBytes codec built.bundle.metadataJsonld ≤ limits.maxExtensionBytes
  manifest : jsonBytes codec (Write.tabularSchema schema) ≤ limits.maxExtensionBytes
  artifacts : 1 ≤ limits.maxArtifacts
  artifactBytes : csvBytes.size ≤ limits.maxArtifactBytes
  totalBytes : csvBytes.size ≤ limits.maxTotalArtifactBytes
  columns : validateSchema schema limits.maxColumns = .ok ()
  path : isOutside csvPath = false

/-- A target takes a table of a schema. -/
structure PlanTarget.Takes (target : PlanTarget) (schema : TabularSchema) : Prop where
  schema : target.expectedSchema = schema
  relation : isBlank target.relation = false
  revision : isBlank target.targetRevision = false

variable {schema : TabularSchema} {csvPath : String} {csvBytes : ByteArray} {limits : BundleLimits}

/-- The declared size is that of the table. -/
theorem declaredBytes_tableManifest (hsize : csvBytes.size < 2 ^ 64) (rowCount : UInt64) :
    declaredBytes (tableManifest codec schema csvPath csvBytes rowCount : ArtifactManifest φ) =
      csvBytes.size :=
  UInt64.toNat_ofNat_of_lt hsize

/-- The table is accepted when it is within the limits. -/
theorem artifactAccepted_tableManifest_iff (hsize : csvBytes.size < 2 ^ 64) (rowCount : UInt64) :
    ArtifactAccepted codec limits (tableManifest codec schema csvPath csvBytes rowCount) ↔
      csvBytes.size ≤ limits.maxArtifactBytes ∧ isOutside csvPath = false ∧
        jsonBytes codec (Write.tabularSchema schema) ≤ limits.maxExtensionBytes ∧
        validateSchema schema limits.maxColumns = .ok () := by
  have hbytes : (UInt64.ofNat csvBytes.size).toNat = csvBytes.size := UInt64.toNat_ofNat_of_lt hsize
  constructor
  · intro h
    obtain ⟨byteCount, hbyteCount, hmax⟩ := h.bytes
    obtain rfl := Option.some.inj hbyteCount
    obtain ⟨read, hread, hvalid, -⟩ := h.schema
    obtain rfl := Except.ok.inj ((codec.readSchema_write schema).symm.trans hread)
    exact ⟨hbytes ▸ hmax, isOutside_eq_false_iff.mpr h.inside, h.extension,
      validateSchema_ok_iff.mpr hvalid⟩
  · rintro ⟨hmax, hinside, hextension, hvalid⟩
    exact ⟨rfl, rfl, ⟨_, rfl, hbytes.symm ▸ hmax⟩, isTypedDigest_typedDigest codec _,
      isOutside_eq_false_iff.mp hinside, hextension, schema, codec.readSchema_write schema,
      validateSchema_ok_iff.mp hvalid, rfl⟩

variable {request : BundleRequest φ} {history : ProvenanceHistory (JsonValue φ)}
  {built : ImportSealedBundle φ} {rowCount : UInt64} {expectedDigest : String}

/-- A sealed bundle of one table is well formed. -/
theorem ImportSealedBundle.Seals.wellFormed (hseals : built.Seals codec request history)
    (hartifacts : request.artifacts = [tableManifest codec schema csvPath csvBytes rowCount])
    (hmetadata : request.metadataJsonld.Sorted)
    (hentries : ∀ entry ∈ history.entries, EntryWellFormed entry) :
    built.bundle.WellFormed := by
  refine ⟨hseals.metadata ▸ hmetadata, hseals.cslJson ▸ inherited_cslJsonValue inherited_sorted _,
    hseals.provenance ▸ hentries, ?_⟩
  rw [hseals.artifacts, hartifacts, List.forall_mem_singleton]
  exact sorted_tabularSchema schema

/-- The text of a bundle is validated as the bundle, under its digest and within the limits. -/
theorem validateImportBundle_sealed_iff (hsize : csvBytes.size < 2 ^ 64)
    (hseals : built.Seals codec request history)
    (hartifacts : request.artifacts = [tableManifest codec schema csvPath csvBytes rowCount])
    (hwell : built.bundle.WellFormed)
    (hread : parseJsonWithoutDuplicateKeys codec built.canonicalJson.toUTF8 =
      .ok (Write.exportBundle codec.uuids built.bundle))
    {validated : ValidatedBundle φ} :
    validateImportBundle codec built.canonicalJson.toUTF8 expectedDigest limits = .ok validated ↔
      expectedDigest = built.contentHash ∧ KeepsLimits codec limits built schema csvPath csvBytes ∧
        validated = ⟨built.bundle, built.canonicalJson, built.contentHash, built.bundle.artifacts,
          request.resource⟩ := by
  -- The bundle has the one artifact, and validating it returns these parts.
  have htable : built.bundle.artifacts = [tableManifest codec schema csvPath csvBytes rowCount] :=
    hseals.artifacts.trans hartifacts
  have hvalidated :
    Portability.validated codec (Write.exportBundle codec.uuids built.bundle) built.bundle =
      ⟨built.bundle, built.canonicalJson, built.contentHash, built.bundle.artifacts,
          request.resource⟩ := by
    rw [Portability.validated, hseals.contentHash, hseals.canonicalJson, hseals.version]
  rw [validateImportBundle_ok_iff]
  constructor
  -- The document is the sealed one, so what was accepted of it are the limits and the digest.
  · rintro ⟨value, bundle, h, rfl⟩
    obtain rfl := Except.ok.inj
      (hread.symm.trans ((parseJsonWithoutDuplicateKeys_ok_iff codec).mpr h.read))
    obtain rfl := Except.ok.inj ((codec.readBundle_write built.bundle hwell).symm.trans h.decoded)
    have haccepted := h.artifacts
    have htotal := h.total.2
    have hnumber := h.number
    rw [htable] at haccepted htotal hnumber
    obtain ⟨hmax, hinside, hmanifest, hvalid⟩ :=
      (artifactAccepted_tableManifest_iff codec hsize rowCount).mp
        (haccepted _ (List.mem_singleton_self _))
    rw [List.map_singleton, List.sum_singleton, declaredBytes_tableManifest codec hsize] at htotal
    refine ⟨?_, ⟨h.size, enforceJsonLimits_iff.mpr h.parts, h.extension, hmanifest, hnumber, hmax,
      htotal, hvalid, hinside⟩, hvalidated⟩
    rw [h.digest, hseals.contentHash, hseals.canonicalJson]
  · rintro ⟨rfl, h, rfl⟩
    -- Everything else that is checked holds of every sealed bundle.
    refine ⟨_, _, ⟨h.bundleBytes, (parseJsonWithoutDuplicateKeys_ok_iff codec).mp hread,
      enforceJsonLimits_iff.mp h.depth, codec.readBundle_write _ hwell, ?_, h.metadata, ?_, ?_, ?_,
      ?_, ?_, ?_⟩, hvalidated.symm⟩
    · rw [hseals.version]
    · rw [hseals.contentHash, hseals.canonicalJson]
    · rw [htable]
      exact List.cons_ne_nil _ _
    · rw [htable]
      exact h.artifacts
    · rw [htable, List.forall_mem_singleton]
      exact (artifactAccepted_tableManifest_iff codec hsize rowCount).mpr
        ⟨h.artifactBytes, h.path, h.manifest, h.columns⟩
    · rw [htable, List.map_singleton, List.sum_singleton, declaredBytes_tableManifest codec hsize]
      exact ⟨hsize, h.totalBytes⟩
    · rw [htable]
      exact List.nodup_singleton _

/-- An exported table is planned for the targets that take it, and decoded to its rows if they are
portable. -/
theorem planTabularImport_exported_iff {rows : List Json} {target : PlanTarget}
    {validated : ValidatedBundle φ}
    (hwritten : writeTabularCsv codec.parsers schema rows = .ok csvBytes)
    (hmax : csvBytes.size ≤ limits.maxArtifactBytes)
    (hcolumns : validateSchema schema limits.maxColumns = .ok ())
    (hartifacts : validated.artifacts =
      [tableManifest codec schema csvPath csvBytes (UInt64.ofNat rows.length)]) :
    (∃ plan, planTabularImport codec validated csvBytes target limits = .ok plan ∧
        decodeTabularCsv codec.parsers target.expectedSchema limits.toImportLimits csvBytes =
          .ok (rows.map (cellTexts schema))) ↔
      target.Takes schema ∧ CsvPortable schema (rows.map (cellTexts schema)) ∧
      rows.length ≤ limits.maxRows := by
  obtain ⟨hschema, -, hrows, rfl⟩ := writeTabularCsv_eq_ok_iff.mp hwritten
  obtain ⟨column, columns, hfirst, hname⟩ := validateSchema_head hschema
  -- Every row that was written has the columns and valid values.
  have hcells : ∀ row ∈ rows.map (cellTexts schema), row.length = schema.columns.length ∧
      validateValues codec.parsers row schema = .ok () := by
    intro row hrow
    obtain ⟨json, hjson, rfl⟩ := List.mem_map.mp hrow
    exact (rowValues_eq (hrows json hjson)).2
  -- Reading the file gives the rows just when they can be told in CSV.
  have hparse : parseCsv codec.parsers schema limits.toImportLimits _ =
      .ok (rows.map (cellTexts schema)) ↔ _ :=
    parseCsv_written_iff hfirst hname (fun row hrow => (hcells row hrow).1) fun row hrow =>
      (hcells row hrow).2
  rw [List.length_map] at hparse
  -- The plan is made for the one artifact and the schema that it declares.
  constructor
  · rintro ⟨plan, hplan, hdecode⟩
    obtain ⟨manifest, parsed, h, -⟩ := (planTabularImport_ok_iff codec).mp hplan
    obtain rfl : tableManifest codec schema csvPath _ _ = manifest :=
      List.singleton_inj.mp (hartifacts.symm.trans h.artifacts)
    have htarget : schema = target.expectedSchema :=
      Except.ok.inj ((codec.readSchema_write schema).symm.trans h.declared)
    rw [← htarget, decodeTabularCsv_eq_parseCsv hcolumns] at hdecode
    exact ⟨⟨htarget.symm, h.relation, h.revision⟩, hparse.mp hdecode⟩
  · rintro ⟨htarget, hportable⟩
    have hcsv := hparse.mpr hportable
    refine ⟨_, (planTabularImport_ok_iff codec).mpr
      ⟨_, rows.map (cellTexts schema), ⟨hartifacts, hmax, ?_, ?_, rfl, rfl, ?_,
      ?_, htarget.relation, htarget.revision⟩, rfl⟩, ?_⟩
    · rw [htarget.schema]
      exact hcolumns
    · rw [htarget.schema]
      exact codec.readSchema_write schema
    · rw [htarget.schema]
      exact hcsv
    · rw [List.length_map]
      rfl
    · rw [htarget.schema, decodeTabularCsv_eq_parseCsv hcolumns]
      exact hcsv

/-- An exported table is imported as the rows that were written exactly under the digest of its
bundle, within the limits of the host, for a target that takes it, and with portable cells. -/
theorem exportedTable_imported_iff {store : ProvenanceStore (JsonValue φ)} {rows : List Json}
    {target : PlanTarget} (hwritten : writeTabularCsv codec.parsers schema rows = .ok csvBytes)
    (hsize : csvBytes.size < 2 ^ 64)
    (hartifacts : request.artifacts =
      [tableManifest codec schema csvPath csvBytes (UInt64.ofNat rows.length)])
    (hmetadata : request.metadataJsonld.Sorted)
    (hhistory : store.history request.resource {} = .ok history)
    (hentries : ∀ entry ∈ history.entries, EntryWellFormed entry)
    (hbuild : buildImportBundle codec request store = .ok built)
    (hread : parseJsonWithoutDuplicateKeys codec built.canonicalJson.toUTF8 =
      .ok (Write.exportBundle codec.uuids built.bundle)) :
    (∃ validated plan, importTable codec built.canonicalJson.toUTF8 expectedDigest csvBytes
      target limits =
        .ok (validated, rows.map (cellTexts schema), plan)) ↔
      expectedDigest = built.contentHash ∧ KeepsLimits codec limits built schema csvPath csvBytes ∧
        target.Takes schema ∧ CsvPortable schema (rows.map (cellTexts schema)) ∧
        rows.length ≤ limits.maxRows := by
  -- The sealed bundle, its table and its form.
  have hseals := seals_of_buildImportBundle codec hhistory hbuild
  have htable := hseals.artifacts.trans hartifacts
  have hwell := hseals.wellFormed codec hartifacts hmetadata hentries
  simp only [importTable, bind_eq_ok, pure_eq_ok, mapError_eq_ok, Prod.mk.injEq,
    validateImportBundle_sealed_iff codec hsize hseals hartifacts hwell hread]
  -- The import validates the bundle and then plans its table: each stage has its own equivalence.
  constructor
  · rintro ⟨_, _, validated, ⟨hdigest, hlimits, rfl⟩, plan, hplan, rows', hdecode, -, rfl, -⟩
    have hplanned := (planTabularImport_exported_iff codec hwritten hlimits.artifactBytes
      hlimits.columns htable).mp ⟨plan, hplan, hdecode⟩
    exact ⟨hdigest, hlimits, hplanned⟩
  · rintro ⟨hdigest, hlimits, hplanned⟩
    let validated : ValidatedBundle φ :=
      ⟨built.bundle, built.canonicalJson, built.contentHash, built.bundle.artifacts,
        request.resource⟩
    have htable' : validated.artifacts = _ := htable
    obtain ⟨plan, hplan, hdecode⟩ :=
      (planTabularImport_exported_iff codec hwritten hlimits.artifactBytes hlimits.columns
      htable').mpr hplanned
    exact ⟨_, _, validated, ⟨hdigest, hlimits, rfl⟩, plan, hplan, _, hdecode, rfl, rfl, rfl⟩

end Import

/-! An exported table of a station -/

namespace Read

variable {φ : Type}

/-- The column types by their names. -/
def tabularColumnType : String → Option TabularColumnType
  | "Boolean" => some .boolean
  | "Int64" => some .int64
  | "Float64" => some .float64
  | "String" => some .string
  | "Uuid" => some .uuid
  | "Timestamp" => some .timestamp
  | _ => none

/-- The entries of a struct that has no other fields. -/
def onlyFields (fields : List String) (value : JsonValue φ) :
    Option (List (String × JsonValue φ)) := do
  let map ← value.entries?
  if map.all fun entry => fields.contains entry.1 then some map else none

/-- `TabularColumn` of a value. -/
def tabularColumn (value : JsonValue φ) : Option TabularColumn := do
  let map ← onlyFields ["name", "type"] value
  let name ← required map "name" Value.string?
  let columnType ← required map "type" fun value => value.string?.bind tabularColumnType
  return ⟨name, columnType⟩

/-- `TabularSchema` of a value. -/
def tabularSchema (value : JsonValue φ) : Option TabularSchema := do
  let map ← onlyFields ["profile", "columns"] value
  let profile ← required map "profile" Value.string?
  let columns ← required map "columns" fun value => value.items?.bind fun items =>
    items.mapM tabularColumn
  return ⟨profile, columns⟩

/-- A structure has its own fields only. -/
theorem onlyFields_structValue (names : List String) {fields : List (String × Option (JsonValue φ))}
    (hnodup : (fields.map Prod.fst).Nodup) (hnames : fields.map Prod.fst = names) :
    onlyFields names (structValue fields) = some (structMap fields) := by
  have hall : (structMap fields).all (fun entry => names.contains entry.1) = true := by
    rw [List.all_eq_true]
    intro entry hentry
    rw [List.contains_iff_mem, ← hnames]
    exact List.mem_map_of_mem ((mem_structMap hnodup).mp hentry)
  rw [onlyFields, entries?_structValue]
  exact if_pos hall

/-- The name of a column type is read as the type. -/
theorem read_columnTypeName (type : TabularColumnType) :
    tabularColumnType type.columnTypeName = some type := by
  cases type <;> rfl

/-- A column that is written is read back. -/
theorem read_tabularColumn (column : TabularColumn) :
    tabularColumn (Write.tabularColumn column : JsonValue φ) = some column := by
  rw [tabularColumn, Write.tabularColumn, onlyFields_structValue _ (by simp) (by simp)]
  simp (disch := simp) [required_structMap, List.lookup_cons, Value.string?, read_columnTypeName]

/-- A written `TabularSchema` is read back. -/
theorem read_tabularSchema (schema : TabularSchema) :
    tabularSchema (Write.tabularSchema schema : JsonValue φ) = some schema := by
  have hcolumns : (schema.columns.map Write.tabularColumn).mapM (tabularColumn (φ := φ)) =
      some schema.columns :=
    mapM_map_of fun column _ => read_tabularColumn column
  rw [tabularSchema, Write.tabularSchema, onlyFields_structValue _ (by simp) (by simp)]
  simp (disch := simp) [required_structMap, List.lookup_cons, Value.string?, Value.items?, hcolumns]

end Read

namespace Station

/-- `serde` and RFC 8785 on numbers without a fraction. -/
def codec : ImportCodec Empty where
  reader := Plain.reader
  uuids := Plain.uuids
  blake3 := fun _ => ⟨List.replicate 32 0, rfl⟩
  canonicalJsonStringV2 := canonicalJsonString Plain.reader.toValueText
  toVec value := (String.ofList (compactText Plain.reader.toValueText value)).toUTF8
  readBundle value := (Read.exportBundle Plain.uuids value).elim (.error "invalid bundle") .ok
  readSchema value := (Read.tabularSchema value).elim (.error "invalid schema") .ok
  syntaxError := fun _ => "expected value"
  parsers := noParsers
  readBundle_write bundle h := by rw [read_exportBundle Plain.uuids h.entries]; rfl
  readSchema_write schema := by rw [Read.read_tabularSchema]; rfl

/-- The resource of the table. -/
def resource : ResourceRef := ⟨1, 7⟩

/-- The rows of the table. -/
def rows : List Json := ["a,\"b\"", ""].map labelRow

/-- The table as it is written. -/
def csv : ByteArray := (String.ofList (encodeRecords [["label"], ["a,\"b\""], [""]])).toUTF8

/-- Where the table is exported to. -/
def csvPath : String := "exports/lis-baixa/readings.csv"

/-- A request for a bundle of the table. -/
def request : BundleRequest Empty where
  resource := resource
  exportedAtUnixMs := 1767225600000
  metadataJsonld := .object [("@type", .string "Dataset")]
  citation :=
    ⟨"7", "Readings", "Demonstrator", "2026", "https://station.example/7", none, none, [], none⟩
  policy := ⟨some .ccBy, none⟩
  artifacts := [tableManifest codec labelSchema csvPath csv (UInt64.ofNat rows.length)]

/-- The entry of the registration. -/
def registration : ProvenanceEntry (JsonValue Empty) :=
  ⟨1, resource, none, .core .created, some "registered", 1000⟩

/-- A store with that entry. -/
def store : ProvenanceStore (JsonValue Empty) := ofVecStore ⟨[registration], false⟩

/-- Where the table is imported to. -/
def target : PlanTarget := ⟨resource, "readings", "snapshot-1", labelSchema, 42⟩

end Station

/-- Values are checked against two of the limits only. -/
theorem enforceJsonLimits_congr {φ : Type} {a b : BundleLimits}
    (hdepth : a.maxJsonDepth = b.maxJsonDepth) (hbytes : a.maxStringBytes = b.maxStringBytes) :
    ∀ (value : JsonValue φ) (depth : Nat),
    enforceJsonLimits a depth value = enforceJsonLimits b depth value := by
  -- Only the depth and the length of text are read of the limits.
  have hitems : ∀ {items : List (JsonValue φ)}, (∀ item ∈ items, ∀ depth,
      enforceJsonLimits a depth item = enforceJsonLimits b depth item) → ∀ depth,
      enforceItemLimits a depth items = enforceItemLimits b depth items := by
    intro items h depth
    induction items with
    | nil => rfl
    | cons item items ih =>
      obtain ⟨hitem, htail⟩ := List.forall_mem_cons.mp h
      rw [enforceItemLimits, enforceItemLimits, hitem, ih htail]
  have hentries : ∀ {entries : List (String × JsonValue φ)}, (∀ entry ∈ entries, ∀ depth,
      enforceJsonLimits a depth entry.2 = enforceJsonLimits b depth entry.2) → ∀ depth,
      enforceEntryLimits a depth entries = enforceEntryLimits b depth entries := by
    intro entries h depth
    induction entries with
    | nil => rfl
    | cons entry entries ih =>
      obtain ⟨hentry, htail⟩ := List.forall_mem_cons.mp h
      rw [enforceEntryLimits, enforceEntryLimits, hentry, hbytes, ih htail]
  exact Value.Cases.all {
    null := fun depth => by rw [enforceJsonLimits, enforceJsonLimits, hdepth]
    bool := fun _ depth => by rw [enforceJsonLimits, enforceJsonLimits, hdepth]
    number := fun _ depth => by rw [enforceJsonLimits, enforceJsonLimits, hdepth]
    string := fun _ depth => by rw [enforceJsonLimits, enforceJsonLimits, hdepth, hbytes]
    array := fun _ ih depth => by rw [enforceJsonLimits, enforceJsonLimits, hdepth, hitems ih]
    object := fun _ ih depth => by rw [enforceJsonLimits, enforceJsonLimits, hdepth, hentries ih] }

open Station in
/-- The exported table is imported with its rows. -/
theorem exportedTable_imported_station :
    ∃ built, buildImportBundle codec request store = .ok built ∧
    ∃ limits validated plan, importTable codec built.canonicalJson.toUTF8 built.contentHash csv
      target limits = .ok (validated, [["a,\"b\""], [""]], plan) := by
  have hmetadata : request.metadataJsonld.Sorted :=
    ⟨List.pairwise_singleton _ "@type", trivial, trivial⟩
  have hentries : ∀ entry ∈ [registration], EntryWellFormed entry :=
    List.forall_mem_singleton.mpr ⟨by simp [registration], by simp [registration], by decide⟩
  have hhistory : store.history resource {} = .ok ⟨resource, [registration]⟩ := rfl
  -- The bundle is built by evaluation, and its depth and its fit are computed.
  obtain ⟨built, hbuild, hdepth, hfits⟩ :
    ∃ built, buildImportBundle codec request store = .ok built ∧
      enforceJsonLimits {} 0 (Write.exportBundle codec.uuids built.bundle) = true ∧
      (Write.exportBundle codec.uuids built.bundle).fits 127 = true :=
    ⟨_, rfl, by decide +kernel, by decide +kernel⟩
  have hseals := seals_of_buildImportBundle codec hhistory hbuild
  have hsorted := sorted_exportBundle codec.uuids (hseals.wellFormed codec rfl hmetadata hentries)
  -- The reader gives back what was written, since the keys are sorted and the depth fits.
  have hdocument : codec.reader.document built.canonicalJson.toUTF8 =
      some (Write.exportBundle codec.uuids built.bundle) := by
    rw [hseals.canonicalJson]
    have hnumbers := Value.numbers_of_forall Plain.roundTrips_number
    exact (document_writeCanonical Plain.reader hsorted (hnumbers _)).trans (if_pos hfits)
  have hread : parseJsonWithoutDuplicateKeys codec built.canonicalJson.toUTF8 =
      .ok (Write.exportBundle codec.uuids built.bundle) := by
    rw [parseJsonWithoutDuplicateKeys, hdocument, Option.bind_some, strictValue_of_sorted hsorted]
  -- The limit on the bundle is its own size; the others stay at their defaults.
  let limits : BundleLimits := { maxBundleBytes := built.canonicalJson.utf8ByteSize }
  have hlimits : KeepsLimits codec limits built labelSchema csvPath csv := by
    refine ⟨le_rfl,
      (enforceJsonLimits_congr (a := limits) (b := {}) rfl rfl _ 0).trans hdepth, ?_, ?_,
      (by decide : 1 ≤ 8), ?_, ?_, rfl, by decide +kernel⟩
    · rw [hseals.metadata]
      exact (by decide +kernel : jsonBytes codec request.metadataJsonld ≤ 512 * 1024)
    · exact (by decide +kernel : jsonBytes codec (Write.tabularSchema labelSchema) ≤ 512 * 1024)
    · exact (by decide +kernel : csv.size ≤ 512 * 1024 * 1024)
    · exact (by decide +kernel : csv.size ≤ 512 * 1024 * 1024)
  exact ⟨built, hbuild, limits,
    (exportedTable_imported_iff codec (writeTabularCsv_labelRows ["a,\"b\"", ""] (by simp))
    (by decide +kernel) rfl hmetadata hhistory hentries hbuild hread).mpr
    ⟨rfl, hlimits, ⟨rfl, rfl, rfl⟩, ⟨by decide, by decide, by decide⟩, (by decide : 2 ≤ 5000000)⟩⟩

end QueryFabric.Portability
