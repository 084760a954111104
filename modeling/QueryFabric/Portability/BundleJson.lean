import QueryFabric.Portability.Serde
import QueryFabric.Provenance

/-!
# The document of an export bundle

`ExportBundle` of `crates/queryfabric-portability/src/bundle.rs` and the types of its fields, with
the JSON that `serde` derives for them: what is written of a bundle (`Write`) and what is read from
it (`Read`). A bundle is read back (`read_exportBundle`), its objects are maps in key order
(`sorted_exportBundle`), and it is as deep as the values that it carries (`fits_exportBundle`).
-/

namespace QueryFabric.Portability

open Access (Uuid ResourceRef Subject)
open Lib.Json
open Provenance (Activity RecordedActivity ProvenanceEntry ProvenanceHistory)

/-- `Uuid::to_string` and its parsing, which reads what it prints. -/
structure UuidText where
  print : Uuid → String
  parse : String → Option Uuid
  parse_print : ∀ id, parse (print id) = some id

/-- `serde_json::Value`. -/
abbrev JsonValue (φ : Type) : Type := Value (Number φ)

/-! ## The types -/

/-- `DataUseRestriction`. -/
structure DataUseRestriction where
  kind : String
  summary : Option String
  sourceUrl : Option String
deriving DecidableEq, Repr

/-- `ArtifactManifest`. -/
structure ArtifactManifest (φ : Type) where
  kind : String
  storageUri : String
  format : String
  schemaFingerprint : String
  contentHash : String
  rowCount : UInt64
  byteCount : Option UInt64
  manifestJson : JsonValue φ

/-- `BundleHeader`. -/
structure BundleHeader where
  version : String
  resource : ResourceRef
  exportedAtUnixMs : Int64
deriving DecidableEq, Repr

/-- `Citations`. -/
structure Citations (φ : Type) where
  bibtex : String
  ris : String
  cslJson : JsonValue φ
  cff : String
  apa : String
  message : String

/-- `LicenseSection`. -/
structure LicenseSection where
  spdxId : String
  rightsUri : String
deriving DecidableEq, Repr

/-- `ExportBundle`. -/
structure ExportBundle (φ : Type) where
  exportBundle : BundleHeader
  metadataJsonld : JsonValue φ
  citations : Citations φ
  provenance : ProvenanceHistory (JsonValue φ)
  license : Option LicenseSection
  dataUseRestriction : Option DataUseRestriction
  artifacts : List (ArtifactManifest φ)

/-! ## Writing -/

section Write

variable {φ : Type} (uuids : UuidText)

/-- What a UUID serializes to. -/
def uuidValue (id : Uuid) : JsonValue φ := .string (uuids.print id)

/-- An unsigned number is in the range of JSON integers. -/
theorem toNat_range (n : UInt64) : -2 ^ 63 ≤ (n.toNat : Int) ∧ (n.toNat : Int) < 2 ^ 64 := by
  have := n.toNat_lt
  omega

/-- A signed number is in the range of JSON integers. -/
theorem toInt_range (n : Int64) : -2 ^ 63 ≤ n.toInt ∧ n.toInt < 2 ^ 64 := by
  have := n.toInt_lt
  have := n.le_toInt
  omega

/-- What a `u64` serializes to. -/
def u64Value (n : UInt64) : JsonValue φ := .number (.int n.toNat (toNat_range n))

/-- What a `u32` serializes to. -/
def u32Value (n : UInt32) : JsonValue φ := u64Value n.toUInt64

/-- What an `i64` serializes to. -/
def i64Value (n : Int64) : JsonValue φ := .number (.int n.toInt (toInt_range n))

namespace Write

/-- What `ResourceRef` serializes to. -/
def resourceRef (resource : ResourceRef) : JsonValue φ :=
  structValue [("namespace", some (uuidValue uuids resource.namespace_)),
    ("id", some (uuidValue uuids resource.id))]

/-- What `Subject` serializes to. -/
def subject (subject : Subject) : JsonValue φ :=
  structValue [("id", some (uuidValue uuids subject.id)),
    ("registered", some (.bool subject.registered)),
    ("attributes", if subject.attributes.isEmpty then none
      else some (.object (subject.attributes.map fun entry => (entry.1, .string entry.2))))]

/-- The tag of an activity and its fields. -/
def activityFields (activity : Activity) : List (String × Option (JsonValue φ)) :=
  ("activity", some (.string activity.tag)) :: match activity with
    | .created | .restored => []
    | .deleted reason => [("reason", some (.string reason))]
    | .accessed rows => [("rows", some (u64Value rows))]
    | .modified field => [("field", some (.string field))]
    | .ownershipTransferred source target =>
      [("from", some (uuidValue uuids source)), ("to", some (uuidValue uuids target))]
    | .contentHashRecorded algo hash =>
      [("algo", some (.string algo)), ("hash", some (.string hash))]
    | .federationFlow nodes latenciesMs => [("nodes", some (.array (nodes.map (uuidValue uuids)))),
        ("latencies_ms", some (.array (latenciesMs.map u32Value)))]
    | .backupAnchor location contentHash => [("location", some (.string location)),
        ("content_hash", some (.string contentHash))]

/-- The fields of a core activity stand beside its scope. -/
def recordedActivity : RecordedActivity (JsonValue φ) → JsonValue φ
  | .core activity =>
    structValue (("scope", some (.string "core")) :: activityFields uuids activity)
  | .domain kind payload =>
    structValue [("scope", some (.string "domain")), ("kind", some (.string kind)),
      ("payload", some payload)]

/-- What `ProvenanceEntry` serializes to. -/
def provenanceEntry (entry : ProvenanceEntry (JsonValue φ)) : JsonValue φ :=
  structValue [("id", some (uuidValue uuids entry.id)),
    ("resource", some (resourceRef uuids entry.resource)),
    ("actor", entry.actor.map (subject uuids)),
    ("activity", some (recordedActivity uuids entry.activity)),
    ("description", entry.description.map .string),
      ("occurredAtUnixMs", some (i64Value (.ofInt entry.occurredAtUnixMs)))]

/-- What `ProvenanceHistory` serializes to. -/
def provenanceHistory (history : ProvenanceHistory (JsonValue φ)) : JsonValue φ :=
  structValue [("resource", some (resourceRef uuids history.resource)),
    ("entries", some (.array (history.entries.map (provenanceEntry uuids))))]

/-- What `BundleHeader` serializes to. -/
def bundleHeader (header : BundleHeader) : JsonValue φ :=
  structValue [("version", some (.string header.version)),
    ("resource", some (resourceRef uuids header.resource)),
    ("exportedAtUnixMs", some (i64Value header.exportedAtUnixMs))]

/-- What `Citations` serializes to. -/
def citations (citations : Citations φ) : JsonValue φ :=
  structValue [("bibtex", some (.string citations.bibtex)), ("ris", some (.string citations.ris)),
    ("cslJson", some citations.cslJson), ("cff", some (.string citations.cff)),
    ("apa", some (.string citations.apa)),
    ("message", some (.string citations.message))]

/-- What `LicenseSection` serializes to. -/
def licenseSection (license : LicenseSection) : JsonValue φ :=
  structValue [("spdxId", some (.string license.spdxId)),
    ("rightsUri", some (.string license.rightsUri))]

/-- What `DataUseRestriction` serializes to. -/
def dataUseRestriction (restriction : DataUseRestriction) : JsonValue φ :=
  structValue [("kind", some (.string restriction.kind)),
    ("summary", restriction.summary.map .string),
    ("sourceUrl", restriction.sourceUrl.map .string)]

/-- What `ArtifactManifest` serializes to. -/
def artifactManifest (artifact : ArtifactManifest φ) : JsonValue φ :=
  structValue [("kind", some (.string artifact.kind)),
    ("storageUri", some (.string artifact.storageUri)),
    ("format", some (.string artifact.format)),
    ("schemaFingerprint", some (.string artifact.schemaFingerprint)),
    ("contentHash", some (.string artifact.contentHash)),
    ("rowCount", some (u64Value artifact.rowCount)),
    ("byteCount", artifact.byteCount.map u64Value),
    ("manifestJson", if artifact.manifestJson.isNull then none else some artifact.manifestJson)]

/-- What `ExportBundle` serializes to. -/
def exportBundle (bundle : ExportBundle φ) : JsonValue φ :=
  structValue [("exportBundle", some (bundleHeader uuids bundle.exportBundle)),
    ("metadataJsonld", some bundle.metadataJsonld),
    ("citations", some (citations bundle.citations)),
    ("provenance", some (provenanceHistory uuids bundle.provenance)),
    ("license", bundle.license.map licenseSection),
    ("dataUseRestriction", bundle.dataUseRestriction.map dataUseRestriction),
    ("artifacts", if bundle.artifacts.isEmpty then
      none else some (.array (bundle.artifacts.map artifactManifest)))]

end Write

end Write

/-! ## Reading -/

section Read

variable {φ : Type} (uuids : UuidText)

/-- A UUID of a value. -/
def uuid? (value : JsonValue φ) : Option Uuid := value.string?.bind uuids.parse

/-- A `u64` of a value. -/
def u64? : JsonValue φ → Option UInt64
  | .number (.int n _) => if 0 ≤ n ∧ n < 2 ^ 64 then some (UInt64.ofNat n.toNat) else none
  | _ => none

/-- A `u32` of a value. -/
def u32? : JsonValue φ → Option UInt32
  | .number (.int n _) => if 0 ≤ n ∧ n < 2 ^ 32 then some (UInt32.ofNat n.toNat) else none
  | _ => none

/-- An `i64` of a value. -/
def i64? : JsonValue φ → Option Int64
  | .number (.int n _) => if -2 ^ 63 ≤ n ∧ n < 2 ^ 63 then some (Int64.ofInt n) else none
  | _ => none

namespace Read

/-- `ResourceRef` of a value. -/
def resourceRef (value : JsonValue φ) : Option ResourceRef := do
  let map ← value.entries?
  let namespace_ ← required map "namespace" (uuid? uuids)
  let id ← required map "id" (uuid? uuids)
  return ⟨namespace_, id⟩

/-- A `BTreeMap` of strings. -/
def stringMap (value : JsonValue φ) : Option (List (String × String)) := do
  let entries ← value.entries?
  let entries ← entries.mapM fun (key, value) => value.string?.map fun text => (key, text)
  return entries.foldl (fun map entry => mapInsert (fun a b => decide (a < b)) entry.1 entry.2 map)
    []

/-- `Subject` of a value. -/
def subject (value : JsonValue φ) : Option Subject := do
  let map ← value.entries?
  let id ← required map "id" (uuid? uuids)
  let registered ← required map "registered" Value.bool?
  let attributes ← defaulted map "attributes" [] stringMap
  return ⟨id, registered, attributes⟩

/-- The activity of a tag. -/
def activity (map : List (String × JsonValue φ)) : Option Activity := do
  -- The tag of the variant stands beside its fields.
  match ← required map "activity" Value.string? with
  | "created" => return .created
  | "deleted" => return .deleted (← required map "reason" Value.string?)
  | "restored" => return .restored
  | "accessed" => return .accessed (← required map "rows" u64?)
  | "modified" => return .modified (← required map "field" Value.string?)
  | "ownership_transferred" =>
    return .ownershipTransferred (← required map "from" (uuid? uuids))
      (← required map "to" (uuid? uuids))
  | "content_hash_recorded" =>
    return .contentHashRecorded (← required map "algo" Value.string?)
      (← required map "hash" Value.string?)
  | "federation_flow" =>
    let nodes ← required map "nodes" fun value => value.items?.bind fun items =>
      items.mapM (uuid? uuids)
    let latenciesMs ← required map "latencies_ms" fun value => value.items?.bind fun items =>
      items.mapM u32?
    return .federationFlow nodes latenciesMs
  | "backup_anchor" =>
    return .backupAnchor (← required map "location" Value.string?)
      (← required map "content_hash" Value.string?)
  | _ => none

/-- `RecordedActivity` of a value. -/
def recordedActivity (value : JsonValue φ) : Option (RecordedActivity (JsonValue φ)) := do
  let map ← value.entries?
  match ← required map "scope" Value.string? with
  | "core" => return .core (← activity uuids map)
  | "domain" => return .domain (← required map "kind" Value.string?) (← required map "payload" some)
  | _ => none

/-- `ProvenanceEntry` of a value. -/
def provenanceEntry (value : JsonValue φ) : Option (ProvenanceEntry (JsonValue φ)) := do
  let map ← value.entries?
  let id ← required map "id" (uuid? uuids)
  let resource ← required map "resource" (resourceRef uuids)
  let actor ← optional map "actor" (subject uuids)
  let activity ← required map "activity" (recordedActivity uuids)
  let description ← optional map "description" Value.string?
  let occurredAtUnixMs ← required map "occurredAtUnixMs" i64?
  return ⟨id, resource, actor, activity, description, occurredAtUnixMs.toInt⟩

/-- `ProvenanceHistory` of a value. -/
def provenanceHistory (value : JsonValue φ) : Option (ProvenanceHistory (JsonValue φ)) := do
  let map ← value.entries?
  let resource ← required map "resource" (resourceRef uuids)
  let entries ← required map "entries" fun value => value.items?.bind fun items =>
    items.mapM (provenanceEntry uuids)
  return ⟨resource, entries⟩

/-- `BundleHeader` of a value. -/
def bundleHeader (value : JsonValue φ) : Option BundleHeader := do
  let map ← value.entries?
  let version ← required map "version" Value.string?
  let resource ← required map "resource" (resourceRef uuids)
  let exportedAtUnixMs ← required map "exportedAtUnixMs" i64?
  return ⟨version, resource, exportedAtUnixMs⟩

/-- `Citations` of a value. -/
def citations (value : JsonValue φ) : Option (Citations φ) := do
  let map ← value.entries?
  let bibtex ← required map "bibtex" Value.string?
  let ris ← required map "ris" Value.string?
  let cslJson ← required map "cslJson" some
  let cff ← required map "cff" Value.string?
  let apa ← required map "apa" Value.string?
  let message ← required map "message" Value.string?
  return ⟨bibtex, ris, cslJson, cff, apa, message⟩

/-- `LicenseSection` of a value. -/
def licenseSection (value : JsonValue φ) : Option LicenseSection := do
  let map ← value.entries?
  let spdxId ← required map "spdxId" Value.string?
  let rightsUri ← required map "rightsUri" Value.string?
  return ⟨spdxId, rightsUri⟩

/-- `DataUseRestriction` of a value. -/
def dataUseRestriction (value : JsonValue φ) : Option DataUseRestriction := do
  let map ← value.entries?
  let kind ← required map "kind" Value.string?
  let summary ← optional map "summary" Value.string?
  let sourceUrl ← optional map "sourceUrl" Value.string?
  return ⟨kind, summary, sourceUrl⟩

/-- `ArtifactManifest` of a value. -/
def artifactManifest (value : JsonValue φ) : Option (ArtifactManifest φ) := do
  let map ← value.entries?
  let kind ← required map "kind" Value.string?
  let storageUri ← required map "storageUri" Value.string?
  let format ← required map "format" Value.string?
  let schemaFingerprint ← required map "schemaFingerprint" Value.string?
  let contentHash ← required map "contentHash" Value.string?
  let rowCount ← required map "rowCount" u64?
  let byteCount ← optional map "byteCount" u64?
  let manifestJson ← defaulted map "manifestJson" .null some
  return ⟨kind, storageUri, format, schemaFingerprint, contentHash, rowCount, byteCount,
    manifestJson⟩

/-- `ExportBundle` of a value. -/
def exportBundle (value : JsonValue φ) : Option (ExportBundle φ) := do
  let map ← value.entries?
  let header ← required map "exportBundle" (bundleHeader uuids)
  let metadataJsonld ← required map "metadataJsonld" some
  let citations ← required map "citations" citations
  let provenance ← required map "provenance" (provenanceHistory uuids)
  let license ← optional map "license" licenseSection
  let restriction ← optional map "dataUseRestriction" dataUseRestriction
  let artifacts ← defaulted map "artifacts" [] fun value => value.items?.bind fun items =>
    items.mapM artifactManifest
  return ⟨header, metadataJsonld, citations, provenance, license, restriction, artifacts⟩

end Read

end Read

/-! ## What is written is read -/

section RoundTrip

variable {φ : Type} (uuids : UuidText)

/-- What the types of an entry promise: the attributes and the objects of a payload are maps in key
order, and the time is an `i64`. -/
structure EntryWellFormed (entry : ProvenanceEntry (JsonValue φ)) : Prop where
  attributes : ∀ subject ∈ entry.actor, KeysSorted (fun a b => decide (a < b)) subject.attributes
  payload : ∀ kind payload, entry.activity = .domain kind payload → payload.Sorted
  time : -2 ^ 63 ≤ entry.occurredAtUnixMs ∧ entry.occurredAtUnixMs < 2 ^ 63

/-- A written UUID is read back. -/
theorem uuid?_uuidValue (id : Uuid) : uuid? uuids (uuidValue uuids id : JsonValue φ) = some id :=
  uuids.parse_print id

/-- The entries of a structure's object. -/
theorem entries?_structValue {ν : Type} (fields : List (String × Option (Value ν))) :
    (structValue fields).entries? = some (structMap fields) := rfl

/-- A written `u64` is read back. -/
theorem u64?_u64Value (n : UInt64) : u64? (u64Value n : JsonValue φ) = some n := by
  have hrange : 0 ≤ (n.toNat : Int) ∧ (n.toNat : Int) < 2 ^ 64 :=
    ⟨Int.natCast_nonneg _, (toNat_range n).2⟩
  rw [u64Value, u64?, if_pos hrange, Int.toNat_natCast, UInt64.ofNat_toNat]

/-- A written `u32` is read back. -/
theorem u32?_u32Value (n : UInt32) : u32? (u32Value n : JsonValue φ) = some n := by
  have hrange : 0 ≤ (n.toUInt64.toNat : Int) ∧ (n.toUInt64.toNat : Int) < 2 ^ 32 := by
    rw [UInt32.toNat_toUInt64]
    have := n.toNat_lt
    omega
  rw [u32Value, u64Value, u32?, if_pos hrange, Int.toNat_natCast, UInt32.toNat_toUInt64,
    UInt32.ofNat_toNat]

/-- A written `i64` is read back. -/
theorem i64?_i64Value (n : Int64) : i64? (i64Value n : JsonValue φ) = some n := by
  have hrange : -2 ^ 63 ≤ n.toInt ∧ n.toInt < 2 ^ 63 := ⟨n.le_toInt, n.toInt_lt⟩
  rw [i64Value, i64?, if_pos hrange, Int64.ofInt_toInt]

/-- A written `ResourceRef` is read back. -/
theorem read_resourceRef (resource : ResourceRef) :
    Read.resourceRef uuids (Write.resourceRef uuids resource : JsonValue φ) = some resource := by
  rw [Read.resourceRef, Write.resourceRef, entries?_structValue]
  simp (disch := simp) [required_structMap, List.lookup_cons, uuid?_uuidValue]

/-- A written map of texts is read back, if its keys are sorted. -/
theorem read_stringMap {attributes : List (String × String)}
    (h : KeysSorted (fun a b => decide (a < b)) attributes) :
    Read.stringMap (Value.object (attributes.map fun entry => (entry.1, .string entry.2)) :
      JsonValue φ) = some attributes := by
  have hentries : (attributes.map fun entry => (entry.1, (.string entry.2 : JsonValue φ))).mapM
      (fun (key, value) => value.string?.map fun text => (key, text)) = some attributes :=
        mapM_map_of fun _ _ => rfl
  rw [Read.stringMap, Value.entries?, Option.bind_eq_bind, Option.bind_some, hentries,
    Option.bind_eq_bind, Option.bind_some, foldl_mapInsert_entries isKeyOrder_string h]
  rfl

/-- A written `Subject` is read back, if its attributes are sorted. -/
theorem read_subject {subject : Subject}
    (h : KeysSorted (fun a b => decide (a < b)) subject.attributes) :
    Read.subject uuids (Write.subject uuids subject : JsonValue φ) = some subject := by
  obtain ⟨id, registered, attributes⟩ := subject
  rw [Read.subject, Write.subject, entries?_structValue]
  dsimp only at h ⊢
  -- No attributes are skipped, and read as the default.
  generalize hvalue : (if attributes.isEmpty then none
    else some (Value.object (attributes.map fun entry => (entry.1, .string entry.2)) :
      JsonValue φ)) = value
  have hattributes : value.elim (some []) Read.stringMap = some attributes := by
    rw [← hvalue]
    split
    · rename_i hempty
      rw [List.isEmpty_iff.mp hempty]
      rfl
    · exact read_stringMap h
  simp (disch := simp) [required_structMap, defaulted_structMap, List.lookup_cons, uuid?_uuidValue,
    Value.bool?, hattributes]

/-- The fields of a core activity, its scope among them, have different names. -/
theorem nodup_activityFields (activity : Activity) :
    ((("scope", some (.string "core")) ::
      Write.activityFields (φ := φ) uuids activity).map Prod.fst).Nodup := by
  cases activity <;> simp [Write.activityFields]

/-- The tag of an activity is read first, and then the fields that it has. -/
theorem read_activity (activity : Activity) :
    Read.activity uuids
      (structMap (("scope", some (.string "core")) :: Write.activityFields uuids activity) :
      List (String × JsonValue φ)) = some activity := by
  have hnodes (nodes : List Uuid) :
    (nodes.map (uuidValue uuids : Uuid → JsonValue φ)).mapM (uuid? uuids) =
      some nodes := mapM_map_of fun id _ => uuid?_uuidValue uuids id
  have hlatencies (latenciesMs : List UInt32) :
      (latenciesMs.map (u32Value : UInt32 → JsonValue φ)).mapM u32? = some latenciesMs :=
    mapM_map_of fun ms _ => u32?_u32Value ms
  have hnodup := nodup_activityFields (φ := φ) uuids activity
  have htag : required (structMap (("scope", some (.string "core")) ::
      Write.activityFields (φ := φ) uuids activity)) "activity" Value.string? =
        some activity.tag := by
    rw [required_structMap hnodup]
    simp [Write.activityFields, List.lookup_cons, Value.string?]
  rw [Read.activity, htag, Option.bind_eq_bind, Option.bind_some]
  simp only [required_structMap hnodup]
  cases activity <;>
    simp -implicitDefEqProofs only [Activity.tag, Write.activityFields, List.lookup_cons,
      String.reduceBEq, Option.join_some, Option.bind_some, Option.bind_eq_bind, Option.pure_def,
      Value.string?, Value.items?, uuid?_uuidValue, u64?_u64Value, hnodes, hlatencies]

/-- A written `RecordedActivity` is read back. -/
theorem read_recordedActivity (activity : RecordedActivity (JsonValue φ)) :
    Read.recordedActivity uuids (Write.recordedActivity uuids activity) = some activity := by
  rw [Read.recordedActivity]
  cases activity with
  | core activity =>
    rw [Write.recordedActivity, entries?_structValue, Option.bind_eq_bind, Option.bind_some,
      required_structMap (nodup_activityFields uuids activity)]
    simp [Value.string?, read_activity]
  | domain kind payload =>
    rw [Write.recordedActivity, entries?_structValue]
    simp (disch := simp) [required_structMap, List.lookup_cons, Value.string?]

/-- An optional text is read back. -/
theorem decodeOption_strings (text : Option String) :
    decodeOption Value.string? (text.map (.string : String → JsonValue φ)) = some text :=
  decodeOption_map text (fun _ => rfl) fun _ _ => rfl

/-- A written `ProvenanceEntry` is read back, if it is well formed. -/
theorem read_provenanceEntry {entry : ProvenanceEntry (JsonValue φ)} (h : EntryWellFormed entry) :
    Read.provenanceEntry uuids (Write.provenanceEntry uuids entry) = some entry := by
  have hactor : decodeOption (Read.subject uuids)
    (entry.actor.map (Write.subject uuids : Subject → JsonValue φ)) =
      some entry.actor :=
    decodeOption_map entry.actor (fun _ => rfl) fun subject hsubject =>
      read_subject uuids (h.attributes subject hsubject)
  have htime : (Int64.ofInt entry.occurredAtUnixMs).toInt = entry.occurredAtUnixMs :=
    Int64.toInt_ofInt_of_le h.time.1 h.time.2
  rw [Read.provenanceEntry, Write.provenanceEntry, entries?_structValue]
  simp -implicitDefEqProofs (disch := simp)
    [required_structMap, optional_structMap, List.lookup_cons, uuid?_uuidValue,
    read_resourceRef, read_recordedActivity, decodeOption_strings, i64?_i64Value, hactor, htime]

/-- A written `ProvenanceHistory` is read back, if its entries are well formed. -/
theorem read_provenanceHistory {history : ProvenanceHistory (JsonValue φ)}
    (h : ∀ entry ∈ history.entries, EntryWellFormed entry) :
    Read.provenanceHistory uuids (Write.provenanceHistory uuids history) = some history := by
  have hentries : (history.entries.map (Write.provenanceEntry uuids)).mapM
    (Read.provenanceEntry uuids) =
      some history.entries := mapM_map_of fun entry hentry =>
        read_provenanceEntry uuids (h entry hentry)
  rw [Read.provenanceHistory, Write.provenanceHistory, entries?_structValue]
  simp (disch := simp) only [required_structMap, List.lookup_cons, String.reduceBEq,
    beq_self_eq_true,
    Option.join_some, Option.bind_some, Option.bind_eq_bind, Option.pure_def, read_resourceRef,
    Value.items?, hentries]

/-- A written `BundleHeader` is read back. -/
theorem read_bundleHeader (header : BundleHeader) :
    Read.bundleHeader uuids (Write.bundleHeader uuids header : JsonValue φ) = some header := by
  rw [Read.bundleHeader, Write.bundleHeader, entries?_structValue]
  simp -implicitDefEqProofs (disch := simp)
    [required_structMap, List.lookup_cons, Value.string?, read_resourceRef,
    i64?_i64Value]

/-- A written `Citations` is read back. -/
theorem read_citations (citations : Citations φ) :
    Read.citations (Write.citations citations) = some citations := by
  rw [Read.citations, Write.citations, entries?_structValue]
  simp (disch := simp) [required_structMap, List.lookup_cons, Value.string?]

/-- A written `LicenseSection` is read back. -/
theorem read_licenseSection (license : LicenseSection) :
    Read.licenseSection (Write.licenseSection license : JsonValue φ) = some license := by
  rw [Read.licenseSection, Write.licenseSection, entries?_structValue]
  simp (disch := simp) [required_structMap, List.lookup_cons, Value.string?]

/-- A written `DataUseRestriction` is read back. -/
theorem read_dataUseRestriction (restriction : DataUseRestriction) :
    Read.dataUseRestriction (Write.dataUseRestriction restriction : JsonValue φ) =
      some restriction := by
  rw [Read.dataUseRestriction, Write.dataUseRestriction, entries?_structValue]
  simp (disch := simp) [required_structMap, optional_structMap, List.lookup_cons, Value.string?,
    decodeOption_strings]

/-- A written `ArtifactManifest` is read back. -/
theorem read_artifactManifest (artifact : ArtifactManifest φ) :
    Read.artifactManifest (Write.artifactManifest artifact) = some artifact := by
  obtain ⟨kind, storageUri, format, schemaFingerprint, contentHash, rowCount, byteCount,
      manifestJson⟩ := artifact
  have hcount : decodeOption u64? (byteCount.map (u64Value : UInt64 → JsonValue φ)) =
      some byteCount :=
    decodeOption_map byteCount (fun _ => rfl) fun count _ => u64?_u64Value count
  rw [Read.artifactManifest, Write.artifactManifest, entries?_structValue]
  dsimp only
  generalize hvalue : (if manifestJson.isNull then none else some manifestJson) = value
  -- `null` is skipped, and is the default.
  have hmanifest : value.elim (some .null) some = some manifestJson := by
    rw [← hvalue]
    cases manifestJson <;> rfl
  simp -implicitDefEqProofs (disch := simp)
    [required_structMap, optional_structMap, defaulted_structMap,
    List.lookup_cons, Value.string?, u64?_u64Value, hcount, hmanifest]

/-- A written `ExportBundle` is read back, if its provenance is well formed. -/
theorem read_exportBundle {bundle : ExportBundle φ}
    (h : ∀ entry ∈ bundle.provenance.entries, EntryWellFormed entry) :
    Read.exportBundle uuids (Write.exportBundle uuids bundle) = some bundle := by
  obtain ⟨header, metadataJsonld, citations, provenance, license, restriction, artifacts⟩ := bundle
  have hlicense : decodeOption Read.licenseSection
    (license.map (Write.licenseSection : LicenseSection → JsonValue φ)) =
      some license := decodeOption_map license (fun _ => rfl) fun license _ =>
        read_licenseSection license
  have hrestriction : decodeOption Read.dataUseRestriction
      (restriction.map (Write.dataUseRestriction : DataUseRestriction → JsonValue φ)) =
        some restriction :=
    decodeOption_map restriction (fun _ => rfl) fun restriction _ =>
      read_dataUseRestriction restriction
  have hprovenance := read_provenanceHistory uuids h
  rw [Read.exportBundle, Write.exportBundle, entries?_structValue]
  dsimp only at hprovenance ⊢
  generalize hvalue : (if artifacts.isEmpty then none
    else some (Value.array (artifacts.map Write.artifactManifest))) = value
  -- No artifacts are skipped, and read as the default.
  have hartifacts : value.elim (some [])
    (fun value => value.items?.bind fun items => items.mapM Read.artifactManifest) =
      some artifacts := by
    rw [← hvalue]
    split
    · rename_i hempty
      rw [List.isEmpty_iff.mp hempty]
      rfl
    · exact mapM_map_of fun artifact _ => read_artifactManifest artifact
  simp (disch := simp)
    [required_structMap, optional_structMap, defaulted_structMap, List.lookup_cons,
    read_bundleHeader, read_citations, hprovenance, hlicense, hrestriction, hartifacts]

end RoundTrip

/-! ## What a bundle inherits -/

section Inherited

variable {φ : Type} (uuids : UuidText) {P : JsonValue φ → Prop} (hP : Inherited P)
  (hint : ∀ value range, P (.number (.int value range)))

include hP

/-- What `ResourceRef` serializes to has the property. -/
theorem inherited_resourceRef (resource : ResourceRef) : P (Write.resourceRef uuids resource) :=
  hP.structValue (by simp) (by simp [uuidValue, hP.string])

/-- What `Subject` serializes to has the property. -/
theorem inherited_subject {subject : Subject}
    (h : KeysSorted (fun a b => decide (a < b)) subject.attributes) :
    P (Write.subject uuids subject) := by
  have hkeys : KeysSorted (fun a b => decide (a < b))
      (subject.attributes.map fun entry => (entry.1, (.string entry.2 : JsonValue φ))) := by
    rw [keysSorted_string_iff, List.map_map]
    exact keysSorted_string_iff.mp h
  have hmap := hP.object _ hkeys (List.forall_mem_map.mpr fun _ _ => hP.string _)
  exact hP.structValue (by simp) (by simp [uuidValue, hP.bool, hP.string, hmap])

/-- What `LicenseSection` serializes to has the property. -/
theorem inherited_licenseSection (license : LicenseSection) : P (Write.licenseSection license) :=
  hP.structValue (by simp) (by simp [hP.string])

/-- What `DataUseRestriction` serializes to has the property. -/
theorem inherited_dataUseRestriction (restriction : DataUseRestriction) :
    P (Write.dataUseRestriction restriction) :=
  hP.structValue (by simp) (by simp [hP.string])

/-- What `Citations` serializes to has the property. -/
theorem inherited_citations {citations : Citations φ} (h : P citations.cslJson) :
    P (Write.citations citations) :=
  hP.structValue (by simp) (by simp [hP.string, h])

include hint

/-- What `RecordedActivity` serializes to has the property. -/
theorem inherited_recordedActivity {activity : RecordedActivity (JsonValue φ)}
    (h : ∀ kind payload, activity = .domain kind payload → P payload) :
    P (Write.recordedActivity uuids activity) := by
  cases activity with
  | core activity =>
    refine hP.structValue (nodup_activityFields uuids activity) ?_
    cases activity <;>
      simp [Write.activityFields, uuidValue, u64Value, u32Value, hP.string, hP.array, hint]
  | domain kind payload =>
    exact hP.structValue (by simp) (by simp [hP.string, h kind payload rfl])

/-- What `ProvenanceEntry` serializes to has the property. -/
theorem inherited_provenanceEntry {entry : ProvenanceEntry (JsonValue φ)}
    (hattributes : ∀ subject ∈ entry.actor,
      KeysSorted (fun a b => decide (a < b)) subject.attributes)
    (hpayload : ∀ kind payload, entry.activity = .domain kind payload → P payload) :
    P (Write.provenanceEntry uuids entry) := by
  have hactor : ∀ subject, entry.actor = some subject → P (Write.subject uuids subject) :=
    fun subject hsubject => inherited_subject uuids hP (hattributes subject hsubject)
  have hresource := inherited_resourceRef uuids hP entry.resource
  have hactivity := inherited_recordedActivity uuids hP hint hpayload
  refine hP.structValue (by simp) ?_
  simpa [uuidValue, i64Value, hP.string, hint, hresource, hactivity] using hactor

/-- What `BundleHeader` serializes to has the property. -/
theorem inherited_bundleHeader (header : BundleHeader) : P (Write.bundleHeader uuids header) :=
  hP.structValue (by simp)
    (by simp [i64Value, hP.string, hint, inherited_resourceRef uuids hP header.resource])

/-- What `ArtifactManifest` serializes to has the property. -/
theorem inherited_artifactManifest {artifact : ArtifactManifest φ} (h : P artifact.manifestJson) :
    P (Write.artifactManifest artifact) :=
  hP.structValue (by simp) (by simp [u64Value, hP.string, hint, h])

/-- What `ExportBundle` serializes to has the property when the values that it carries have it. -/
theorem inherited_exportBundle {bundle : ExportBundle φ} (hmetadata : P bundle.metadataJsonld)
    (hcslJson : P bundle.citations.cslJson)
    (hattributes : ∀ entry ∈ bundle.provenance.entries, ∀ subject ∈ entry.actor,
      KeysSorted (fun a b => decide (a < b)) subject.attributes)
    (hpayloads : ∀ entry ∈ bundle.provenance.entries, ∀ kind payload,
      entry.activity = .domain kind payload → P payload)
    (hmanifests : ∀ artifact ∈ bundle.artifacts, P artifact.manifestJson) :
    P (Write.exportBundle uuids bundle) := by
  have hheader := inherited_bundleHeader uuids hP hint bundle.exportBundle
  have hcitations := inherited_citations hP hcslJson
  have hhistory : P (Write.provenanceHistory uuids bundle.provenance) := by
    refine hP.structValue (by simp) ?_
    simpa [inherited_resourceRef uuids hP] using
      hP.array _ (List.forall_mem_map.mpr fun entry hentry =>
        inherited_provenanceEntry uuids hP hint (hattributes entry hentry)
          (hpayloads entry hentry))
  have hartifacts := hP.array _ (List.forall_mem_map.mpr fun artifact hartifact =>
    inherited_artifactManifest hP hint (hmanifests artifact hartifact))
  refine hP.structValue (by simp) ?_
  simpa [hmetadata, hheader, hcitations, hhistory, inherited_licenseSection hP,
    inherited_dataUseRestriction hP] using fun _ => hartifacts

end Inherited

section Order

variable {φ : Type} (uuids : UuidText)

/-- What the types of a bundle promise. -/
structure ExportBundle.WellFormed (bundle : ExportBundle φ) : Prop where
  metadata : bundle.metadataJsonld.Sorted
  cslJson : bundle.citations.cslJson.Sorted
  entries : ∀ entry ∈ bundle.provenance.entries, EntryWellFormed entry
  manifests : ∀ artifact ∈ bundle.artifacts, artifact.manifestJson.Sorted

/-- What `ExportBundle` serializes to is sorted. -/
theorem sorted_exportBundle {bundle : ExportBundle φ} (h : bundle.WellFormed) :
    (Write.exportBundle uuids bundle).Sorted :=
  inherited_exportBundle uuids inherited_sorted (fun _ _ => trivial) h.metadata h.cslJson
    (fun entry hentry => (h.entries entry hentry).attributes)
    (fun entry hentry => (h.entries entry hentry).payload) h.manifests

end Order

/-! ## The depth -/

section Depth

variable {φ : Type} (uuids : UuidText)

/-- What `ResourceRef` serializes to is one level deep. -/
theorem fits_resourceRef (depth : Nat) (resource : ResourceRef) :
    (Write.resourceRef uuids resource : JsonValue φ).fits (depth + 1) = true :=
  (fits_structValue (by simp) depth).mpr (by simp [uuidValue, Value.fits])

/-- What `Subject` serializes to is two levels deep. -/
theorem fits_subject (depth : Nat) (subject : Subject) :
    (Write.subject uuids subject : JsonValue φ).fits (depth + 2) = true := by
  have hmap : (Value.object (subject.attributes.map fun entry => (entry.1, .string entry.2)) :
    JsonValue φ).fits
      (depth + 1) = true := Value.fitEntries_iff.mpr (List.forall_mem_map.mpr fun _ _ => rfl)
  refine (fits_structValue (by simp) _).mpr ?_
  generalize Value.object _ = value at hmap ⊢
  simp [uuidValue, Value.fits, hmap]

/-- How deep the payload of a domain activity is. -/
def activityFits (depth : Nat) : RecordedActivity (JsonValue φ) → Bool
  | .core _ => true
  | .domain _ payload => payload.fits depth

/-- What `RecordedActivity` serializes to is as deep as its payload. -/
theorem fits_recordedActivity (depth : Nat) (activity : RecordedActivity (JsonValue φ)) :
    (Write.recordedActivity uuids activity).fits (depth + 2) =
      activityFits (depth + 1) activity := by
  rw [Bool.eq_iff_iff]
  cases activity with
  | core activity =>
    refine iff_of_true ((fits_structValue (nodup_activityFields uuids activity) _).mpr ?_) rfl
    cases activity <;>
      simp [Write.activityFields, uuidValue, u64Value, u32Value, Value.fits, Value.fitItems_iff]
  | domain kind payload =>
    rw [Write.recordedActivity, fits_structValue (by simp)]
    simp [Value.fits, activityFits]

/-- What `ProvenanceEntry` serializes to is as deep as its activity. -/
theorem fits_provenanceEntry (depth : Nat) (entry : ProvenanceEntry (JsonValue φ)) :
    (Write.provenanceEntry uuids entry).fits (depth + 3) =
      activityFits (depth + 1) entry.activity := by
  rw [Bool.eq_iff_iff, Write.provenanceEntry, fits_structValue (by simp)]
  simp [uuidValue, i64Value, Value.fits, fits_resourceRef, fits_subject, fits_recordedActivity]

/-- What `ProvenanceHistory` serializes to is as deep as its activities. -/
theorem fits_provenanceHistory (depth : Nat) (history : ProvenanceHistory (JsonValue φ)) :
    (Write.provenanceHistory uuids history).fits (depth + 5) =
      history.entries.all fun entry => activityFits (depth + 1) entry.activity := by
  rw [Bool.eq_iff_iff, Write.provenanceHistory, fits_structValue (by simp)]
  simp [Value.fits, Value.fitItems_iff, fits_resourceRef, fits_provenanceEntry]

/-- What `BundleHeader` serializes to is two levels deep. -/
theorem fits_bundleHeader (depth : Nat) (header : BundleHeader) :
    (Write.bundleHeader uuids header : JsonValue φ).fits (depth + 2) = true :=
  (fits_structValue (by simp) _).mpr (by simp [i64Value, Value.fits, fits_resourceRef])

/-- What `Citations` serializes to is as deep as its CSL JSON. -/
theorem fits_citations (depth : Nat) (citations : Citations φ) :
    (Write.citations citations).fits (depth + 1) = citations.cslJson.fits depth := by
  rw [Bool.eq_iff_iff, Write.citations, fits_structValue (by simp)]
  simp [Value.fits]

/-- What `LicenseSection` serializes to is one level deep. -/
theorem fits_licenseSection (depth : Nat) (license : LicenseSection) :
    (Write.licenseSection license : JsonValue φ).fits (depth + 1) = true :=
  (fits_structValue (by simp) _).mpr (by simp [Value.fits])

/-- What `DataUseRestriction` serializes to is one level deep. -/
theorem fits_dataUseRestriction (depth : Nat) (restriction : DataUseRestriction) :
    (Write.dataUseRestriction restriction : JsonValue φ).fits (depth + 1) = true :=
  (fits_structValue (by simp) _).mpr (by simp [Value.fits])

/-- `null` is as deep as nothing. -/
theorem fits_of_isNull {value : JsonValue φ} (h : value.isNull = true) (depth : Nat) :
    value.fits depth = true := by
  cases value with
  | null => cases depth <;> rfl
  | _ => cases h

/-- What `ArtifactManifest` serializes to is as deep as its manifest. -/
theorem fits_artifactManifest (depth : Nat) (artifact : ArtifactManifest φ) :
    (Write.artifactManifest artifact).fits (depth + 1) = artifact.manifestJson.fits depth := by
  have hskipped : (artifact.manifestJson.isNull = false → artifact.manifestJson.fits depth = true) ↔
      artifact.manifestJson.fits depth = true := by
    cases hvalue : artifact.manifestJson.isNull with
    | false => exact imp_iff_right rfl
    | true => exact iff_of_true (fun h => Bool.noConfusion h) (fits_of_isNull hvalue depth)
  rw [Bool.eq_iff_iff, Write.artifactManifest, fits_structValue (by simp), ← hskipped]
  simp [u64Value, Value.fits]

/-- What bounds the depth of a bundle: the values that are carried in it. -/
theorem fits_exportBundle (depth : Nat) (bundle : ExportBundle φ) :
    (Write.exportBundle uuids bundle).fits (depth + 6) = (bundle.metadataJsonld.fits (depth + 5) &&
      bundle.citations.cslJson.fits (depth + 4) &&
      (bundle.provenance.entries.all fun entry => activityFits (depth + 1) entry.activity) &&
      bundle.artifacts.all fun artifact => artifact.manifestJson.fits (depth + 3)) := by
  have hskipped : (bundle.artifacts ≠ [] → ∀ artifact ∈ bundle.artifacts,
    artifact.manifestJson.fits (depth + 3) = true) ↔
      ∀ artifact ∈ bundle.artifacts, artifact.manifestJson.fits (depth + 3) = true :=
    ⟨fun h artifact hartifact => h (List.ne_nil_of_mem hartifact) artifact hartifact, fun h _ => h⟩
  rw [Bool.eq_iff_iff, Write.exportBundle, fits_structValue (by simp)]
  simp [Value.fits, Value.fitItems_iff, fits_bundleHeader, fits_citations, fits_provenanceHistory,
    fits_licenseSection, fits_dataUseRestriction, fits_artifactManifest, and_assoc, hskipped]

end Depth

end QueryFabric.Portability
