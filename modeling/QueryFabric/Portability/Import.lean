import QueryFabric.Dialect.Helpers
import QueryFabric.Lib.Succeeds
import QueryFabric.Portability.Bundle
import QueryFabric.Portability.Tabular
import Mathlib.Data.List.Infix

/-!
# Imports of bundles

`validate_import_bundle` and `plan_tabular_import` of
`crates/queryfabric-portability/src/import.rs`: a bundle 2.0 is read strictly and checked against
its digest and the limits of the host, and a staged artifact is checked against the one table that
the bundle declares.
-/

namespace QueryFabric.Portability

open Lib.Json
open Access (Uuid ResourceRef)
open Lib (require)

/-! ## Limits and errors -/

/-- `ImportLimits`, with the limits on bundles beside those on the profile. -/
structure BundleLimits extends ImportLimits where
  maxBundleBytes : Nat := 8 * 1024 * 1024
  maxJsonDepth : Nat := 32
  maxStringBytes : Nat := 256 * 1024
  maxArtifacts : Nat := 8
  maxArtifactBytes : Nat := 512 * 1024 * 1024
  maxTotalArtifactBytes : Nat := 512 * 1024 * 1024
  maxExtensionBytes : Nat := 512 * 1024
deriving DecidableEq, Repr

/-- `ImportError`, with the errors of bundles beside those of the profile. -/
inductive BundleImportError
  | bundleTooLarge
  | artifactTooLarge
  | aggregateArtifactTooLarge
  | invalidJson (message : String)
  | jsonLimits
  | unsupportedVersion (version : String)
  | invalidDigest
  | digestMismatch
  | tooManyArtifacts
  | duplicateArtifact
  | invalidManifest (message : String)
  | profile (error : ImportError)
  | invalidTarget (message : String)
  | schemaMismatch
  | artifactMismatch
deriving DecidableEq, Repr

/-! ## Documents -/

/-- `PlanTarget`. -/
structure PlanTarget where
  targetResource : ResourceRef
  relation : String
  targetRevision : String
  expectedSchema : TabularSchema
  localOwner : Uuid
deriving DecidableEq

/-- `ImportPlan`. -/
structure ImportPlan where
  bundleDigest : String
  artifactDigest : String
  sourceResource : ResourceRef
  target : PlanTarget
  columnMapping : List TabularColumn
  rowCount : UInt64
  byteCount : UInt64
  planDigest : String
deriving DecidableEq

/-- `ValidatedBundle`. -/
structure ValidatedBundle (φ : Type) where
  bundle : ExportBundle φ
  canonicalJson : String
  bundleDigest : String
  artifacts : List (ArtifactManifest φ)
  sourceResource : ResourceRef

namespace Write

variable {φ : Type} (uuids : UuidText)

/-- What `TabularColumn` serializes to. -/
def tabularColumn (column : TabularColumn) : JsonValue φ :=
  structValue [("name", some (.string column.name)),
    ("type", some (.string column.columnType.columnTypeName))]

/-- What `TabularSchema` serializes to. -/
def tabularSchema (schema : TabularSchema) : JsonValue φ :=
  structValue [("profile", some (.string schema.profile)),
    ("columns", some (.array (schema.columns.map tabularColumn)))]

/-- What `PlanTarget` serializes to. -/
def planTarget (target : PlanTarget) : JsonValue φ :=
  structValue [("targetResource", some (resourceRef uuids target.targetResource)),
    ("relation", some (.string target.relation)),
    ("targetRevision", some (.string target.targetRevision)),
    ("expectedSchema", some (tabularSchema target.expectedSchema)),
      ("localOwner", some (uuidValue uuids target.localOwner))]

/-- What `ImportPlan` serializes to. -/
def importPlan (plan : ImportPlan) : JsonValue φ :=
  structValue [("bundleDigest", some (.string plan.bundleDigest)),
    ("artifactDigest", some (.string plan.artifactDigest)),
    ("sourceResource", some (resourceRef uuids plan.sourceResource)),
    ("target", some (planTarget uuids plan.target)),
    ("columnMapping", some (.array (plan.columnMapping.map tabularColumn))),
    ("rowCount", some (u64Value plan.rowCount)),
    ("byteCount", some (u64Value plan.byteCount)), ("planDigest", some (.string plan.planDigest))]

end Write

/-! ## Other crates -/

/-- What imports take from other crates: the reader and writer of JSON, BLAKE3, the canonical text
of RFC 8785, what `serde` derives for bundles and schemas, the parsers of values, and the messages
of errors. What `serde` writes it reads. -/
structure ImportCodec (φ : Type) where
  reader : JsonReader φ
  uuids : UuidText
  blake3 : ContentHash.Bytes → ContentHash.Digest
  canonicalJsonStringV2 : JsonValue φ → String
  toVec : JsonValue φ → ByteArray
  readBundle : JsonValue φ → Except String (ExportBundle φ)
  readSchema : JsonValue φ → Except String TabularSchema
  syntaxError : ByteArray → String
  parsers : ValueParsers
  readBundle_write : ∀ bundle : ExportBundle φ, bundle.WellFormed →
    readBundle (Write.exportBundle uuids bundle) = .ok bundle
  readSchema_write : ∀ schema, readSchema (Write.tabularSchema schema) = .ok schema

/-! ## Digests -/

/-- A hexadecimal digit in lower case. -/
def isLowerHexDigit (c : Char) : Bool := c.isDigit || ('a' ≤ c && c ≤ 'f')

/-- The start of a digest. -/
def digestPrefix : String := "blake3-256:"

/-- `valid_typed_digest`. -/
def validTypedDigest (value : String) : Bool :=
  digestPrefix.toList.isPrefixOf value.toList &&
    let hex := value.toList.drop digestPrefix.toList.length
    hex.length = 64 && hex.all isLowerHexDigit

/-- `constant_time_eq`. -/
def constantTimeEq (left right : List UInt8) : Bool :=
  left.length = right.length && (left.zip right).foldl
    (fun difference (a, b) => difference ||| (a ^^^ b)) 0 == 0

/-- The bytes of a text. -/
def utf8 (text : String) : List UInt8 := text.toByteArray.data.toList

section Import

variable {φ : Type} (codec : ImportCodec φ)

/-- `typed_digest`. -/
def typedDigest (bytes : List UInt8) : String := digestPrefix ++ contentHashHex codec.blake3 bytes

/-- `schema_bytes`. -/
def schemaBytes (schema : TabularSchema) : String :=
  codec.canonicalJsonStringV2 (Write.tabularSchema schema)

/-- `tabular_schema_fingerprint`. -/
def tabularSchemaFingerprint (schema : TabularSchema) : String :=
  typedDigest codec (utf8 (schemaBytes codec schema))

/-! ## Validation -/

/-- `parse_json_without_duplicate_keys`. -/
def parseJsonWithoutDuplicateKeys (bytes : ByteArray) : Except BundleImportError (JsonValue φ) :=
  match (codec.reader.document bytes).bind strictValue with
  | some value => .ok value
  | none => .error (.invalidJson (codec.syntaxError bytes))

mutual

/-- `enforce_json_limits`: whether a value keeps the limits. -/
def enforceJsonLimits (limits : BundleLimits) : (depth : Nat) → JsonValue φ → Bool
  | depth, .array items => depth ≤ limits.maxJsonDepth && enforceItemLimits limits (depth + 1) items
  | depth, .object map => depth ≤ limits.maxJsonDepth && enforceEntryLimits limits (depth + 1) map
  | depth, .string text => depth ≤ limits.maxJsonDepth && text.utf8ByteSize ≤ limits.maxStringBytes
  | depth, .null | depth, .bool _ | depth, .number _ => depth ≤ limits.maxJsonDepth
termination_by structural _ value => value

/-- The loop over the items of an array. -/
def enforceItemLimits (limits : BundleLimits) : (depth : Nat) → List (JsonValue φ) → Bool
  | _, [] => true
  | depth, item :: items =>
    enforceJsonLimits limits depth item && enforceItemLimits limits depth items
termination_by structural _ items => items

/-- The loop over the entries of an object. -/
def enforceEntryLimits (limits : BundleLimits) : (depth : Nat) → List (String × JsonValue φ) → Bool
  | _, [] => true
  | depth, (key, item) :: entries => key.utf8ByteSize ≤ limits.maxStringBytes &&
      enforceJsonLimits limits depth item && enforceEntryLimits limits depth entries
termination_by structural _ entries => entries

end

/-- The length of `serde_json::to_vec` of a value. -/
def jsonBytes (value : JsonValue φ) : Nat := (codec.toVec value).size

/-- The names that `storageUri` may not be. -/
def isOutside (uri : String) : Bool :=
  uri.isEmpty || ['/'].isPrefixOf uri.toList || ['.', '.'] <:+: uri.toList ||
    [':', '/', '/'] <:+: uri.toList

/-- The variables of the loop over the artifacts. -/
structure ArtifactsSeen where
  totalBytes : Nat := 0
  seen : List (String × String) := []

/-- The loop over the artifacts of a bundle. -/
def checkArtifact (limits : BundleLimits) (state : ArtifactsSeen) (artifact : ArtifactManifest φ) :
    Except BundleImportError ArtifactsSeen := do
  require (artifact.kind = "table_export" && artifact.format = "csv")
    (.invalidManifest "2.0 accepts exactly one table_export CSV profile")
  match artifact.byteCount with
  | none => throw (.invalidManifest "byteCount is required")
  | some byteCount =>
    require (byteCount.toNat ≤ limits.maxArtifactBytes) .artifactTooLarge
    let totalBytes := state.totalBytes + byteCount.toNat
    require (totalBytes < 2 ^ 64) .aggregateArtifactTooLarge
    require (totalBytes ≤ limits.maxTotalArtifactBytes) .aggregateArtifactTooLarge
    require (validTypedDigest artifact.contentHash && validTypedDigest artifact.schemaFingerprint)
      (.invalidManifest "contentHash and schemaFingerprint must be typed blake3-256 digests")
    require (!state.seen.contains (artifact.kind, artifact.storageUri)) .duplicateArtifact
    require (!isOutside artifact.storageUri)
      (.invalidManifest "storageUri is metadata only and must be a bounded relative name")
    let schema ← (codec.readSchema artifact.manifestJson).mapError fun error =>
      .profile (.invalidProfile error)
    require (jsonBytes codec artifact.manifestJson ≤ limits.maxExtensionBytes) .jsonLimits
    (validateSchema schema limits.maxColumns).mapError BundleImportError.profile
    require (tabularSchemaFingerprint codec schema = artifact.schemaFingerprint) .schemaMismatch
    return { totalBytes, seen := state.seen ++ [(artifact.kind, artifact.storageUri)] }

/-- `IMPORT_BUNDLE_VERSION`. -/
def importBundleVersion : String := "2.0"

/-- `validate_import_bundle`. -/
def validateImportBundle (bytes : ByteArray) (expectedDigest : String) (limits : BundleLimits) :
    Except BundleImportError (ValidatedBundle φ) := do
  require (bytes.size ≤ limits.maxBundleBytes) .bundleTooLarge
  let value ← parseJsonWithoutDuplicateKeys codec bytes
  require (enforceJsonLimits limits 0 value) .jsonLimits
  let bundle ← (codec.readBundle value).mapError BundleImportError.invalidJson
  require (bundle.exportBundle.version = importBundleVersion)
    (.unsupportedVersion bundle.exportBundle.version)
  let canonicalJson := codec.canonicalJsonStringV2 value
  require (jsonBytes codec bundle.metadataJsonld ≤ limits.maxExtensionBytes) .jsonLimits
  let digest := typedDigest codec (utf8 canonicalJson)
  require (validTypedDigest expectedDigest) .invalidDigest
  require (constantTimeEq (utf8 digest) (utf8 expectedDigest)) .digestMismatch
  require (!bundle.artifacts.isEmpty && bundle.artifacts.length ≤ limits.maxArtifacts)
    .tooManyArtifacts
  let _ ← bundle.artifacts.foldlM (checkArtifact codec limits) {}
  return {
    bundle, canonicalJson
    bundleDigest := digest
    artifacts := bundle.artifacts
    sourceResource := bundle.exportBundle.resource }

/-! ## Planning -/

/-- Whether `str::trim` leaves nothing. -/
def isBlank (text : String) : Bool := text.toList.all Dialect.isWhitespace

/-- The digest of a plan, which is taken while it has none. -/
def planDigest (plan : ImportPlan) : String :=
  typedDigest codec (utf8
    (codec.canonicalJsonStringV2 (Write.importPlan codec.uuids { plan with planDigest := "" })))

/-- `plan_tabular_import`. -/
def planTabularImport (bundle : ValidatedBundle φ) (artifactBytes : ByteArray) (target : PlanTarget)
    (limits : BundleLimits) : Except BundleImportError ImportPlan := do
  match bundle.artifacts with
  | [manifest] =>
    require (artifactBytes.size ≤ limits.maxArtifactBytes) .artifactTooLarge
    (validateSchema target.expectedSchema limits.maxColumns).mapError BundleImportError.profile
    let schema ← (codec.readSchema manifest.manifestJson).mapError fun error =>
      .profile (.invalidProfile error)
    -- The schema of the manifest, not that of the target, is what the rows are read with.
    require (schema = target.expectedSchema)
      (.invalidTarget "target schema does not equal the portable schema")
    let actualDigest := typedDigest codec artifactBytes.data.toList
    let actualBytes := UInt64.ofNat artifactBytes.size
    -- The bytes are compared with what the manifest declares of them.
    require (actualDigest = manifest.contentHash && some actualBytes = manifest.byteCount)
      .artifactMismatch
    let rows ← (parseCsv codec.parsers schema limits.toImportLimits artifactBytes).mapError
      BundleImportError.profile
    require (UInt64.ofNat rows.length = manifest.rowCount) .artifactMismatch
    require (!isBlank target.relation && !isBlank target.targetRevision)
      (.invalidTarget "relation and targetRevision are required")
    let plan : ImportPlan := {
      bundleDigest := bundle.bundleDigest
      artifactDigest := actualDigest
      sourceResource := bundle.sourceResource
      target
      columnMapping := schema.columns
      rowCount := UInt64.ofNat rows.length
      byteCount := actualBytes
      planDigest := "" }
    -- The digest is taken of the plan with an empty digest.
    return { plan with planDigest := planDigest codec plan }
  | _ => throw (.invalidManifest "exactly one table artifact is required")

end Import

end QueryFabric.Portability
