import QueryFabric.Demo.Export
import QueryFabric.Demo.Staging
import QueryFabric.NamespaceUuid
import QueryFabric.Portability.ImportRoundTrip
import Mathlib.Data.Set.Function

/-!
# What is prepared of an import

`prepare_import` of `crates/queryfabric-demo/src/http.rs`: the bundle of a request is validated, the
artifact is planned for a station and decoded, and the two digests make up the path of the staging
object.

`commit_eq_of_stagedPath` says that the path tells everything: two requests that are prepared with
the same path have the same artifact and commit the same import, unless BLAKE3 or the canonical text
takes two of their documents for one.
-/

namespace QueryFabric.Demo

open Lib Lib.Json Portability
open ContentHash (hexDigit)

/-! ## Errors -/

/-- The texts of `ImportError`. -/
def importErrorText : BundleImportError → String
  | .bundleTooLarge => "bundle exceeds configured byte limit"
  | .artifactTooLarge => "artifact exceeds configured byte limit"
  | .aggregateArtifactTooLarge => "aggregate artifact bytes exceed configured limit"
  | .invalidJson message => "bundle JSON is invalid: " ++ message
  | .jsonLimits => "bundle JSON exceeds configured nesting or string limits"
  | .unsupportedVersion version => "unsupported bundle version '" ++ version ++ "'"
  | .invalidDigest => "bundle digest must use blake3-256:<64 lowercase hex>"
  | .digestMismatch => "bundle digest does not match expected digest"
  | .tooManyArtifacts => "bundle contains too many artifacts"
  | .duplicateArtifact => "duplicate or conflicting artifact entry"
  | .invalidManifest message => "artifact manifest is invalid: " ++ message
  | .profile (.invalidProfile message) => "tabular profile is invalid: " ++ message
  | .profile (.invalidCsv message) => "CSV artifact is invalid: " ++ message
  | .invalidTarget message => "target mapping is invalid: " ++ message
  | .schemaMismatch => "schema fingerprint does not match the typed schema"
  | .artifactMismatch => "declared row or byte count does not match the staged artifact"

/-! ## Stations -/

/-- `DEMO_NAMESPACE`, the bytes of `qfdemo-namespace`. -/
def demoNamespace : Uuid := 0x716664656d6f2d6e616d657370616365

/-- `StationIds::NAMESPACE`, the bytes of `qfdemo-airq-stat`. -/
def stationNamespace : Uuid := 0x716664656d6f2d616972712d73746174

/-- The codes of `STATIONS`. -/
def stationCodes : List String :=
  ["lis-baixa", "tll-kesklinn", "ghe-centrum", "rkv-vesturbaer", "lju-center"]

/-- `SNAPSHOT_ID`. -/
def snapshotId : String := "qfdemo-air-quality-v1"

/-- What `prepare_import` and `import_apply` read of the state of the server, with
`Uuid::new_v5`. -/
structure Host (φ : Type) where
  codec : ImportCodec φ
  newV5 : Uuid → ByteArray → Uuid
  operator : Uuid
  importFailure : Option ImportFailureStage

mutual

/-- A value with its numbers as the texts that they are printed as. -/
def toJson {φ : Type} (text : ValueText (Number φ)) : JsonValue φ → Json
  | .null => .null
  | .bool b => .bool b
  | .number n => .number (String.ofList (text.number n))
  | .string s => .string s
  | .array items => .array (toJsonItems text items)
  | .object map => .object (toJsonEntries text map)

/-- The items of an array. -/
def toJsonItems {φ : Type} (text : ValueText (Number φ)) : List (JsonValue φ) → List Json
  | [] => []
  | item :: items => toJson text item :: toJsonItems text items

/-- The members of an object. -/
def toJsonEntries {φ : Type} (text : ValueText (Number φ)) :
    List (String × JsonValue φ) → List (String × Json)
  | [] => []
  | (key, item) :: entries => (key, toJson text item) :: toJsonEntries text entries

end

/-- `station_policy`, serialised. -/
def stationPolicy : Json :=
  .object [("license", .string "CC_BY"), ("policy", .object [("policy", .string "open")])]

/-! ## Preparing -/

/-- The path of the staging object of two digests. -/
def stagingPath (artifactDigest planDigest : String) : String :=
  "imports/staging/" ++ dashed artifactDigest ++ "/" ++ dashed planDigest ++ "/artifact.csv"

/-- What `prepare_import` returns. -/
structure PreparedImport (φ : Type) where
  validated : ValidatedBundle φ
  rows : List (List String)
  plan : ImportPlan
  station : String
  stagedPath : String

namespace Host

variable {φ : Type} (host : Host φ)

/-- `StationSpec::id`. -/
def stationId (code : String) : Uuid := NamespaceUuid.fromStrKey host.newV5 stationNamespace code

/-- `find_station`. -/
def findStation (key : String) : Option String :=
  match host.codec.uuids.parse key with
  | some id => stationCodes.find? fun code => host.stationId code = id
  | none => stationCodes.find? fun code => code = key

/-- `lookup_station`. -/
def lookupStation (id : String) : Except ApiError String :=
  match host.findStation id with
  | some code => .ok code
  | none =>
    .error (.notFound ("no station '" ++ id ++ "': use a station UUID or code from GET /resources"))

/-- The target of an import into a station. -/
def planTarget (code : String) (targetRevision : Option String) : PlanTarget where
  targetResource := ⟨demoNamespace, host.stationId code⟩
  relation := "readings"
  targetRevision := targetRevision.getD snapshotId
  expectedSchema := readingsSchema
  localOwner := host.operator

/-- `prepare_import`. -/
def prepareImport (request : ImportRequest) : Except ApiError (PreparedImport φ) := do
  let station ← host.lookupStation request.target
  let (validated, rows,
    plan) ← (importTable host.codec request.bundle.toUTF8 request.expectedBundleDigest
    request.artifact.toUTF8 (host.planTarget station request.targetRevision) {}).mapError
    fun error => .badRequest (importErrorText error)
  return ⟨validated, rows, plan, station, stagingPath plan.artifactDigest plan.planDigest⟩

/-- The import that `import_apply` makes of what is prepared. -/
def commit (request : ImportRequest) (prepared : PreparedImport φ) : ImportCommit where
  stationId := host.stationId prepared.station
  rows := prepared.rows
  bundleDigest := prepared.validated.bundleDigest
  planDigest := prepared.plan.planDigest
  targetRevision := prepared.plan.target.targetRevision
  sourceResource := toJson host.codec.reader.toValueText
    (Write.resourceRef host.codec.uuids prepared.validated.sourceResource)
  targetResource := toJson host.codec.reader.toValueText
    (Write.resourceRef host.codec.uuids ⟨demoNamespace, host.stationId prepared.station⟩)
  localOwner := host.operator
  localPolicy := stationPolicy
  sourceEvidence := toJson host.codec.reader.toValueText
    (Write.provenanceHistory host.codec.uuids prepared.validated.bundle.provenance)
  mapping := toJson host.codec.reader.toValueText
    (.array (prepared.plan.columnMapping.map Write.tabularColumn))
  byteCount := UInt64.ofNat request.artifact.utf8ByteSize
  failureStage := host.importFailure

/-- What the requests of the server keep of a prepared import. -/
def prepare (request : ImportRequest) : Except ApiError Prepared :=
  (host.prepareImport request).map fun prepared =>
    ⟨prepared.plan.artifactDigest, host.commit request prepared⟩

end Host

/-! ## Digests -/

section Digests

variable {φ : Type} {codec : ImportCodec φ}

/-- No digit is a colon. -/
theorem ne_colon_of_mem {bytes : List UInt8} {c : Char} (h : c ∈ hexDigits bytes) : c ≠ ':' := by
  have hdigit := List.all_eq_true.mp (all_isLowerHexDigit bytes) c h
  rintro rfl
  exact absurd hdigit (by decide)

/-- The name of a digest in a path. -/
theorem toList_dashed_typedDigest (bytes : List UInt8) : (dashed (typedDigest codec bytes)).toList =
    "blake3-256-".toList ++ hexDigits (codec.blake3 bytes).bytes := by
  have hdigits : (hexDigits (codec.blake3 bytes).bytes).map (fun c => if c = ':' then '-' else c) =
      hexDigits (codec.blake3 bytes).bytes := by
    refine (List.map_congr_left fun c hc => ?_).trans (List.map_id _)
    exact if_neg (ne_colon_of_mem hc)
  rw [dashed, String.toList_ofList, toList_typedDigest, List.map_append, hdigits]
  rfl

/-- A dashed digest has 75 characters. -/
theorem length_dashed_typedDigest (bytes : List UInt8) :
    (dashed (typedDigest codec bytes)).toList.length = 75 := by
  rw [toList_dashed_typedDigest, List.length_append, length_hexDigits,
    (codec.blake3 bytes).length_eq]
  rfl

/-- Different digests are dashed differently. -/
theorem dashed_typedDigest_inj {a b : List UInt8}
    (h : (dashed (typedDigest codec a)).toList = (dashed (typedDigest codec b)).toList) :
    codec.blake3 a = codec.blake3 b := by
  rw [toList_dashed_typedDigest, toList_dashed_typedDigest] at h
  exact (ContentHash.Digest.mk.injEq _ _ _ _).mpr (hexDigits_inj (List.append_cancel_left h))

/-- The path tells both digests. -/
theorem blake3_eq_of_stagingPath {a b a' b' : List UInt8}
    (h : stagingPath (typedDigest codec a) (typedDigest codec b) =
      stagingPath (typedDigest codec a') (typedDigest codec b')) :
    codec.blake3 a = codec.blake3 a' ∧ codec.blake3 b = codec.blake3 b' := by
  unfold stagingPath at h
  rw [← String.toList_inj] at h
  simp only [String.toList_append, List.append_assoc] at h
  obtain ⟨hartifact, hrest⟩ := List.append_inj (List.append_cancel_left h)
    ((length_dashed_typedDigest a).trans (length_dashed_typedDigest a').symm)
  obtain ⟨hplan, -⟩ := List.append_inj (List.append_cancel_left hrest)
    ((length_dashed_typedDigest b).trans (length_dashed_typedDigest b').symm)
  exact ⟨dashed_typedDigest_inj hartifact, dashed_typedDigest_inj hplan⟩

end Digests

/-! ## Plans -/

section Plans

variable {φ : Type} {uuids : UuidText}

/-- Structs that are written alike have the same values in their fields. -/
theorem lookup_eq_of_structValue {fields fields' : List (String × Option (JsonValue φ))}
    (h : structValue fields = structValue fields') (hnodup : (fields.map Prod.fst).Nodup)
    (hnodup' : (fields'.map Prod.fst).Nodup) (key : String) :
    (fields.lookup key).join = (fields'.lookup key).join := by
  rw [← lookup_structMap hnodup, ← lookup_structMap hnodup', Value.object.inj h]

/-- Different numbers serialize differently. -/
theorem u64Value_inj {m n : UInt64} (h : (u64Value m : JsonValue φ) = u64Value n) : m = n :=
  Option.some.inj ((u64?_u64Value m).symm.trans ((congrArg u64? h).trans (u64?_u64Value n)))

/-- Different resources serialize differently. -/
theorem resourceRef_inj {a b : Access.ResourceRef}
    (h : (Write.resourceRef uuids a : JsonValue φ) = Write.resourceRef uuids b) :
    a = b :=
  Option.some.inj ((read_resourceRef uuids a).symm.trans
    ((congrArg (Read.resourceRef uuids) h).trans (read_resourceRef uuids b)))

/-- Different schemas serialize differently. -/
theorem tabularSchema_inj {a b : TabularSchema}
    (h : (Write.tabularSchema a : JsonValue φ) = Write.tabularSchema b) : a = b :=
  Option.some.inj ((Read.read_tabularSchema a).symm.trans
    ((congrArg Read.tabularSchema h).trans (Read.read_tabularSchema b)))

/-- Different UUIDs serialize differently. -/
theorem uuidValue_inj {a b : Uuid}
    (h : (uuidValue uuids a : JsonValue φ) = uuidValue uuids b) : a = b :=
  Option.some.inj ((uuid?_uuidValue uuids a).symm.trans
    ((congrArg (uuid? uuids) h).trans (uuid?_uuidValue uuids b)))

/-- Different targets serialize differently. -/
theorem planTarget_inj {a b : PlanTarget}
    (h : (Write.planTarget uuids a : JsonValue φ) = Write.planTarget uuids b) : a = b := by
  have hfield := lookup_eq_of_structValue h (by simp) (by simp)
  have hresource := hfield "targetResource"
  have hrelation := hfield "relation"
  have hrevision := hfield "targetRevision"
  have hschema := hfield "expectedSchema"
  have howner := hfield "localOwner"
  simp [List.lookup_cons] at hresource hrelation hrevision hschema howner
  obtain ⟨⟩ := a
  obtain ⟨⟩ := b
  rw [PlanTarget.mk.injEq]
  exact ⟨resourceRef_inj hresource, hrelation, hrevision, tabularSchema_inj hschema,
    uuidValue_inj howner⟩

/-- The document of a plan tells the plan. -/
theorem importPlan_inj {a b : ImportPlan}
    (h : (Write.importPlan uuids a : JsonValue φ) = Write.importPlan uuids b) : a = b := by
  -- The documents have the same members, one for each field.
  have hfield := lookup_eq_of_structValue h (by simp) (by simp)
  have hbundle := hfield "bundleDigest"
  have hartifact := hfield "artifactDigest"
  have hsource := hfield "sourceResource"
  have htarget := hfield "target"
  have hmapping := hfield "columnMapping"
  have hrows := hfield "rowCount"
  have hbytes := hfield "byteCount"
  have hplan := hfield "planDigest"
  simp [List.lookup_cons] at hbundle hartifact hsource htarget hmapping hrows hbytes hplan
  -- Each column is read back from its document.
  have hcolumns : a.columnMapping = b.columnMapping := by
    have hread := congrArg (List.mapM Read.tabularColumn) hmapping
    rw [mapM_map_of fun column _ => Read.read_tabularColumn column,
      mapM_map_of fun column _ => Read.read_tabularColumn column] at hread
    exact Option.some.inj hread
  obtain ⟨⟩ := a
  obtain ⟨⟩ := b
  rw [ImportPlan.mk.injEq]
  exact ⟨hbundle, hartifact, resourceRef_inj hsource, planTarget_inj htarget, hcolumns,
    u64Value_inj hrows,
    u64Value_inj hbytes, hplan⟩

end Plans

/-! ## Imports -/

namespace Host

variable {φ : Type} (host : Host φ)

/-- What is prepared of a request whose bundle is the text of a value. -/
structure Prepares (request : ImportRequest) (value : JsonValue φ)
    (prepared : PreparedImport φ) : Prop where
  parsed : parseJsonWithoutDuplicateKeys host.codec request.bundle.toUTF8 = .ok value
  bundle : host.codec.readBundle value = .ok prepared.validated.bundle
  validated : prepared.validated = validated host.codec value prepared.validated.bundle
  bundleDigest : prepared.plan.bundleDigest = prepared.validated.bundleDigest
  artifactDigest : prepared.plan.artifactDigest = typedDigest host.codec (utf8 request.artifact)
  planDigest : prepared.plan.planDigest = planDigest host.codec prepared.plan
  target : prepared.plan.target = host.planTarget prepared.station request.targetRevision
  rows : decodeTabularCsv host.codec.parsers readingsSchema {} request.artifact.toUTF8 =
    .ok prepared.rows
  path : prepared.stagedPath = stagingPath prepared.plan.artifactDigest prepared.plan.planDigest

/-- What is prepared of a request. -/
theorem prepares_of_prepareImport {request : ImportRequest} {prepared : PreparedImport φ}
    (h : host.prepareImport request = .ok prepared) :
    ∃ value, host.Prepares request value prepared := by
  obtain ⟨station, -, h⟩ := bind_eq_ok.mp h
  -- The three stages of the import, each of which has succeeded.
  obtain ⟨⟨validated, rows, plan⟩, htable, h⟩ := bind_eq_ok.mp h
  obtain rfl := Except.ok.inj h
  obtain ⟨validated', hvalidated, h⟩ := bind_eq_ok.mp (mapError_eq_ok.mp htable)
  obtain ⟨plan', hplan, h⟩ := bind_eq_ok.mp h
  obtain ⟨rows', hrows, h⟩ := bind_eq_ok.mp h
  obtain ⟨rfl, hpair⟩ := Prod.mk.inj (Except.ok.inj h)
  obtain ⟨rfl, rfl⟩ := Prod.mk.inj hpair
  -- What the stages have checked.
  obtain ⟨value, bundle, haccepted, rfl⟩ := (validateImportBundle_ok_iff host.codec).mp hvalidated
  obtain ⟨manifest, parsed, hplanned, rfl⟩ := (planTabularImport_ok_iff host.codec).mp hplan
  exact ⟨value, {
    parsed := (parseJsonWithoutDuplicateKeys_ok_iff host.codec).mpr haccepted.read
    bundle := haccepted.decoded
    validated := rfl
    bundleDigest := rfl
    artifactDigest := hplanned.digest.symm
    planDigest := rfl
    target := rfl
    rows := mapError_eq_ok.mp hrows
    path := rfl }⟩

/-- The document whose digest a plan has. -/
def planDocument (plan : ImportPlan) : JsonValue φ :=
  Write.importPlan host.codec.uuids { plan with planDigest := "" }

/-- The content address of a document. -/
def address (value : JsonValue φ) : ContentHash.Digest :=
  host.codec.blake3 (utf8 (host.codec.canonicalJsonStringV2 value))

/-- No two artifacts, plans or bundles of some requests have the same digest. -/
structure TellsApart (requests : Set ImportRequest) : Prop where
  artifacts : Set.InjOn (fun text => host.codec.blake3 (utf8 text))
    (Set.image ImportRequest.artifact requests)
  plans : Set.InjOn host.address
    {value | ∃ request ∈ requests, ∃ prepared, host.prepareImport request = .ok prepared ∧
      host.planDocument prepared.plan = value}
  bundles : Set.InjOn host.address
    {value | ∃ request ∈ requests,
      parseJsonWithoutDuplicateKeys host.codec request.bundle.toUTF8 = .ok value}

section Agreement

variable {host} {requests : Set ImportRequest} (happart : host.TellsApart requests)
  {request other : ImportRequest}
  (hrequest : request ∈ requests) (hother : other ∈ requests)
  {prepared prepared' : PreparedImport φ}
  (h : host.prepareImport request = .ok prepared) (h' : host.prepareImport other = .ok prepared')

include happart hrequest hother h h'

/-- The digest of a plan tells the plan. -/
theorem plan_eq_of_planDigest (hdigest : prepared.plan.planDigest = prepared'.plan.planDigest) :
    prepared.plan = prepared'.plan := by
  obtain ⟨value, hprepares⟩ := host.prepares_of_prepareImport h
  obtain ⟨value', hprepares'⟩ := host.prepares_of_prepareImport h'
  have haddress : host.address (host.planDocument prepared.plan) =
      host.address (host.planDocument prepared'.plan) := by
    refine blake3_eq_of_typedDigest host.codec ?_
    exact hprepares.planDigest.symm.trans (hdigest.trans hprepares'.planDigest)
  have hdocument :=
    happart.plans ⟨request, hrequest, prepared, h, rfl⟩ ⟨other, hother, prepared', h', rfl⟩ haddress
  have hplan :=
    congrArg (fun plan : ImportPlan => { plan with planDigest := prepared.plan.planDigest })
    (importPlan_inj hdocument)
  refine hplan.trans ?_
  rw [hdigest]

/-- The digests of an artifact and of a plan tell the import. -/
theorem commit_eq_of_digests
    (hartifact : prepared.plan.artifactDigest = prepared'.plan.artifactDigest)
    (hdigest : prepared.plan.planDigest = prepared'.plan.planDigest) :
    request.artifact = other.artifact ∧
    host.commit request prepared = host.commit other prepared' := by
  obtain ⟨value, hprepares⟩ := host.prepares_of_prepareImport h
  obtain ⟨value', hprepares'⟩ := host.prepares_of_prepareImport h'
  -- The plan digest gives the whole plan, which names the bundle and the station.
  have hplan : prepared.plan = prepared'.plan :=
    plan_eq_of_planDigest happart hrequest hother h h' hdigest
  rw [hprepares.artifactDigest, hprepares'.artifactDigest] at hartifact
  -- The artifact digest gives the text of the artifact.
  have hartifact : request.artifact = other.artifact := by
    refine happart.artifacts ?_ ?_ (blake3_eq_of_typedDigest host.codec hartifact)
    · exact Set.mem_image_of_mem _ hrequest
    · exact Set.mem_image_of_mem _ hother
  -- The bundle digest of the plan gives the document, and the document what was validated.
  have hvalidated : prepared.validated = prepared'.validated := by
    have hbundle : prepared.validated.bundleDigest = prepared'.validated.bundleDigest := by
      rw [← hprepares.bundleDigest, ← hprepares'.bundleDigest, hplan]
    rw [hprepares.validated, hprepares'.validated] at hbundle
    obtain rfl : value = value' :=
      happart.bundles ⟨request, hrequest, hprepares.parsed⟩ ⟨other, hother, hprepares'.parsed⟩
      (blake3_eq_of_typedDigest host.codec hbundle)
    rw [hprepares.validated, hprepares'.validated,
      Except.ok.inj (hprepares.bundle.symm.trans hprepares'.bundle)]
  -- The rows are those of the artifact.
  have hrows : prepared.rows = prepared'.rows := by
    have hrows := hprepares.rows
    rw [hartifact, hprepares'.rows] at hrows
    exact (Except.ok.inj hrows).symm
  have hstation : host.stationId prepared.station = host.stationId prepared'.station := by
    have htarget := hprepares.target
    rw [hplan, hprepares'.target] at htarget
    exact (congrArg (fun target => target.targetResource.id) htarget).symm
  refine ⟨hartifact, ?_⟩
  rw [commit, commit, hvalidated, hrows, hstation, hplan, hartifact]

/-- The path of the staging object tells the import. -/
theorem commit_eq_of_stagedPath (hpath : prepared.stagedPath = prepared'.stagedPath) :
    request.artifact = other.artifact ∧
    host.commit request prepared = host.commit other prepared' := by
  obtain ⟨value, hprepares⟩ := host.prepares_of_prepareImport h
  obtain ⟨value', hprepares'⟩ := host.prepares_of_prepareImport h'
  rw [hprepares.path, hprepares'.path, hprepares.artifactDigest, hprepares'.artifactDigest,
    hprepares.planDigest, hprepares'.planDigest] at hpath
  obtain ⟨hartifact, hplan⟩ := blake3_eq_of_stagingPath hpath
  refine commit_eq_of_digests happart hrequest hother h h' ?_ ?_
  · rw [hprepares.artifactDigest, hprepares'.artifactDigest, typedDigest, typedDigest,
      contentHashHex, contentHashHex, hartifact]
  · rw [hprepares.planDigest, hprepares'.planDigest, planDigest, planDigest, typedDigest,
      typedDigest, contentHashHex, contentHashHex, hplan]

end Agreement

/-- A prepared request is planned, with its commit. -/
theorem exists_prepareImport {host : Host φ} {request : ImportRequest} {prepared : Prepared}
    (h : host.prepare request = .ok prepared) : ∃ x, host.prepareImport request = .ok x ∧
      prepared = ⟨x.plan.artifactDigest, host.commit request x⟩ := by
  rw [prepare] at h
  cases hx : host.prepareImport request with
  | error error =>
    rw [hx] at h
    cases h
  | ok x =>
    rw [hx] at h
    exact ⟨x, rfl, (Except.ok.inj h).symm⟩

/-- The path of the staged object, of the digests of the artifact and the plan. -/
theorem stagedPath_eq {host : Host φ} {request : ImportRequest} {x : PreparedImport φ}
    (h : host.prepareImport request = .ok x) :
    Prepared.stagedPath ⟨x.plan.artifactDigest, host.commit request x⟩ = x.stagedPath := by
  obtain ⟨value, hprepares⟩ := host.prepares_of_prepareImport h
  exact hprepares.path.symm

end Host

end QueryFabric.Demo
