import QueryFabric.ContentHash
import QueryFabric.Portability.BundleJson
import QueryFabric.Portability.Citation
import QueryFabric.Portability.PlainReader

/-!
# Export bundles

`build_bundle` of `crates/queryfabric-portability/src/bundle.rs`: a resource's metadata, citations,
provenance, license and artifacts as one JSON document, with its canonical text and the hash of it.

`buildBundle_parsesBack` says that the text is read back as the bundle, unless a value that the
bundle carries is nested deeper than `serde_json` reads, and up to the fractions that it does not
read back (`NumbersRoundTrip`). The metadata stand in one object, the payloads of activities in four
arrays or objects more, and so on.
-/

namespace QueryFabric.Portability

open Lib.Json
open Access (ResourceRef)
open Provenance (ProvenanceEntry ProvenanceHistory ProvenanceError HistoryFilter VecProvenanceStore)

/-! ## Requests -/

/-- `DataLicense` of `crates/queryfabric-access/src/license.rs`. -/
inductive DataLicense
  | cc0
  | ccBy
  | ccBySa
  | ccByNc
  | ccByNcSa
  | pddl
  | odcBy
  | odcOdbl
deriving DecidableEq, Repr

/-- `DataLicense::spdx_id`. -/
def DataLicense.spdxId : DataLicense → String
  | cc0 => "CC0-1.0"
  | ccBy => "CC-BY-4.0"
  | ccBySa => "CC-BY-SA-4.0"
  | ccByNc => "CC-BY-NC-4.0"
  | ccByNcSa => "CC-BY-NC-SA-4.0"
  | pddl => "PDDL-1.0"
  | odcBy => "ODC-By-1.0"
  | odcOdbl => "ODbL-1.0"

/-- `DataLicense::rights_uri`. -/
def DataLicense.rightsUri : DataLicense → String
  | cc0 => "https://creativecommons.org/publicdomain/zero/1.0/"
  | ccBy => "https://creativecommons.org/licenses/by/4.0/"
  | ccBySa => "https://creativecommons.org/licenses/by-sa/4.0/"
  | ccByNc => "https://creativecommons.org/licenses/by-nc/4.0/"
  | ccByNcSa => "https://creativecommons.org/licenses/by-nc-sa/4.0/"
  | pddl => "https://opendatacommons.org/licenses/pddl/1-0/"
  | odcBy => "https://opendatacommons.org/licenses/by/1-0/"
  | odcOdbl => "https://opendatacommons.org/licenses/odbl/1-0/"

/-- What the bundle shows of a `ResourcePolicy`. -/
structure ResourcePolicy where
  license : Option DataLicense
  restriction : Option DataUseRestriction
deriving DecidableEq, Repr

/-- `BundleRequest`. -/
structure BundleRequest (φ : Type) where
  resource : ResourceRef
  exportedAtUnixMs : Int64
  metadataJsonld : JsonValue φ
  citation : CitationInput
  policy : ResourcePolicy
  artifacts : List (ArtifactManifest φ)

/-- What the bundle reads of a `ProvenanceStore`. -/
structure ProvenanceStore (J : Type) where
  history : ResourceRef → HistoryFilter → Except ProvenanceError (ProvenanceHistory J)

/-- `VecProvenanceStore` as a `ProvenanceStore`. -/
def ofVecStore {J : Type} (store : VecProvenanceStore J) : ProvenanceStore J := ⟨store.history⟩

/-! ## Building -/

/-- `apa`. -/
def apa (input : CitationInput) : String :=
  let doiPart := match input.doi with
    | some doi => " https://doi.org/" ++ doi
    | none => ""
  input.publisher ++ ". (" ++ input.year ++ "). " ++ input.title ++ " [Data set]. " ++
    input.publisher ++ "." ++ doiPart

/-- `csl_json_value`. -/
def cslJsonValue {φ : Type} (input : CitationInput) : JsonValue φ :=
  .array [structValue [("type", some (.string "dataset")), ("id", some (.string input.id)),
    ("title", some (.string input.title)), ("publisher", some (.string input.publisher)),
    ("URL", some (.string input.url)),
    ("issued", some (structValue [("date-parts", some (.array [.array [.string input.year]]))])),
    ("license", input.licenseSpdx.map .string), ("DOI", input.doi.map .string)]]

/-- A bundle with its canonical text and its content address. -/
structure SealedBundle (φ : Type) where
  bundle : ExportBundle φ
  canonicalJson : String
  contentHash : String

/-- `BundleError`. -/
inductive BundleError
  | provenance (error : ProvenanceError)
deriving DecidableEq, Repr

/-- `BUNDLE_VERSION`. -/
def bundleVersion : String := "1.0"

section Build

variable {φ : Type} (text : ValueText (Number φ)) (uuids : UuidText)
  (blake3 : ContentHash.Bytes → ContentHash.Digest) (canonicalJsonStringV2 : JsonValue φ → String)

/-- `content_hash_hex`. -/
def contentHashHex (bytes : ContentHash.Bytes) : String := (blake3 bytes).toHex

/-- `build_bundle_version`, with the canonical text of RFC 8785 as that of `serde_jcs`. -/
def buildBundleVersion (request : BundleRequest φ) (store : ProvenanceStore (JsonValue φ))
    (version : String) (jcs : Bool) :
    Except BundleError (SealedBundle φ) := do
  let provenance ← (store.history request.resource {}).mapError .provenance
  let citations : Citations φ := {
    bibtex := bibtex request.citation
    ris := ris request.citation
    cslJson := cslJsonValue request.citation
    cff := cff request.citation
    apa := apa request.citation
    message := "Please cite this resource in any publications that use it." }
  -- The policy gives the license and the restriction as they are.
  let license := request.policy.license.map fun license => ⟨license.spdxId, license.rightsUri⟩
  let bundle : ExportBundle φ := {
    exportBundle := ⟨version, request.resource, request.exportedAtUnixMs⟩
    metadataJsonld := request.metadataJsonld
    citations := citations
    provenance := provenance
    license := license
    dataUseRestriction := request.policy.restriction
    artifacts := request.artifacts }
  let value := Write.exportBundle uuids bundle
  -- The version decides which of the two writers is used.
  let canonicalJson := if jcs then canonicalJsonStringV2 value else canonicalJsonString text value
  return ⟨bundle, canonicalJson, contentHashHex blake3 canonicalJson.toByteArray.data.toList⟩

/-- `build_bundle`. -/
def buildBundle (request : BundleRequest φ) (store : ProvenanceStore (JsonValue φ)) :
    Except BundleError (SealedBundle φ) :=
  buildBundleVersion text uuids blake3 canonicalJsonStringV2 request store bundleVersion false

end Build

/-- `serde_json::from_str` for an `ExportBundle`, on texts that repeat no key. -/
def parseBundle {φ : Type} (reader : JsonReader φ) (uuids : UuidText) (json : String) :
    Option (ExportBundle φ) :=
  (reader.document json.toUTF8).bind (Read.exportBundle uuids)

/-! ## The round trip -/

section RoundTrip

variable {φ : Type}

/-- What the types of a request promise: its values are those of maps in key order. -/
structure BundleRequest.WellFormed (request : BundleRequest φ) : Prop where
  metadata : request.metadataJsonld.Sorted
  manifests : ∀ artifact ∈ request.artifacts, artifact.manifestJson.Sorted

/-- The values that a bundle carries are no deeper than its reader allows at their places. -/
def depthFits (request : BundleRequest φ) (history : ProvenanceHistory (JsonValue φ)) : Bool :=
  request.metadataJsonld.fits 126 &&
    (history.entries.all fun entry => activityFits 122 entry.activity) &&
    request.artifacts.all fun artifact => artifact.manifestJson.fits 124

/-- The numbers that a bundle carries are read back. Those without a fraction always are. -/
structure NumbersRoundTrip (reader : JsonReader φ) (request : BundleRequest φ)
    (history : ProvenanceHistory (JsonValue φ)) : Prop where
  metadata : request.metadataJsonld.Numbers reader.RoundTrips
  payloads : ∀ entry ∈ history.entries, ∀ kind payload, entry.activity = .domain kind payload →
    payload.Numbers reader.RoundTrips
  manifests : ∀ artifact ∈ request.artifacts, artifact.manifestJson.Numbers reader.RoundTrips

/-- The CSL JSON has every property that passes from members. -/
theorem inherited_cslJsonValue {P : JsonValue φ → Prop} (hP : Inherited P) (input : CitationInput) :
    P (cslJsonValue input) := by
  have hissued : P (structValue [("date-parts", some (.array [.array [.string input.year]]))]) :=
    hP.structValue (by simp) (by simp [hP.array, hP.string])
  refine hP.array _ (List.forall_mem_singleton.mpr (hP.structValue (by simp) ?_))
  simp [hP.string, hissued]

/-- The CSL JSON is five levels deep. -/
theorem fits_cslJsonValue (input : CitationInput) (depth : Nat) :
    (cslJsonValue input : JsonValue φ).fits (depth + 5) = true := by
  have hissued :
    (structValue [("date-parts", some (.array [.array [.string input.year]]))] : JsonValue φ).fits
      (depth + 3) = true :=
        (fits_structValue (by simp) _).mpr (by simp [Value.fits, Value.fitItems_iff])
  refine Value.fitItems_iff.mpr
    (List.forall_mem_singleton.mpr ((fits_structValue (by simp) _).mpr ?_))
  simp [Value.fits, hissued]

/-- The canonical text of a bundle whose numbers are read back is read as the bundle, up to the
depth. -/
theorem parseBundle_canonicalJsonString (reader : JsonReader φ) (uuids : UuidText)
    {bundle : ExportBundle φ} (h : bundle.WellFormed)
    (hnumbers : (Write.exportBundle uuids bundle).Numbers reader.RoundTrips) :
    parseBundle reader uuids
      (canonicalJsonString reader.toValueText (Write.exportBundle uuids bundle)) =
      if (Write.exportBundle uuids bundle).fits 127 then some bundle else none := by
  rw [parseBundle, document_writeCanonical reader (sorted_exportBundle uuids h) hnumbers]
  split
  · exact read_exportBundle uuids h.entries
  · rfl

variable (reader : JsonReader φ) (uuids : UuidText)
  (blake3 : ContentHash.Bytes → ContentHash.Digest)
  (canonicalJsonStringV2 : JsonValue φ → String) {request : BundleRequest φ}
  {store : ProvenanceStore (JsonValue φ)} {history : ProvenanceHistory (JsonValue φ)}

/-- A bundle is built whenever the history is read. -/
theorem exists_buildBundle (text : ValueText (Number φ))
    (hhistory : store.history request.resource {} = .ok history) :
    ∃ sealed, buildBundle text uuids blake3 canonicalJsonStringV2 request store = .ok sealed := by
  rw [buildBundle, buildBundleVersion, hhistory]
  exact ⟨_, rfl⟩

/-- The text of a sealed bundle is parsed to what was sealed. -/
theorem parseBundle_of_buildBundle {sealed : SealedBundle φ} (hrequest : request.WellFormed)
    (hhistory : store.history request.resource {} = .ok history)
    (hentries : ∀ entry ∈ history.entries, EntryWellFormed entry)
    (hnumbers : NumbersRoundTrip reader request history)
    (hbuild : buildBundle reader.toValueText uuids blake3 canonicalJsonStringV2 request store =
      .ok sealed) :
    parseBundle reader uuids sealed.canonicalJson = if depthFits request history then
      some sealed.bundle else none := by
  rw [buildBundle, buildBundleVersion, hhistory] at hbuild
  obtain rfl := Except.ok.inj hbuild
  refine (parseBundle_canonicalJsonString reader uuids ?_ ?_).trans ?_
  · exact ⟨hrequest.metadata, inherited_cslJsonValue inherited_sorted request.citation, hentries,
      hrequest.manifests⟩
  · -- The citations carry no number, and the counts and times of a bundle are integers.
    have hinherited := inherited_numbers reader.RoundTrips
    exact inherited_exportBundle uuids hinherited reader.document_int hnumbers.metadata
      (inherited_cslJsonValue hinherited request.citation)
      (fun entry hentry => (hentries entry hentry).attributes) hnumbers.payloads hnumbers.manifests
  · rw [fits_exportBundle uuids 121]
    dsimp only
    rw [fits_cslJsonValue, Bool.and_true]
    rfl

/-- A bundle that is built is parsed back, with the fractions that its reader keeps. -/
theorem buildBundle_parsesBack (hrequest : request.WellFormed)
    (hhistory : store.history request.resource {} = .ok history)
    (hentries : ∀ entry ∈ history.entries, EntryWellFormed entry)
    (hnumbers : NumbersRoundTrip reader request history) :
    ∃ sealed, buildBundle reader.toValueText uuids blake3 canonicalJsonStringV2 request store =
      .ok sealed ∧
      parseBundle reader uuids sealed.canonicalJson =
        if depthFits request history then some sealed.bundle else none := by
  obtain ⟨sealed, hbuild⟩ :=
    exists_buildBundle uuids blake3 canonicalJsonStringV2 reader.toValueText hhistory
  exact ⟨sealed, hbuild,
    parseBundle_of_buildBundle reader uuids blake3 canonicalJsonStringV2 hrequest hhistory
      hentries hnumbers hbuild⟩

end RoundTrip

/-! A bundle of a deleted dataset -/

namespace Deleted

/-- The resource of the bundle. -/
def resource : ResourceRef := ⟨1, 1⟩

/-- A request for a bundle. -/
def request : BundleRequest Empty where
  resource := resource
  exportedAtUnixMs := 3000
  metadataJsonld := .object [("@type", .string "Dataset")]
  citation := ⟨"1", "Wheat", "Seed Bank", "2024", "https://seeds.example/1", none, none, [], none⟩
  policy := ⟨some .ccBy, none⟩
  artifacts := [⟨"rows", "rows.parquet", "parquet", "f0", "c0", 4, none, .array [.bool true]⟩]

/-- The entry of a deletion. -/
def deletion : ProvenanceEntry (JsonValue Empty) :=
  ⟨1, resource, some ⟨9, true, [("role", "curator")]⟩, .core (.deleted "superseded"),
    some "by its owner", 1000⟩

/-- The entry of a curation. -/
def curation : ProvenanceEntry (JsonValue Empty) :=
  ⟨2, resource, none, .domain "curated" (.array [.null]), none, 2000⟩

/-- A store with both entries. -/
def store : ProvenanceStore (JsonValue Empty) := ofVecStore ⟨[curation, deletion], false⟩

end Deleted

open Deleted in
/-- The bundle of a deleted resource is parsed back. -/
theorem buildBundle_parsesBack_deleted :
    ∃ sealed, buildBundle Plain.reader.toValueText Plain.uuids (fun _ => ⟨List.replicate 32 0, rfl⟩)
      (fun _ => "") request
        store = .ok sealed ∧
      parseBundle Plain.reader Plain.uuids sealed.canonicalJson = some sealed.bundle := by
  have hrequest : request.WellFormed :=
    ⟨⟨List.pairwise_singleton _ "@type", trivial, trivial⟩,
      by simp [request, Value.Sorted, Value.sortedItems_iff]⟩
  have hentries : ∀ entry ∈ [deletion, curation], EntryWellFormed entry := by
    refine List.forall_mem_cons.mpr
      ⟨⟨?_, ?_, by decide⟩, List.forall_mem_singleton.mpr ⟨?_, ?_, by decide⟩⟩
    · rintro subject ⟨⟩
      exact List.pairwise_singleton _ _
    · simp [deletion]
    · simp [curation]
    · simp [curation, Value.Sorted, Value.sortedItems_iff]
  have hhistory : store.history request.resource {} = .ok ⟨resource, [deletion, curation]⟩ := rfl
  have hnumbers : NumbersRoundTrip Plain.reader request ⟨resource, [deletion, curation]⟩ :=
    ⟨Value.numbers_of_forall Plain.roundTrips_number _,
      fun _ _ _ _ _ => Value.numbers_of_forall Plain.roundTrips_number _,
      fun _ _ => Value.numbers_of_forall Plain.roundTrips_number _⟩
  exact buildBundle_parsesBack Plain.reader Plain.uuids _ _ hrequest hhistory hentries hnumbers

end QueryFabric.Portability
