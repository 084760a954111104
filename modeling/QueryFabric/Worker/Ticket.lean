import QueryFabric.Worker.Service
import QueryFabric.Portability.Canonical
import QueryFabric.Portability.Documents

/-!
# The ticket that the driver sends

`connect_job_stream` of `crates/queryfabric-runtime-k8s/src/stream.rs` sends the bound query as
JSON, and `do_get` of the worker takes a ticket for the hash of the query. The JSON of a query holds
its hash as a string, so it is longer than the hash, and the worker that was started for the query
denies it: `tickets_never_agree`.

`serde_json` is a parameter, of which only the lengths of its texts are used (`JsonWriter`). So is
what `serde` derives for the members of a query other than the provenance. All maps of a query have
strings or numbers as keys, so that its serialization does not fail.
-/

namespace QueryFabric.Worker

open K8s Portability Lib.Json

/-! ## JSON text -/

/-- `serde_json::to_string`, whose bytes are those of `to_vec`. A string is written in quotes, and
an object holds the texts of its members. -/
structure JsonWriter (ν : Type) where
  text : Value ν → List Char
  string_lt : ∀ value : String, value.toList.length < (text (.string value)).length
  member_lt : ∀ (entries : List (String × Value ν)), ∀ entry ∈ entries,
    (text entry.2).length < (text (.object entries)).length

/-! ## The ticket -/

/-- The members of a bound query as their derived `Serialize` writes them. -/
structure Serializers (ν : Type) where
  parsed : ProvenQuery → Value ν
  parameters : ProvenQuery → Value ν
  diagnostics : ProvenQuery → Value ν
  capabilityRequirements : ProvenQuery → Value ν
  resultSchema : ProvenQuery → Value ν
  plan : ProvenQuery → Value ν

section Tickets

variable {ν : Type} (writer : JsonWriter ν) (serializers : Serializers ν) (spec : IsolatedJobSpec)

/-- A member that is left out when it is `None`. -/
def optionalMember (name : String) : Option String → List (String × Value ν)
  | none => []
  | some value => [(name, .string value)]

/-- `ProvenanceReceipt`, serialized. -/
def provenanceJson (receipt : ProvenanceReceipt) : Value ν :=
  .object
    (([("query_hash", .string receipt.queryHash),
        ("compiler_version", .string receipt.compilerVersion)] : List (String × Value ν)) ++
      optionalMember "catalog_snapshot" receipt.catalogSnapshot ++
      ([("dialect", .string receipt.dialect)] : List (String × Value ν)) ++
      optionalMember "backend" receipt.backend ++
      optionalMember "capability_decision" receipt.capabilityDecision ++
      optionalMember "artifact_identity" receipt.artifactIdentity)

/-- `BoundQuery`, serialized. -/
def queryJson (query : ProvenQuery) : Value ν :=
  .object
    ([("parsed", serializers.parsed query)] ++
      optionalMember "catalog_snapshot" query.catalogSnapshot ++
      (if query.parameters = [] then [] else [("parameters", serializers.parameters query)]) ++
      (if query.diagnostics = [] then [] else [("diagnostics", serializers.diagnostics query)]) ++
      (if query.capabilityRequirements.required = [] ∧
          query.capabilityRequirements.referencedFunctions = [] then []
        else [("capability_requirements", serializers.capabilityRequirements query)]) ++
      (if query.resultSchema.fields = [] then []
        else [("result_schema", serializers.resultSchema query)]) ++
      [("provenance", provenanceJson query.provenance), ("plan", serializers.plan query)])

/-- The ticket of `connect_job_stream`. -/
def ticketFor : ByteArray :=
  (String.ofList (writer.text (queryJson serializers spec.query))).toUTF8

/-- The ticket of a specification passes the check of a worker for it, and of no worker for a query
with another hash. -/
structure TicketsAgree : Prop where
  accepted : checkTicket spec (ticketFor writer serializers spec) = .ok ()
  separated : ∀ other : IsolatedJobSpec,
    other.query.provenance.queryHash ≠ spec.query.provenance.queryHash →
      checkTicket other (ticketFor writer serializers spec) ≠ .ok ()

/-- The JSON of a query is longer than its hash. -/
theorem queryHash_lt_queryJson :
    spec.query.provenance.queryHash.toList.length <
      (writer.text (queryJson serializers spec.query)).length := by
  have hhash : ("query_hash", (.string spec.query.provenance.queryHash : Value ν)) ∈
      ([("query_hash", .string spec.query.provenance.queryHash),
        ("compiler_version", .string spec.query.provenance.compilerVersion)] :
          List (String × Value ν)) ++
      optionalMember "catalog_snapshot" spec.query.provenance.catalogSnapshot ++
      ([("dialect", .string spec.query.provenance.dialect)] : List (String × Value ν)) ++
      optionalMember "backend" spec.query.provenance.backend ++
      optionalMember "capability_decision" spec.query.provenance.capabilityDecision ++
      optionalMember "artifact_identity" spec.query.provenance.artifactIdentity := by
    simp
  have hprovenance : ("provenance", (provenanceJson spec.query.provenance : Value ν)) ∈
      [("provenance", provenanceJson spec.query.provenance),
        ("plan", serializers.plan spec.query)] := List.mem_cons_self
  calc spec.query.provenance.queryHash.toList.length
      < (writer.text (.string spec.query.provenance.queryHash)).length := writer.string_lt _
    _ < (writer.text (provenanceJson spec.query.provenance)).length := writer.member_lt _ _ hhash
    _ < (writer.text (queryJson serializers spec.query)).length :=
      writer.member_lt _ _ (List.mem_append_right _ hprovenance)

/-- A worker denies the ticket that the driver sends for its own specification. -/
theorem checkTicket_ticketFor :
    checkTicket spec (ticketFor writer serializers spec) =
      .error (.permissionDenied "ticket hash mismatch") := by
  have hne : String.ofList (writer.text (queryJson serializers spec.query)) ≠
      spec.query.provenance.queryHash := by
    intro heq
    have hlength := queryHash_lt_queryJson writer serializers spec
    rw [← heq, String.toList_ofList] at hlength
    exact absurd hlength (Nat.lt_irrefl _)
  unfold checkTicket ticketFor
  rw [fromUTF8?_eq_some_iff.mpr rfl]
  exact if_pos hne

/-- The driver and the worker agree on the ticket of no specification. -/
theorem tickets_never_agree : ¬TicketsAgree writer serializers spec := by
  intro h
  have haccepted := h.accepted
  rw [checkTicket_ticketFor] at haccepted
  cases haccepted

end Tickets

/-! ## The ticket of `SELECT 1` -/

/-- A quote or a backslash is written behind a backslash, and every other character as it is. -/
theorem escapeChar_length_pos (c : Char) : 0 < (escapeChar c).length := by
  unfold escapeChar
  split <;> exact Nat.succ_pos _

/-- No text is longer than the texts with a separator between them. -/
theorem length_le_intercalate {α : Type} (separator : List α) : ∀ {texts : List (List α)}
    {text : List α}, text ∈ texts → text.length ≤ (separator.intercalate texts).length
  | [only], text, h => by rw [List.mem_singleton.mp h, List.intercalate_singleton]
  | first :: second :: texts, text, h => by
    rw [List.intercalate_cons_cons, List.length_append, List.length_append]
    rcases List.mem_cons.mp h with rfl | hmem
    · omega
    · have hrest := length_le_intercalate separator hmem
      omega

/-- `serde_json` on strings of no control characters. -/
def plainWriter : JsonWriter WrittenNumber where
  text := compactText plainText
  string_lt value := by
    -- Escaping only makes a text longer.
    have hescaped : ∀ text : List Char, text.length ≤ (text.flatMap escapeChar).length := by
      intro text
      induction text with
      | nil => exact Nat.le_refl 0
      | cons c text ih =>
        have hc := escapeChar_length_pos c
        simp only [List.flatMap_cons, List.length_append, List.length_cons]
        omega
    have hvalue := hescaped value.toList
    simp only [compactText, plainText, List.length_cons, List.length_append, List.length_nil]
    omega
  member_lt entries entry hentry := by
    have hvalue : (compactText plainText entry.2).length ≤ (entryText plainText entry).length := by
      simp only [entryText, List.length_append, List.length_cons]
      omega
    -- The object's text holds that of every entry.
    have hjoined := length_le_intercalate [',']
      (List.mem_map_of_mem (f := entryText plainText) hentry)
    rw [← entryTexts_eq] at hjoined
    rw [compactText, List.length_cons, List.length_append]
    omega

/-- A number of one digit. -/
def digitJson (c : Char) (h : isNumberChar c = true) : Value WrittenNumber :=
  .number ⟨[c], List.cons_ne_nil _ _, by rw [List.all_cons, h]; rfl⟩

/-- A span, by its offset and length. -/
def spanJson (offset len : Value WrittenNumber) : Value WrittenNumber :=
  .object [("offset", offset), ("len", len)]

/-- A node over the whole text of `SELECT 1`. -/
def nodeJson (nodeId : String) : Value WrittenNumber :=
  .object [("span", spanJson (digitJson '0' rfl) (digitJson '8' rfl)), ("node_id", .string nodeId)]

/-- What `serde` derives for the members of `selectOneSpec.query`; those that are not named are left
out of its JSON. -/
def selectOneSerializers : Serializers WrittenNumber where
  parsed _ :=
    .object
      [("dialect", .string "sql"), ("source_sql", .string "SELECT 1"),
        ("canonical_sql", .string "SELECT 1"), ("explain", .bool false),
        ("query_span", spanJson (digitJson '0' rfl) (digitJson '8' rfl)),
        ("syntax", .object
          [("node", nodeJson "syntax.unsupported"),
            ("body", .object [("Unsupported", .object
              [("description", .string "query syntax missing"),
                ("node", nodeJson "unsupported")])])])]
  parameters _ := .array []
  diagnostics _ := .array []
  capabilityRequirements _ := .object []
  resultSchema _ := .object []
  plan _ :=
    .object
      [("node", nodeJson "bound.unsupported"),
        ("body", .object [("Unsupported", .object
          [("description", .string "query has not been bound"),
            ("node", nodeJson "bound.unsupported.body"), ("result_schema", .object [])])]),
        ("result_schema", .object [])]

/-- The worker for `SELECT 1` denies the ticket that the driver sends for it. -/
theorem selectOne_ticket_denied :
    ¬TicketsAgree plainWriter selectOneSerializers selectOneSpec := by
  intro h
  have haccepted := h.accepted
  rw [checkTicket_ticketFor] at haccepted
  cases haccepted

end QueryFabric.Worker
