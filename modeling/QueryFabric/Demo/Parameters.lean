import QueryFabric.Bind.Validate

/-!
# Query parameters of the demonstrator

`parameter_to_postgres` of `crates/queryfabric-demo/src/db.rs` gives the value that is bound to a
parameter of the PostgreSQL statement. A parameter gets there after the binder has checked its value
against the inferred type with `parameter_value_matches_schema`; `binder_agrees_iff` says where the
two admit the same values.

What the parsers of other crates accept is a parameter, and a value that was parsed is kept as its
text.
-/

namespace QueryFabric.Demo

open QueryFabric.Bind

/-- The parsers for the texts of values, each with the message of its error, and the `Debug` text of
a value. -/
structure ValueTexts where
  parseFloat : String → Except String Unit
  parseUuid : String → Except String Unit
  parseJson : String → Except String Unit
  parseDate : String → Except String Unit
  parseRfc3339 : String → Except String Unit
  debug : ParameterValue → String

/-- What is bound to a parameter: a value, or `NULL` of a type. -/
inductive SqlValue
  | boolean (value : Option Bool)
  | int32 (value : Option Int32)
  | int64 (value : Option Int64)
  | float64 (text : Option String)
  | utf8 (text : Option String)
  | uuid (text : Option String)
  | json (text : Option String)
  | date (text : Option String)
  | timestamp (text : Option String)
  | timestampTz (text : Option String)
deriving DecidableEq, Repr

/-- `data_type_name`. -/
def dataTypeName : DataType → String
  | .boolean => "Boolean"
  | .int32 => "Int32"
  | .int64 => "Int64"
  | .float64 => "Float64"
  | .utf8 => "Utf8"
  | .uuid => "Uuid"
  | .json => "Json"
  | .date => "Date"
  | .decimal _ _ => "Decimal"
  | .timestamp _ => "Timestamp"
  | .list _ => "List"
  | .struct _ => "Struct"
  | .unknown => "Unknown"

/-- `i32::try_from`. -/
def toInt32? (value : Int64) : Option Int32 :=
  if -2147483648 ≤ value.toInt ∧ value.toInt ≤ 2147483647 then some value.toInt32 else none

section Convert

variable (texts : ValueTexts)

/-- `parameter_to_postgres`, with the message of its `InvalidQueryParameter`. -/
def parameterToPostgres (binding : ParameterBinding) : Except String SqlValue :=
  match binding.value with
  | none => .error (binding.schema.reference.display ++ " has no supplied value")
  | some value =>
    match binding.schema.dataType, value with
    | .boolean, .boolean value => .ok (.boolean (some value))
    -- The range of the type is checked here.
    | .int32, .int64 value =>
      match toInt32? value with
      | some value => .ok (.int32 (some value))
      | none => .error (toString value ++ " is outside Int32")
    | .int64, .int64 value => .ok (.int64 (some value))
    | .float64, .float64 text => (texts.parseFloat text).map fun _ => .float64 (some text)
    | .utf8, .utf8 text => .ok (.utf8 (some text))
    | .uuid, .uuid text => (texts.parseUuid text).map fun _ => .uuid (some text)
    | .json, .json text => (texts.parseJson text).map fun _ => .json (some text)
    -- A date and a time come in as text, which the binder takes for a value of another type.
    | .date, .utf8 text => (texts.parseDate text).map fun _ => .date (some text)
    | .timestamp none, .utf8 text => (texts.parseRfc3339 text).map fun _ => .timestamp (some text)
    | .timestamp (some _), .utf8 text =>
      (texts.parseRfc3339 text).map fun _ => .timestampTz (some text)
    -- `NULL` is bound for every type that is executed, nullable or not.
    | .boolean, .null => .ok (.boolean none)
    | .int32, .null => .ok (.int32 none)
    | .int64, .null => .ok (.int64 none)
    | .float64, .null => .ok (.float64 none)
    | .utf8, .null => .ok (.utf8 none)
    | .uuid, .null => .ok (.uuid none)
    | .json, .null => .ok (.json none)
    | .date, .null => .ok (.date none)
    | .timestamp none, .null => .ok (.timestamp none)
    | .timestamp (some _), .null => .ok (.timestampTz none)
    | .list _, _ | .decimal _ _, _ | .struct _, _ | .unknown, _ =>
      .error (binding.schema.reference.display ++
        " cannot be executed by the demonstrator PostgreSQL adapter")
    | dataType, value =>
      .error
        (binding.schema.reference.display ++ " value " ++ texts.debug value ++ " does not match " ++
        dataTypeName dataType)

/-- The types whose parameters can be executed. -/
def IsExecutable : DataType → Prop
  | .list _ | .decimal _ _ | .struct _ | .unknown => False
  | _ => True

/-- The text of the value is one of the type, if the value has the constructor that the type's text
comes in. -/
def IsWellFormed : DataType → ParameterValue → Prop
  | .float64, .float64 text => (texts.parseFloat text).isOk = true
  | .uuid, .uuid text => (texts.parseUuid text).isOk = true
  | .json, .json text => (texts.parseJson text).isOk = true
  | .date, .utf8 text => (texts.parseDate text).isOk = true
  | .timestamp _, .utf8 text => (texts.parseRfc3339 text).isOk = true
  | _, _ => True

/-- The value for a parameter is one on which the binder and the executor agree: it is no text for a
date or a time, no `NULL` where there may be none, and no integer outside of the type. -/
def IsAgreedOn (schema : ParameterSchema) (value : ParameterValue) : Prop :=
  match schema.dataType, value with
  | .date, .utf8 _ | .timestamp _, .utf8 _ => False
  | .int32, .int64 value => -2147483648 ≤ value.toInt ∧ value.toInt ≤ 2147483647
  | _, .null => schema.nullable = true
  | _, _ => True

/-- Both the binder and the executor admit the value. -/
structure BothAdmit (schema : ParameterSchema) (value : ParameterValue) : Prop where
  bound : parameterValueMatchesSchema schema.dataType schema.nullable value = true
  executed : (parameterToPostgres texts ⟨schema, some value⟩).isOk = true

/-- A value is no error. -/
@[simp]
theorem isOk_ok {α : Type} (a : α) : (Except.ok a : Except String α).isOk = true := rfl

/-- An error is no value. -/
@[simp]
theorem isOk_error {α : Type} (message : String) :
    (Except.error message : Except String α).isOk = false := rfl

/-- A mapped result is a value just when the result is. -/
@[simp]
theorem isOk_map {α β : Type} {f : α → β} (x : Except String α) : (x.map f).isOk = x.isOk := by
  cases x <;> rfl

/-- The executor converts an integer for a 32 bit column that fits it. -/
theorem isOk_toInt32 (reference : ParameterRef) (nullable : Bool) (metadata : FieldMetadata)
    (value : Int64) :
    (parameterToPostgres texts ⟨⟨reference, .int32, nullable, metadata⟩,
      some (.int64 value)⟩).isOk = true ↔
      -2147483648 ≤ value.toInt ∧ value.toInt ≤ 2147483647 := by
  unfold parameterToPostgres toInt32?
  dsimp only
  by_cases h : -2147483648 ≤ value.toInt ∧ value.toInt ≤ 2147483647
  · rw [if_pos h]
    exact iff_of_true rfl h
  · rw [if_neg h]
    exact iff_of_false nofun h

/-- The binder and the executor do the same with a value, up to the `NULL` of a parameter that may
have none, the texts of dates and times, and the range of integers. -/
theorem agrees_iff_isAgreedOn {schema : ParameterSchema} {value : ParameterValue}
    (htype : IsExecutable schema.dataType) (hvalue : IsWellFormed texts schema.dataType value) :
    (parameterValueMatchesSchema schema.dataType schema.nullable value = true ↔
      (parameterToPostgres texts ⟨schema, some value⟩).isOk = true) ↔ IsAgreedOn schema value := by
  obtain ⟨reference, dataType, nullable, metadata⟩ := schema
  -- The cases are those of the match in `parameter_to_postgres`.
  cases dataType with
  | list | decimal | struct | unknown => exact htype.elim
  | int32 =>
    cases value with
    | int64 value =>
      rw [isOk_toInt32]
      exact ⟨fun h => h.mp rfl, fun h => iff_of_true rfl h⟩
    | _ => simp [parameterValueMatchesSchema, parameterToPostgres, IsAgreedOn]
  | timestamp timezone =>
    cases timezone <;> cases value <;>
      simp_all [parameterValueMatchesSchema, parameterToPostgres, IsAgreedOn, IsWellFormed]
  | _ =>
    cases value <;>
      simp_all [parameterValueMatchesSchema, parameterToPostgres, IsAgreedOn, IsWellFormed]

/-- The parsers accept some text for each type whose values are texts. -/
structure ValueTexts.Lawful : Prop where
  float : (texts.parseFloat "0").isOk = true
  uuid : (texts.parseUuid "00000000-0000-0000-0000-000000000000").isOk = true
  json : (texts.parseJson "null").isOk = true

/-- The types of dates and times. -/
def IsDateOrTime : DataType → Prop
  | .date | .timestamp _ => True
  | _ => False

/-- A type has a value that both sides admit, other than `NULL`, unless it is that of dates or
times. -/
theorem exists_bothAdmit_iff (htexts : texts.Lawful) {schema : ParameterSchema}
    (htype : IsExecutable schema.dataType) :
    (∃ value, isNullValue value = false ∧ BothAdmit texts schema value) ↔
      ¬ IsDateOrTime schema.dataType := by
  obtain ⟨reference, dataType, nullable, metadata⟩ := schema
  constructor
  · rintro ⟨value, hvalue, hbound, -⟩ hdate
    cases dataType with
    | date | timestamp => cases value <;> simp_all [parameterValueMatchesSchema, isNullValue]
    | _ => exact hdate
  · intro hdate
    cases dataType with
    | list | decimal | struct | unknown => exact htype.elim
    | date | timestamp => exact absurd trivial hdate
    | boolean => exact ⟨.boolean true, rfl, rfl, rfl⟩
    | int32 => exact ⟨.int64 0, rfl, rfl, rfl⟩
    | int64 => exact ⟨.int64 0, rfl, rfl, rfl⟩
    | float64 => exact ⟨.float64 "0", rfl, rfl, (isOk_map _).trans htexts.float⟩
    | utf8 => exact ⟨.utf8 "", rfl, rfl, rfl⟩
    | uuid => exact ⟨.uuid _, rfl, rfl, (isOk_map _).trans htexts.uuid⟩
    | json => exact ⟨.json "null", rfl, rfl, (isOk_map _).trans htexts.json⟩

end Convert

/-- The binder and the executor agree on a value for a type that can be executed just when it is
agreed on, and both admit some value for the type just when it is not that of dates or times. -/
theorem binder_agrees_iff (texts : ValueTexts) (htexts : texts.Lawful) (schema : ParameterSchema)
    (htype : IsExecutable schema.dataType) :
    (∀ value, IsWellFormed texts schema.dataType value →
      ((parameterValueMatchesSchema schema.dataType schema.nullable value = true ↔
        (parameterToPostgres texts ⟨schema, some value⟩).isOk = true) ↔ IsAgreedOn schema value)) ∧
    ((∃ value, isNullValue value = false ∧ BothAdmit texts schema value) ↔
      ¬ IsDateOrTime schema.dataType) :=
  ⟨fun _ hvalue => agrees_iff_isAgreedOn texts htype hvalue,
    exists_bothAdmit_iff texts htexts htype⟩

/-- Parsers that accept one text each. -/
def plainTexts : ValueTexts where
  parseFloat text := if text = "0" then .ok () else .error "invalid float literal"
  parseUuid text := if text = "00000000-0000-0000-0000-000000000000" then
    .ok () else .error "invalid character"
  parseJson text := if text = "null" then .ok () else .error "expected value at line 1 column 1"
  parseDate text := if text = "2026-01-01" then
    .ok () else .error "input contains invalid characters"
  parseRfc3339 text :=
    if text = "2026-01-01T00:00:00Z" then .ok () else .error "input contains invalid characters"
  debug _ := ""

/-- A nullable parameter of type `UUID`. -/
def uuidParameter : ParameterSchema :=
  { reference := .positional 1, dataType := .uuid, nullable := true }

/-- For a nullable UUID the binder and the executor agree on every value, and admit one. -/
theorem uuidParameter_agreed :
    (∃ value, isNullValue value = false ∧ BothAdmit plainTexts uuidParameter value) ∧
      ∀ value, IsWellFormed plainTexts uuidParameter.dataType value →
        (parameterValueMatchesSchema uuidParameter.dataType uuidParameter.nullable value = true ↔
          (parameterToPostgres plainTexts ⟨uuidParameter, some value⟩).isOk = true) := by
  obtain ⟨hvalues, hadmitted⟩ := binder_agrees_iff plainTexts ⟨rfl, rfl, rfl⟩ uuidParameter trivial
  refine ⟨hadmitted.mpr id, fun value hvalue => (hvalues value hvalue).mpr ?_⟩
  cases value with
  | null => rfl
  | _ => trivial

/-- A parameter of type `DATE`. -/
def dateParameter : ParameterSchema :=
  { reference := .positional 1, dataType := .date, nullable := false }

/-- The binder refuses a date that the executor converts, and no other value for the parameter is
admitted. -/
theorem date_disagrees :
    IsExecutable dateParameter.dataType ∧
    IsWellFormed plainTexts dateParameter.dataType (.utf8 "2026-01-01") ∧
      ¬ (parameterValueMatchesSchema dateParameter.dataType dateParameter.nullable
        (.utf8 "2026-01-01") = true ↔
        (parameterToPostgres plainTexts ⟨dateParameter, some (.utf8 "2026-01-01")⟩).isOk = true) ∧
      ¬ ∃ value, isNullValue value = false ∧ BothAdmit plainTexts dateParameter value := by
  have hadmitted : (∃ value, isNullValue value = false ∧ BothAdmit plainTexts dateParameter value) ↔
      ¬ IsDateOrTime .date := exists_bothAdmit_iff plainTexts ⟨rfl, rfl, rfl⟩ trivial
  exact ⟨trivial, rfl, fun h => absurd (h.mpr rfl) (by decide), fun h => hadmitted.mp h trivial⟩

end QueryFabric.Demo
