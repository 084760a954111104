import QueryFabric.Bind.Validate
import QueryFabric.Lib.Json
import QueryFabric.Lib.Succeeds

/-!
# Parameters of JSON requests

`build_query_parameters` of `crates/queryfabric/src/inspect.rs` converts the values of a request
before the types of the parameters are known, by the shape of each value alone. The binder then
admits a value by its constructor, in `parameter_value_matches_schema`.

`intact_iff` says for which values of the kind of a type the two fit: the guess is wrong for a
`DOUBLE` that is written as an integer, for a text that looks like a UUID, and for a UUID that does
not look like one; and an integer above the range of `i64` fails the whole request.

The numbers with a fraction or an exponent are a type of their own, with their printing and parsing.
-/

namespace QueryFabric.JsonParameters

open Lib QueryFabric.Bind

/-- `serde_json::Number`. -/
inductive Number (F : Type)
  | posInt (value : UInt64)
  | negInt (value : Int64)
  | float (value : F)

/-- `serde_json::Value`. -/
abbrev Value (F : Type) : Type := Json.Value (Number F)

/-- How `f64` and the values of JSON are printed, and how a text is read as an `f64`. -/
structure Texts (F : Type) where
  displayFloat : F → String
  displayJson : Value F → String
  parseFloat : String → Option F
  ofUInt64 : UInt64 → F
  ofInt64 : Int64 → F

/-- `i64::try_from` of an unsigned number. -/
def toInt64? (value : UInt64) : Option Int64 :=
  if value.toNat ≤ 9223372036854775807 then some (Int64.ofNat value.toNat) else none

section Convert

variable {F : Type} (texts : Texts F)

/-- `as_i64`. -/
def Number.asI64 : Number F → Option Int64
  | .posInt value => toInt64? value
  | .negInt value => some value
  | .float _ => none

/-- `as_u64`. -/
def Number.asU64 : Number F → Option UInt64
  | .posInt value => some value
  | .negInt _ | .float _ => none

/-- `as_f64`. -/
def Number.asF64 : Number F → Option F
  | .posInt value => some (texts.ofUInt64 value)
  | .negInt value => some (texts.ofInt64 value)
  | .float value => some value

/-- `looks_like_uuid`, which reads the bytes of the text. -/
def looksLikeUuid (value : String) : Bool :=
  value.utf8ByteSize == 36 && value.toList.zipIdx.all fun (c, index) =>
    if index == 8 || index == 13 || index == 18 || index == 23 then c == '-'
    else c.isDigit || ('a' ≤ c && c ≤ 'f') || ('A' ≤ c && c ≤ 'F')

/-- The error of a number that fits no type. -/
def unsupportedNumber (number : Number F) : String :=
  "unsupported numeric parameter value `" ++ texts.displayJson (.number number) ++ "`"

/-- The conversion of a number. -/
def numberFromJson (number : Number F) : Except String ParameterValue :=
  match number.asI64 with
  | some value => .ok (.int64 value)
  | none =>
    match number.asU64 with
    | some value =>
      match toInt64? value with
      | some value => .ok (.int64 value)
      | none => .error (unsupportedNumber texts number)
    | none =>
      match number.asF64 texts with
      | some value => .ok (.float64 (texts.displayFloat value))
      | none => .error (unsupportedNumber texts number)

mutual

/-- `parameter_value_from_json`, with the message of its `Emission` error. -/
def parameterValueFromJson : Value F → Except String ParameterValue
  | .null => .ok .null
  | .bool value => .ok (.boolean value)
  | .number number => numberFromJson texts number
  | .string value => .ok (if looksLikeUuid value then .uuid value else .utf8 value)
  | .array values => (parameterValuesFromJson values).map .list
  | .object entries => .ok (.json (texts.displayJson (.object entries)))
termination_by structural x => x

/-- The loop over an array of values. -/
def parameterValuesFromJson : List (Value F) → Except String (List ParameterValue)
  | [] => .ok []
  | value :: values => do
    let first ← parameterValueFromJson value
    let rest ← parameterValuesFromJson values
    return first :: rest
termination_by structural x => x

end

/-! ## Requests -/

/-- The parameters of a request. A `HashMap` is the list of its entries. -/
structure Request (F : Type) where
  positional : Option (List (Value F))
  named : Option (List (String × Value F))

variable (request : Request F)

/-- The values by position, as a `u32`. -/
def Request.positionalEntries : List (Nat × Value F) :=
  (request.positional.getD []).zipIdx.map fun (value, index) => ((index + 1) % 4294967296, value)

/-- The named parameters, if there are any. -/
def Request.namedEntries : List (String × Value F) := request.named.getD []

/-- The values of entries, converted one after the other. -/
def convertEntries {κ : Type} (entries : List (κ × Value F)) :
    Except String (List (κ × ParameterValue)) :=
  entries.mapM fun entry => do
    let value ← parameterValueFromJson texts entry.2
    return (entry.1, value)

/-- The order of positions. -/
def positionLt (a b : Nat) : Bool := decide (a < b)

/-- The order of names. -/
def nameLt (a b : String) : Bool := decide (a < b)

/-- `build_query_parameters`. -/
def buildQueryParameters : Except String QueryParameters :=
  if request.positional.isSome && request.named.isSome then
    .error "mixed positional and named parameters are not supported"
  else do
    let positional ← convertEntries texts request.positionalEntries
    let named ← convertEntries texts request.namedEntries
    return {
      positional := positional.foldl (fun m entry => mapInsert positionLt entry.1 entry.2 m) []
      named := named.foldl (fun m entry => mapInsert nameLt entry.1 entry.2 m) [] }

end Convert

/-! ## Values of the kind of a type -/

section Kinds

variable {F : Type}

/-- The value that a request has for a reference: the last one under its position or name. -/
def Request.requested (request : Request F) : ParameterRef → Option (Value F)
  | .positional position =>
    (request.positionalEntries.reverse.find? fun entry => entry.1 = position).map Prod.snd
  | .named name => (request.namedEntries.reverse.find? fun entry => entry.1 = name).map Prod.snd

/-- The values of a request. -/
def Request.values (request : Request F) : List (Value F) :=
  request.positionalEntries.map Prod.snd ++ request.namedEntries.map Prod.snd

/-- The value is of the kind of the type: a Boolean, an integer of its range, any number for
`DOUBLE`, any text for `TEXT`, and a UUID for `UUID`. -/
def HasKind (isUuid : String → Prop) : DataType → Value F → Prop
  | .boolean, .bool _ => True
  | .int32, .number (.posInt value) => value.toNat ≤ 2147483647
  | .int32, .number (.negInt value) => -2147483648 ≤ value.toInt
  | .int64, .number (.posInt value) => value.toNat ≤ 9223372036854775807
  | .int64, .number (.negInt _) => True
  | .float64, .number _ => True
  | .utf8, .string _ => True
  | .uuid, .string value => isUuid value
  | _, _ => False

/-- The parameter value denotes the value. -/
def Denotes (texts : Texts F) : Value F → ParameterValue → Prop
  | .bool value, .boolean value' => value = value'
  | .number (.posInt value), .int64 value' => (value.toNat : Int) = value'.toInt
  | .number (.negInt value), .int64 value' => value = value'
  | .number (.posInt value), .float64 text => texts.parseFloat text = some (texts.ofUInt64 value)
  | .number (.negInt value), .float64 text => texts.parseFloat text = some (texts.ofInt64 value)
  | .number (.float value), .float64 text => texts.parseFloat text = some value
  | .string value, .utf8 text | .string value, .uuid text => value = text
  | _, _ => False

/-- The shape of the value shows the type. -/
def ShowsType : DataType → Value F → Prop
  | .float64, .number (.posInt _) | .float64, .number (.negInt _) => False
  | .utf8, .string value => looksLikeUuid value = false
  | .uuid, .string value => looksLikeUuid value = true
  | _, _ => True

mutual

/-- No integer of the value is above the range of `i64`. -/
def Fits : Value F → Prop
  | .number (.posInt value) => value.toNat ≤ 9223372036854775807
  | .array values => AllFit values
  | _ => True
termination_by structural x => x

/-- Every value of a list fits. -/
def AllFit : List (Value F) → Prop
  | [] => True
  | value :: values => Fits value ∧ AllFit values
termination_by structural x => x

end

/-- The value of a request comes to the binder as one that it admits and that denotes the same. -/
def Intact (texts : Texts F) (request : Request F) (schema : ParameterSchema)
    (value : Value F) : Prop :=
  ∃ parameters found, buildQueryParameters texts request = .ok parameters ∧
    parameters.lookup schema.reference = some found ∧
    parameterValueMatchesSchema schema.dataType schema.nullable found = true ∧
      Denotes texts value found

/-- Positions are ordered as keys. -/
theorem isKeyOrder_positionLt : IsKeyOrder positionLt where
  irrefl a := by simp [positionLt]
  trans hab hbc := decide_eq_true (lt_trans (of_decide_eq_true hab) (of_decide_eq_true hbc))
  trichotomy a b hab hba := by
    simp only [positionLt, decide_eq_false_iff_not, not_lt] at hab hba
    exact le_antisymm hba hab

/-- Names are ordered as keys. -/
theorem isKeyOrder_nameLt : IsKeyOrder nameLt where
  irrefl a := by simp [nameLt]
  trans hab hbc := decide_eq_true (lt_trans (of_decide_eq_true hab) (of_decide_eq_true hbc))
  trichotomy a b hab hba := by
    simp only [nameLt, decide_eq_false_iff_not, not_lt] at hab hba
    exact le_antisymm hba hab

variable {texts : Texts F}

/-! ### What is converted -/

/-- A number that fits into 63 bits is a signed one. -/
theorem toInt64?_of_le {value : UInt64} (h : value.toNat ≤ 9223372036854775807) :
    toInt64? value = some (Int64.ofNat value.toNat) :=
  if_pos h

/-- The signed number has the value. -/
theorem toInt_ofNat_of_le {n : Nat} (h : n ≤ 9223372036854775807) : (Int64.ofNat n).toInt = n :=
  Int64.toInt_ofNat_of_lt (by omega)

/-- An unsigned number is converted when it fits into 63 bits. -/
theorem numberFromJson_posInt {value : UInt64} :
    numberFromJson texts (.posInt value) =
      if value.toNat ≤ 9223372036854775807 then .ok (.int64 (Int64.ofNat value.toNat))
      else .error (unsupportedNumber texts (.posInt value)) := by
  by_cases h : value.toNat ≤ 9223372036854775807
  · rw [if_pos h]
    simp only [numberFromJson, Number.asI64, toInt64?_of_le h]
  · have hnone : toInt64? value = none := if_neg h
    rw [if_neg h]
    simp only [numberFromJson, Number.asI64, Number.asU64, hnone]

mutual

/-- A value is converted when its integers fit. -/
theorem succeeds_parameterValueFromJson : ∀ value : Value F,
    Succeeds (parameterValueFromJson texts value) ↔ Fits value
  | .null | .bool _ | .string _ | .object _ => by simp [parameterValueFromJson, Fits]
  | .number (.negInt _) | .number (.float _) => by
    simp [parameterValueFromJson, numberFromJson, Number.asI64, Number.asU64, Number.asF64, Fits]
  | .number (.posInt value) => by
    rw [parameterValueFromJson, numberFromJson_posInt, Fits]
    by_cases h : value.toNat ≤ 9223372036854775807
    · simp [h]
    · simp [h]
  | .array values => by
    rw [parameterValueFromJson, Fits]
    exact succeeds_map.trans (succeeds_parameterValuesFromJson values)

/-- A list is converted when its values fit. -/
theorem succeeds_parameterValuesFromJson : ∀ values : List (Value F),
    Succeeds (parameterValuesFromJson texts values) ↔ AllFit values
  | [] => by simp [parameterValuesFromJson, AllFit]
  | value :: values => by
    have hvalue := succeeds_parameterValueFromJson value
    have hvalues := succeeds_parameterValuesFromJson values
    rw [parameterValuesFromJson, AllFit, ← hvalue, ← hvalues, succeeds_bind]
    constructor
    · rintro ⟨first, hfirst, hrest⟩
      obtain ⟨rest, hrest, -⟩ := succeeds_bind.mp hrest
      exact ⟨⟨first, hfirst⟩, ⟨rest, hrest⟩⟩
    · rintro ⟨⟨first, hfirst⟩, ⟨rest, hrest⟩⟩
      exact ⟨first, hfirst, succeeds_bind.mpr ⟨rest, hrest, succeeds_pure _⟩⟩

end

/-- What a value of the kind of a type is converted to is admitted and denotes it just when the
shape shows the type. -/
theorem converted_iff {isUuid : String → Prop}
    (hparse : ∀ x, texts.parseFloat (texts.displayFloat x) = some x)
    {dataType : DataType} {nullable : Bool} {value : Value F} {found : ParameterValue}
    (hkind : HasKind isUuid dataType value)
    (hfound : parameterValueFromJson texts value = .ok found) :
    parameterValueMatchesSchema dataType nullable found = true ∧ Denotes texts value found ↔
      ShowsType dataType value := by
  -- One case for each shape of a value, and in it one for each type that has values of the shape.
  cases value with
  | null | array | object => cases dataType <;> exact hkind.elim
  | bool value =>
    cases hfound
    cases dataType <;>
      first | exact hkind.elim | simp [parameterValueMatchesSchema, Denotes, ShowsType]
  | string value =>
    cases hfound
    -- The text becomes a UUID or a text by its looks, and the type admits one of them.
    cases hlooks : looksLikeUuid value <;> cases dataType <;>
      first | exact hkind.elim | simp [parameterValueMatchesSchema, Denotes, ShowsType, hlooks]
  | number number =>
    rw [parameterValueFromJson] at hfound
    cases number with
    | posInt value =>
      rw [numberFromJson_posInt] at hfound
      split at hfound
      · rename_i hle
        cases hfound
        -- In the range of `i64` the conversion keeps the integer.
        have hvalue : (Int64.ofNat value.toNat).toInt = value.toNat := toInt_ofNat_of_le hle
        cases dataType <;>
          first | exact hkind.elim | simp [parameterValueMatchesSchema, Denotes, ShowsType, hvalue]
      · cases hfound
    | negInt value =>
      cases hfound
      cases dataType <;>
        first | exact hkind.elim | simp [parameterValueMatchesSchema, Denotes, ShowsType]
    | float value =>
      cases hfound
      cases dataType <;>
        first | exact hkind.elim | simp [parameterValueMatchesSchema, Denotes, ShowsType, hparse]

/-! ### What is built -/

/-- The request has positional parameters or named ones, and not both. -/
def Request.IsOneKind (request : Request F) : Prop :=
  ¬ (request.positional.isSome ∧ request.named.isSome)

/-- The value that a value is converted to. -/
def converted (texts : Texts F) (value : Value F) : ParameterValue :=
  match parameterValueFromJson texts value with
  | .ok found => found
  | .error _ => .null

/-- A value that fits is converted. -/
theorem parameterValueFromJson_eq {value : Value F} (h : Fits value) :
    parameterValueFromJson texts value = .ok (converted texts value) := by
  obtain ⟨found, hfound⟩ := (succeeds_parameterValueFromJson value).mpr h
  rw [converted, hfound]

/-- Entries whose values fit are converted. -/
theorem convertEntries_eq {κ : Type} {entries : List (κ × Value F)}
    (h : ∀ entry ∈ entries, Fits entry.2) :
    convertEntries texts entries =
      .ok (entries.map fun entry => (entry.1, converted texts entry.2)) := by
  refine mapM_ok_map fun entry hentry => ?_
  rw [parameterValueFromJson_eq (h entry hentry)]
  rfl

/-- Entries are converted when their values fit. -/
theorem succeeds_convertEntries {κ : Type} {entries : List (κ × Value F)} :
    Succeeds (convertEntries texts entries) ↔ ∀ entry ∈ entries, Fits entry.2 := by
  rw [convertEntries, succeeds_mapM]
  refine forall₂_congr fun entry _ => ?_
  rw [succeeds_bind, ← @succeeds_parameterValueFromJson F texts]
  exact exists_congr fun _ => and_iff_left (succeeds_pure _)

/-- The values of a request are those of its positions and of its names. -/
theorem forall_values_iff {request : Request F} : (∀ value ∈ request.values, Fits value) ↔
    (∀ entry ∈ request.positionalEntries, Fits entry.2) ∧ ∀ entry ∈ request.namedEntries,
    Fits entry.2 := by
  rw [Request.values, List.forall_mem_append, List.forall_mem_map, List.forall_mem_map]

/-- A request is built when it is of one kind and all its integers fit. -/
theorem succeeds_buildQueryParameters {request : Request F} :
    Succeeds (buildQueryParameters texts request) ↔ request.IsOneKind ∧ ∀ value ∈ request.values,
    Fits value := by
  rw [forall_values_iff, buildQueryParameters, Request.IsOneKind]
  -- A request of both kinds is refused before a value is converted.
  by_cases hmixed : request.positional.isSome ∧ request.named.isSome
  · rw [if_pos (by simpa using hmixed)]
    simp [hmixed]
  · rw [if_neg (by simpa using hmixed), succeeds_bind]
    rw [and_iff_right hmixed, ← @succeeds_convertEntries F texts,
      ← @succeeds_convertEntries F texts]
    constructor
    · rintro ⟨positional, hpositional, hnamed⟩
      obtain ⟨named, hnamed, -⟩ := succeeds_bind.mp hnamed
      exact ⟨⟨positional, hpositional⟩, ⟨named, hnamed⟩⟩
    · rintro ⟨⟨positional, hpositional⟩, ⟨named, hnamed⟩⟩
      exact ⟨positional, hpositional, succeeds_bind.mpr ⟨named, hnamed, succeeds_pure _⟩⟩

/-- The map of converted entries has, under each key, what the last of its values is converted
to. -/
theorem lookup_converted {κ : Type} [DecidableEq κ] {lt : κ → κ → Bool} (O : IsKeyOrder lt)
    (entries : List (κ × Value F)) (key : κ) :
    ((entries.map fun entry => (entry.1, converted texts entry.2)).foldl
      (fun m entry => mapInsert lt entry.1 entry.2 m) []).lookup key =
      (((entries.reverse.find? fun entry => entry.1 = key).map Prod.snd).map
        (converted texts)) := by
  -- The last entry of a key is in the map, and converting the values keeps the keys.
  rw [lookup_foldl_mapInsert O Prod.fst Prod.snd, List.lookup_nil, Option.or_none,
    ← List.map_reverse, List.find?_map]
  cases hfind : entries.reverse.find? fun entry => entry.1 = key with
  | none =>
    have hnone : (entries.reverse.find? ((fun c : κ × ParameterValue => decide (c.1 = key)) ∘
        fun entry => (entry.1, converted texts entry.2))) = none := hfind
    rw [hnone]
    rfl
  | some entry =>
    have hsome : (entries.reverse.find? ((fun c : κ × ParameterValue => decide (c.1 = key)) ∘
        fun entry => (entry.1, converted texts entry.2))) = some entry := hfind
    rw [hsome]
    rfl

/-- The parameters have, for each reference, what the value that the request has for it is converted
to. -/
theorem lookup_buildQueryParameters {request : Request F} {parameters : QueryParameters}
    (h : buildQueryParameters texts request = .ok parameters) (reference : ParameterRef) :
    parameters.lookup reference = (request.requested reference).map (converted texts) := by
  obtain ⟨hkind, hfits⟩ := succeeds_buildQueryParameters.mp ⟨parameters, h⟩
  obtain ⟨hpositional, hnamed⟩ := forall_values_iff.mp hfits
  rw [buildQueryParameters, if_neg (by simpa [Request.IsOneKind] using hkind),
    convertEntries_eq hpositional, convertEntries_eq hnamed] at h
  cases h
  cases reference with
  | positional position =>
    exact lookup_converted isKeyOrder_positionLt request.positionalEntries position
  | named name => exact lookup_converted isKeyOrder_nameLt request.namedEntries name

/-- A requested value is one of the request. -/
theorem mem_values_of_requested {request : Request F} {reference : ParameterRef} {value : Value F}
    (h : request.requested reference = some value) : value ∈ request.values := by
  cases reference with
  | positional position =>
    obtain ⟨entry, hentry, rfl⟩ := Option.map_eq_some_iff.mp h
    exact List.mem_append_left _
      (List.mem_map_of_mem (List.mem_reverse.mp (List.mem_of_find?_eq_some hentry)))
  | named name =>
    obtain ⟨entry, hentry, rfl⟩ := Option.map_eq_some_iff.mp h
    exact List.mem_append_right _
      (List.mem_map_of_mem (List.mem_reverse.mp (List.mem_of_find?_eq_some hentry)))

/-- A value of the kind of its parameter comes to the binder intact just when the request is of one
kind, its integers are in the range of `i64`, and the shape of the value shows the type. -/
theorem intact_iff {F : Type} (texts : Texts F)
    (hparse : ∀ x, texts.parseFloat (texts.displayFloat x) = some x) (isUuid : String → Prop)
    (request : Request F) (schema : ParameterSchema) (value : Value F)
    (hrequested : request.requested schema.reference = some value)
    (hkind : HasKind isUuid schema.dataType value) :
    Intact texts request schema value ↔
      request.IsOneKind ∧ (∀ other ∈ request.values, Fits other) ∧
      ShowsType schema.dataType value := by
  constructor
  -- What is looked up is the converted value, whatever the schema asks for.
  · rintro ⟨parameters, found, hbuild, hlookup, hadmitted, hdenotes⟩
    obtain ⟨hone, hfits⟩ := succeeds_buildQueryParameters.mp ⟨parameters, hbuild⟩
    rw [lookup_buildQueryParameters hbuild, hrequested, Option.map_some, Option.some_inj] at hlookup
    subst hlookup
    have hfound : parameterValueFromJson texts value = .ok (converted texts value) :=
      parameterValueFromJson_eq (hfits value (mem_values_of_requested hrequested))
    exact ⟨hone, hfits, (converted_iff hparse hkind hfound).mp ⟨hadmitted, hdenotes⟩⟩
  · rintro ⟨hone, hfits, hshows⟩
    -- The request is built when it is of one kind and every value fits.
    obtain ⟨parameters, hbuild⟩ : Succeeds (buildQueryParameters texts request) :=
      succeeds_buildQueryParameters.mpr ⟨hone, hfits⟩
    have hfound : parameterValueFromJson texts value = .ok (converted texts value) :=
      parameterValueFromJson_eq (hfits value (mem_values_of_requested hrequested))
    obtain ⟨hadmitted, hdenotes⟩ :
        parameterValueMatchesSchema schema.dataType schema.nullable (converted texts value) = true ∧
          Denotes texts value (converted texts value) :=
      (converted_iff hparse hkind hfound).mpr hshows
    refine ⟨parameters, converted texts value, hbuild, ?_, hadmitted, hdenotes⟩
    rw [lookup_buildQueryParameters hbuild, hrequested, Option.map_some]

end Kinds

/-- Numbers that are kept as their texts. -/
def plainTexts : Texts String where
  displayFloat := id
  displayJson _ := ""
  parseFloat := some
  ofUInt64 value := toString value.toNat
  ofInt64 value := toString value.toInt

/-- A request of one value by position. -/
def positionalRequest (value : Value String) : Request String := ⟨some [value], none⟩

/-- A request of two values by name. -/
def namedRequest (label : String) (rate : Value String) : Request String :=
  ⟨none, some [("label", .string label), ("rate", rate)]⟩

/-- The first parameter, of type `DOUBLE`. -/
def doubleParameter : ParameterSchema :=
  { reference := .positional 1, dataType := .float64, nullable := false }

/-- The parameter `rate`, of type `DOUBLE`. -/
def rateParameter : ParameterSchema :=
  { reference := .named "rate", dataType := .float64, nullable := false }

/-- The number `0.5` comes to a parameter of type `DOUBLE` as it is, beside a text. -/
theorem half_intact :
    Intact plainTexts (namedRequest "north" (.number (.float "0.5"))) rateParameter
      (.number (.float "0.5")) := by
  have hrequested : (namedRequest "north" (.number (.float "0.5"))).requested
      rateParameter.reference = some (.number (.float "0.5")) := rfl
  refine (intact_iff plainTexts (fun _ => rfl) (fun _ => True) _ rateParameter _ hrequested
    trivial).mpr ⟨fun hboth => Bool.false_ne_true hboth.1, ?_, trivial⟩
  exact List.forall_mem_cons.mpr ⟨trivial, List.forall_mem_singleton.mpr trivial⟩

/-- The number `1` does not come to a parameter of type `DOUBLE`: it is converted to an integer. -/
theorem integer_for_double :
    (positionalRequest (.number (.posInt 1))).requested doubleParameter.reference =
      some (.number (.posInt 1)) ∧
      HasKind (fun _ => True) doubleParameter.dataType (.number (.posInt 1) : Value String) ∧
      ¬ Intact plainTexts (positionalRequest (.number (.posInt 1))) doubleParameter
        (.number (.posInt 1)) := by
  refine ⟨rfl, trivial, ?_⟩
  rintro ⟨parameters, found, hbuild, hlookup, hadmitted, -⟩
  have hparameters : buildQueryParameters plainTexts (positionalRequest (.number (.posInt 1))) =
      .ok { positional := [(1, .int64 1)] } := rfl
  cases hparameters.symm.trans hbuild
  cases hlookup
  cases hadmitted

end QueryFabric.JsonParameters
