import QueryFabric.Text

/-!
# Portable types, schemas and parameters

The data of `crates/queryfabric-ir/src/types.rs` that the compiler reads: the logical types with
`common_type`, result fields and schemas, parameter references, values and schemas, and function
references. A `BTreeMap` or `BTreeSet` is the list of its entries in key order.
-/

namespace QueryFabric

/-- Optional metadata of a catalog or result field. -/
structure FieldMetadata where
  unit : Option String := none
  coordinateReferenceSystem : Option String := none
  ontologyId : Option String := none
  modality : Option String := none
  provenance : Option String := none
  measurementScale : Option String := none
  shape : List Nat := []
  extensions : List (String × String) := []
deriving DecidableEq, Repr

mutual

/-- The portable logical types. -/
inductive DataType
  | boolean
  | int32
  | int64
  | float64
  | utf8
  | uuid
  | json
  | date
  | decimal (precision : UInt8) (scale : Int8)
  | timestamp (timezone : Option String)
  | list (inner : DataType)
  | struct (fields : List ResultField)
  | unknown
deriving Repr

/-- A field of a result or relation schema. -/
structure ResultField where
  name : String
  dataType : DataType
  nullable : Bool
  metadata : FieldMetadata
deriving Repr

end

mutual

/-- The derived equality of `DataType`, as a Boolean. -/
def DataType.beq : DataType → DataType → Bool
  | .boolean, .boolean | .int32, .int32 | .int64, .int64 | .float64, .float64 | .utf8, .utf8
  | .uuid, .uuid | .json, .json | .date, .date | .unknown, .unknown => true
  | .decimal p s, .decimal p' s' => p == p' && s == s'
  | .timestamp z, .timestamp z' => z == z'
  | .list t, .list t' => DataType.beq t t'
  | .struct fs, .struct fs' => fieldsBeq fs fs'
  | _, _ => false

/-- The derived equality of `ResultField`, as a Boolean. -/
def ResultField.beq : ResultField → ResultField → Bool
  | ⟨n, t, nu, m⟩, ⟨n', t', nu', m'⟩ => n == n' && DataType.beq t t' && nu == nu' && m == m'

/-- The derived equality of field lists, as a Boolean. -/
def fieldsBeq : List ResultField → List ResultField → Bool
  | [], [] => true
  | f :: fs, f' :: fs' => ResultField.beq f f' && fieldsBeq fs fs'
  | _, _ => false

end

mutual

/-- `DataType.beq` decides equality. -/
theorem DataType.beq_iff : ∀ t t' : DataType, DataType.beq t t' = true ↔ t = t'
  | .boolean, t' | .int32, t' | .int64, t' | .float64, t' | .utf8, t' | .uuid, t' | .json, t'
  | .date, t' | .unknown, t' => by cases t' <;> simp [DataType.beq]
  | .decimal p s, t' => by cases t' <;> simp [DataType.beq]
  | .timestamp z, t' => by cases t' <;> simp [DataType.beq]
  | .list t, t' => by
    cases t' with
    | list u => simpa [DataType.beq] using DataType.beq_iff t u
    | _ => simp [DataType.beq]
  | .struct fs, t' => by
    cases t' with
    | struct gs => simpa [DataType.beq] using fieldsBeq_iff fs gs
    | _ => simp [DataType.beq]

/-- `ResultField.beq` decides equality. -/
theorem ResultField.beq_iff : ∀ f f' : ResultField, ResultField.beq f f' = true ↔ f = f'
  | ⟨n, t, nu, m⟩, ⟨n', t', nu', m'⟩ => by
    simp [ResultField.beq, DataType.beq_iff t t', and_assoc]

/-- `fieldsBeq` decides equality. -/
theorem fieldsBeq_iff : ∀ fs fs' : List ResultField, fieldsBeq fs fs' = true ↔ fs = fs'
  | [], [] => by simp [fieldsBeq]
  | [], _ :: _ => by simp [fieldsBeq]
  | _ :: _, [] => by simp [fieldsBeq]
  | f :: fs, f' :: fs' => by
    simp [fieldsBeq, ResultField.beq_iff f f', fieldsBeq_iff fs fs']

end

/-- The types are compared by `DataType.beq`. -/
instance : DecidableEq DataType := fun t t' => decidable_of_iff _ (DataType.beq_iff t t')

/-- The fields are compared by `ResultField.beq`. -/
instance : DecidableEq ResultField := fun f f' => decidable_of_iff _ (ResultField.beq_iff f f')

namespace DataType

/-- `DataType::is_unknown`. -/
def isUnknown : DataType → Bool
  | unknown => true
  | _ => false

/-- `DataType::is_list` of the renderer's `DataTypeExt`. -/
def isList : DataType → Bool
  | list _ => true
  | _ => false

/-- `DataType::common_type`. -/
def commonType : DataType → DataType → Option DataType
  | left, right =>
    if left = right then some left
    else match left, right with
      | unknown, other => some other
      | other, unknown => some other
      | int32, int64 | int64, int32 => some int64
      | int32, float64 | float64, int32 | int64, float64 | float64, int64 => some float64
      | list left, list right => (commonType left right).map list
      | _, _ => none

/-- `common_type` with `Unknown` for types that have none, as every fold of it uses it. -/
def commonOrUnknown (left right : DataType) : DataType := (commonType left right).getD unknown

/-- The fold of `common_type` over a list of types: `reduce`, and `Unknown` for the empty list. -/
def reduceCommon : List DataType → DataType
  | [] => unknown
  | t :: ts => ts.foldl commonOrUnknown t

end DataType

/-- `ResultField::new`. -/
def ResultField.new (name : String) (dataType : DataType) (nullable : Bool) : ResultField :=
  { name, dataType, nullable, metadata := {} }

/-- The result schema contract. -/
structure ResultSchema where
  fields : List ResultField := []
  metadata : List (String × String) := []
deriving DecidableEq, Repr

/-- `ResultSchema::new`. -/
def ResultSchema.new (fields : List ResultField) : ResultSchema := { fields }

/-- The identifier of a parameter. `Positional(0)` stands for an anonymous `?` until binding. -/
inductive ParameterRef
  | positional (position : Nat)
  | named (name : String)
deriving DecidableEq, Repr

/-- The `Display` text of a parameter reference. -/
def ParameterRef.display : ParameterRef → String
  | .positional position => "$" ++ toString position
  | .named name => ":" ++ name

/-- The derived order of `ParameterRef`: positional references first, each kind in its own order. -/
def ParameterRef.le : ParameterRef → ParameterRef → Bool
  | .positional i, .positional j => i ≤ j
  | .positional _, .named _ => true
  | .named _, .positional _ => false
  | .named a, .named b => a ≤ b

/-- The value of a parameter. -/
inductive ParameterValue
  | null
  | boolean (value : Bool)
  | int64 (value : Int64)
  | float64 (text : String)
  | utf8 (text : String)
  | uuid (text : String)
  | json (text : String)
  | list (values : List ParameterValue)
deriving Repr

/-- The schema of a parameter. -/
structure ParameterSchema where
  reference : ParameterRef
  dataType : DataType
  nullable : Bool
  metadata : FieldMetadata := {}
deriving DecidableEq, Repr

/-- A bound parameter with an optional concrete value. -/
structure ParameterBinding where
  schema : ParameterSchema
  value : Option ParameterValue
deriving Repr

/-- The parameter values that the caller passes to the binder. -/
structure QueryParameters where
  positional : List (Nat × ParameterValue) := []
  named : List (String × ParameterValue) := []
deriving Repr

/-- `QueryParameters::lookup`. -/
def QueryParameters.lookup (parameters : QueryParameters) : ParameterRef → Option ParameterValue
  | .positional position => parameters.positional.lookup position
  | .named name => parameters.named.lookup name

/-- The identifier of a function. -/
structure FunctionRef where
  namespace_ : Option String
  name : String
deriving DecidableEq, Repr

/-- `FunctionRef::display_name`. -/
def FunctionRef.displayName (f : FunctionRef) : String :=
  match f.namespace_ with
  | some ns => ns ++ "." ++ f.name
  | none => f.name

end QueryFabric
