import QueryFabric.Ir.Query
import Mathlib.Data.List.Sort

/-!
# Scopes

`crates/queryfabric-catalog/src/bind/scope.rs`: the relations that an expression may refer to, with
their schemas, and how a column reference is looked up in them. The names that a message suggests
for an unknown column are those of `suggest.rs`; its case folding is Unicode's, which is a parameter
here.
-/

namespace QueryFabric.Bind

/-- A relation in scope. -/
structure ScopeEntry where
  bindingName : String
  schema : ResultSchema
deriving DecidableEq, Repr

/-- `Scope`. -/
structure Scope where
  entries : List ScopeEntry := []
deriving DecidableEq, Repr

/-- The column that a reference was resolved to. -/
structure ResolvedColumn where
  relation : Option String
  field : ResultField
deriving DecidableEq, Repr

/-- `ColumnResolution`. -/
inductive ColumnResolution
  | local (column : ResolvedColumn)
  | missing
  | ambiguous
deriving DecidableEq, Repr

/-- The loops that make every field of a schema nullable. -/
def makeSchemaNullable (schema : ResultSchema) : ResultSchema :=
  { schema with fields := schema.fields.map fun field => { field with nullable := true } }

namespace Scope

/-- `Scope::from_output_schema`. -/
def fromOutputSchema (schema : ResultSchema) : Scope :=
  { entries := [{ bindingName := "__output__", schema }] }

/-- `Scope::push_relation`. -/
def pushRelation (scope : Scope) (relation : BoundRelation) : Scope :=
  match relation.binding with
  | some binding =>
    { entries := scope.entries ++
        [{ bindingName := binding.bindingName, schema := binding.schema }] }
  | none => scope

/-- `Scope::merge_table`. -/
def mergeTable (scope : Scope) (table : BoundTableWithJoins) : Scope :=
  table.joins.foldl (fun scope join => scope.pushRelation join.relation)
    (scope.pushRelation table.relation)

/-- `Scope::make_all_nullable`. -/
def makeAllNullable (scope : Scope) : Scope :=
  { entries := scope.entries.map fun entry =>
      { entry with schema := makeSchemaNullable entry.schema } }

/-- `Scope::expand_all`. -/
def expandAll (scope : Scope) : List ResultField :=
  scope.entries.flatMap fun entry => entry.schema.fields

/-- `Scope::expand_qualified`. -/
def expandQualified (scope : Scope) (qualifier : String) : Option (List ResultField) :=
  (scope.entries.find? fun entry => eqIgnoreAsciiCase entry.bindingName qualifier).map
    fun entry => entry.schema.fields

/-- `Scope::has_relation`. -/
def hasRelation (scope : Scope) (qualifier : String) : Bool :=
  scope.entries.any fun entry => eqIgnoreAsciiCase entry.bindingName qualifier

/-- `Scope::relation_column_names`. -/
def relationColumnNames (scope : Scope) (qualifier : String) : Option (List String) :=
  (scope.expandQualified qualifier).map fun fields => fields.map ResultField.name

/-- `Scope::all_column_names`. -/
def allColumnNames (scope : Scope) : List String := scope.expandAll.map ResultField.name

/-- The columns of an entry that a reference may mean. -/
def entryMatches (relation : Option String) (name : String) (entry : ScopeEntry) :
    List ResolvedColumn :=
  if relation.all (eqIgnoreAsciiCase entry.bindingName) then
    (entry.schema.fields.filter fun field => eqIgnoreAsciiCase field.name name).map fun field =>
      { relation := some entry.bindingName, field }
  else []

/-- `Scope::resolve_column`. -/
def resolveColumn (scope : Scope) (relation : Option String) (name : String) : ColumnResolution :=
  match scope.entries.flatMap (entryMatches relation name) with
  | [] => .missing
  | [column] => .local column
  | _ => .ambiguous

end Scope

/-- `scope_schema_for_table`. -/
def scopeSchemaForTable (table : BoundTableWithJoins) : ResultSchema :=
  let fields (relation : BoundRelation) : List ResultField :=
    match relation.binding with
    | some binding => binding.schema.fields
    | none => []
  .new (fields table.relation ++ table.joins.flatMap fun join => fields join.relation)

/-! ## Suggestions -/

/-- The rows of the table of `levenshtein`: the distances of the prefixes of `b` to the next prefix
of `a`, from those to the last one. `left` and `diagonal` are the neighbours in the two rows. -/
def levenshteinRow (c : Char) (left diagonal : Nat) : List Char → List Nat → List Nat
  | d :: b, above :: prev =>
    let next := min (min (above + 1) (left + 1)) (diagonal + if c = d then 0 else 1)
    next :: levenshteinRow c next above b prev
  | _, _ => []

/-- The last row of the table of `levenshtein`, from a row that starts with `first`. -/
def levenshteinRows (b : List Char) : List Char → Nat → List Nat → List Nat
  | [], first, row => first :: row
  | c :: a, first, row => levenshteinRows b a (first + 1) (levenshteinRow c (first + 1) first b row)

/-- `levenshtein`, with `char::to_lowercase` as a parameter. -/
def levenshtein (toLowercase : Char → List Char) (a b : String) : Nat :=
  let a := a.toList.flatMap toLowercase
  let b := b.toList.flatMap toLowercase
  if a.isEmpty then b.length
  else if b.isEmpty then a.length
  else (levenshteinRows b a 0 (List.range' 1 b.length)).getLastD 0

/-- The order of `sort_by_key` in `top_similar`: by distance, then by length in bytes. -/
def similarLe (a b : Nat × String) : Prop :=
  a.1 < b.1 ∨ (a.1 = b.1 ∧ a.2.utf8ByteSize ≤ b.2.utf8ByteSize)

/-- The order of suggestions can be checked. -/
instance : DecidableRel similarLe := fun a b => by unfold similarLe; infer_instance

/-- `top_similar`. -/
def topSimilar (toLowercase : Char → List Char) (query : String) (options : List String) (n : Nat) :
    List String :=
  let threshold := max (query.toList.length / 3) 2
  let scored := (options.map fun option => (levenshtein toLowercase query option, option)).filter
    fun scored => scored.1 ≤ threshold
  ((scored.insertionSort similarLe).take n).map Prod.snd

/-- `missing_column_remediation`. -/
def missingColumnRemediation (toLowercase : Char → List Char) (scope : Scope)
    (relation : Option String) (name : String) : Option String :=
  match relation with
  | some relation =>
    if !scope.hasRelation relation then
      some ("Unknown relation alias `" ++ relation ++ "`. Check the relation aliases in scope.")
    else (scope.relationColumnNames relation).map fun columns =>
      let suggestions := topSimilar toLowercase name columns 3
      if suggestions.isEmpty then
        "Check the relation alias `" ++ relation ++ "` and its column names."
      else "Check the column name on `" ++ relation ++ "`. Did you mean: " ++
        ", ".intercalate suggestions ++ "?"
  | none =>
    let suggestions := topSimilar toLowercase name scope.allColumnNames 3
    if suggestions.isEmpty then some "Check the relation aliases and column names in scope."
    else some ("Check the relation aliases and column names in scope. Did you mean: " ++
      ", ".intercalate suggestions ++ "?")

end QueryFabric.Bind
