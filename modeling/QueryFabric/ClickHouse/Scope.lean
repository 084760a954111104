import QueryFabric.Catalog.Model

/-!
# The scope of a select in the ClickHouse rewriter

`crates/queryfabric-adapter-clickhouse/src/rewrite/scope.rs`: the relations of a `FROM` clause, the
merge function that a materialized-view column wants around it, and the events that rewriting
records. Rewriting only ever adds events to the summary, so the model of a rewriting function
returns the events it records, and `mvSummary` is the summary of them all.
-/

namespace QueryFabric.ClickHouse

/-- `WrapperSpec`: the function that merges the partial states of a column. -/
structure WrapperSpec where
  namespace_ : Option String
  name : String
deriving DecidableEq, Repr

namespace WrapperSpec

/-- A merge function of the `ch` namespace. -/
def ch (name : String) : WrapperSpec := { namespace_ := some "ch", name }

/-- A plain aggregate that merges itself. -/
def plain (name : String) : WrapperSpec := { namespace_ := none, name }

/-- `WrapperSpec::from_merge_fn`. -/
def fromMergeFn (name : String) : Option WrapperSpec :=
  match toAsciiLowercase name with
  | "summerge" => some (ch "sum_merge")
  | "countmerge" => some (ch "count_merge")
  | "avgmerge" => some (ch "avg_merge")
  | "stddevpopmerge" => some (ch "stddevpop_merge")
  | "sum" => some (plain "sum")
  | "count" => some (plain "count")
  | "min" => some (plain "min")
  | "max" => some (plain "max")
  | "avg" => some (plain "avg")
  | _ => none

/-- `WrapperSpec::from_function`. -/
def fromFunction (function : FunctionRef) : Option WrapperSpec :=
  match function.namespace_.map toAsciiLowercase, toAsciiLowercase function.name with
  | some "ch", "avg_merge" => some (ch "avg_merge")
  | some "ch", "count_merge" => some (ch "count_merge")
  | some "ch", "sum_merge" => some (ch "sum_merge")
  | some "ch", "stddevpop_merge" => some (ch "stddevpop_merge")
  | some "ch", "varpop_merge" => some (ch "varpop_merge")
  | none, "min" => some (plain "min")
  | none, "max" => some (plain "max")
  | _, _ => none

/-- `WrapperSpec::function_ref`. -/
def functionRef (w : WrapperSpec) : FunctionRef := { namespace_ := w.namespace_, name := w.name }

/-- `WrapperSpec::matches`. -/
def matches_ (w : WrapperSpec) (function : FunctionRef) : Bool :=
  eqIgnoreAsciiCase function.name w.name &&
    match w.namespace_, function.namespace_ with
    | none, none => true
    | some left, some right => eqIgnoreAsciiCase left right
    | _, _ => false

end WrapperSpec

/-- `ScopeBinding`. -/
structure ScopeBinding where
  bindingName : String
  relationDisplay : String
  relation : RelationSchema
deriving DecidableEq, Repr

/-- `SelectScope`: the catalog relations of a `FROM` clause, in order. -/
abbrev SelectScope := List ScopeBinding

/-- `ResolvedWrapper`. -/
structure ResolvedWrapper where
  relationDisplay : String
  bindingName : String
  columnName : String
  wrapper : WrapperSpec
deriving DecidableEq, Repr

/-- `WrapperNearMiss`. -/
structure WrapperNearMiss where
  relationDisplay : String
  bindingName : String
  columnName : String
  currentWrapper : WrapperSpec
  expectedWrapper : WrapperSpec
deriving DecidableEq, Repr

namespace SelectScope

/-- `SelectScope::target_binding_name`. -/
def targetBindingName (scope : SelectScope) : Option String → Option String
  | some qualifier =>
    (scope.find? fun binding => eqIgnoreAsciiCase binding.bindingName qualifier).map
      ScopeBinding.bindingName
  | none =>
    match scope with
    | [binding] => some binding.bindingName
    | _ => none

/-- The wrapper that a binding's column of the given name wants: that of the first such column, when
the relation is a materialized view. -/
def bindingWrapper (name : String) (binding : ScopeBinding) : Option ResolvedWrapper := do
  let column ← binding.relation.columns.find? fun column => eqIgnoreAsciiCase column.name name
  guard (binding.relation.kind = .materializedView)
  let mergeFn ← column.metadata.extensions.lookup "clickhouse.mv.merge_fn"
  let wrapper ← WrapperSpec.fromMergeFn mergeFn
  return { relationDisplay := binding.relationDisplay, bindingName := binding.bindingName,
           columnName := column.name, wrapper }

/-- `SelectScope::resolve_wrapper`. -/
def resolveWrapper (scope : SelectScope) (relation : Option String) (name : String) :
    Option ResolvedWrapper :=
  (scope.filter fun binding =>
    match relation with
    | none => true
    | some want => eqIgnoreAsciiCase binding.bindingName want).findSome? (bindingWrapper name)

/-- The column that a plain call is made of: one argument, without modifiers. -/
def plainColumnArg : BoundFunctionCall → Option BoundColumnRef
  | ⟨_, _, [⟨.column column, _, _, _⟩], false, none, none, _⟩ => some column
  | _ => none

/-- `SelectScope::detect_wrapper_near_miss`. -/
def detectWrapperNearMiss (scope : SelectScope) (function : BoundFunctionCall) :
    Option WrapperNearMiss := do
  let column ← plainColumnArg function
  let actual ← WrapperSpec.fromFunction function.function
  let expected ← scope.resolveWrapper column.relation column.name
  guard (actual ≠ expected.wrapper)
  return { relationDisplay := expected.relationDisplay, bindingName := expected.bindingName,
           columnName := expected.columnName, currentWrapper := actual,
           expectedWrapper := expected.wrapper }

/-- `is_existing_wrapper`. -/
def isExistingWrapper (scope : SelectScope) (function : BoundFunctionCall) : Bool :=
  match plainColumnArg function with
  | none => false
  | some column =>
    match scope.resolveWrapper column.relation column.name with
    | none => false
    | some resolved => resolved.wrapper.matches_ function.function

end SelectScope

/-- What rewriting records in the summary. -/
inductive MvEvent
  | wrap (resolved : ResolvedWrapper)
  | nearMiss (mismatch : WrapperNearMiss) (node : SyntaxNode)
deriving DecidableEq, Repr

/-- `ClickHouseMvSummary`. -/
structure ClickHouseMvSummary where
  rewrittenRelations : List String := []
  wrapEvents : List ResolvedWrapper := []
  nearMisses : List (WrapperNearMiss × SyntaxNode) := []
deriving DecidableEq, Repr

namespace ClickHouseMvSummary

/-- `record_wrap` and `record_near_miss`. -/
def record (summary : ClickHouseMvSummary) : MvEvent → ClickHouseMvSummary
  | .wrap resolved =>
    { summary with
      rewrittenRelations :=
        setInsert (fun a b => decide (a < b)) resolved.relationDisplay summary.rewrittenRelations
      wrapEvents := summary.wrapEvents ++ [resolved] }
  | .nearMiss mismatch node =>
    { summary with nearMisses := summary.nearMisses ++ [(mismatch, node)] }

/-- `rewritten_to_metadata`. -/
def rewrittenToMetadata (summary : ClickHouseMvSummary) : Option String :=
  if summary.rewrittenRelations.isEmpty then none
  else some (",".intercalate summary.rewrittenRelations)

/-- The key by which the notes about wraps are reported once. -/
def wrapKey (event : ResolvedWrapper) : String :=
  event.relationDisplay ++ "|" ++ event.bindingName ++ "|" ++ event.columnName ++ "|" ++
    event.wrapper.name ++ "|" ++ event.wrapper.name

/-- The note about a wrapped column. -/
def wrapNote (event : ResolvedWrapper) : QueryDiagnostic :=
  { QueryDiagnostic.note "QFCH201"
      ("ClickHouse emission will wrap materialized-view column `" ++ event.bindingName ++ "." ++
        event.columnName ++ "` from `" ++ event.relationDisplay ++ "` with `" ++
        event.wrapper.name ++ "`.") with
    nodeId := some "" }

/-- The warning about a column in the wrong wrapper. -/
def nearMissWarning (miss : WrapperNearMiss) (node : SyntaxNode) : QueryDiagnostic :=
  let message :=
    if miss.relationDisplay == "" then "MV relation not found for column " ++ miss.columnName
    else "column " ++ miss.bindingName ++ "." ++ miss.columnName ++ " expects wrapper \"" ++
      miss.expectedWrapper.name ++ "\" but found \"" ++ miss.currentWrapper.name ++ "\""
  { QueryDiagnostic.warning "QFCH202" message with nodeId := some node.nodeId }

/-- The notes about wraps whose key has not been seen. -/
def wrapNotes : List String → List ResolvedWrapper → List QueryDiagnostic
  | _, [] => []
  | seen, event :: events =>
    if seen.contains (wrapKey event) then wrapNotes seen events
    else wrapNote event :: wrapNotes (wrapKey event :: seen) events

/-- `analysis_diagnostics`. -/
def analysisDiagnostics (summary : ClickHouseMvSummary) : List QueryDiagnostic :=
  wrapNotes [] summary.wrapEvents ++ summary.nearMisses.map fun p => nearMissWarning p.1 p.2

/-- The notes on wrappers are no errors. -/
theorem isError_wrapNotes (events : List ResolvedWrapper) :
    ∀ seen, ∀ d ∈ wrapNotes seen events, d.isError = false := by
  induction events with
  | nil => intro seen d hd; simp [wrapNotes] at hd
  | cons event events ih =>
    intro seen d hd
    rw [wrapNotes] at hd
    split at hd
    · exact ih _ d hd
    · rcases List.mem_cons.mp hd with rfl | hd
      · rfl
      · exact ih _ d hd

/-- The summary adds notes and warnings only, so it never makes a query unsupported. -/
theorem isError_analysisDiagnostics (summary : ClickHouseMvSummary) :
    ∀ d ∈ summary.analysisDiagnostics, d.isError = false := by
  intro d hd
  rcases List.mem_append.mp hd with hd | hd
  · exact isError_wrapNotes _ _ d hd
  · obtain ⟨p, -, rfl⟩ := List.mem_map.mp hd
    rfl

end ClickHouseMvSummary

/-- The summary of the events that rewriting recorded. -/
def mvSummary (events : List MvEvent) : ClickHouseMvSummary :=
  events.foldl ClickHouseMvSummary.record {}

end QueryFabric.ClickHouse
