import QueryFabric.Lib.Succeeds
import QueryFabric.Catalog.Maps
import QueryFabric.ClickHouse.Rewrite
import QueryFabric.Render.Emit

/-!
# What emission asks of a plan

Rendering fails only at the leaves of a plan: a name that is not an identifier, a type without a
spelling, a parameter without a schema, a function without a mapping, a construct that lowering
could not represent. `Obligation` is one such demand, and the `...Obligations` functions collect the
demands of a plan. `renderQueryInner_succeeds_iff` says that they are all of them.

The collection takes the rewriting catalog as an option, so that it can be read off the bound plan
for both backends: with a catalog it collects what the plan will demand once it has been rewritten
for ClickHouse, which `queryObligations_rewriteQueryPlan` states.
-/

namespace QueryFabric.Render

open ClickHouse Lib

/-- One demand of the renderer on a leaf of the plan. -/
inductive Obligation
  | identifier (value : String)
  | qualifiedName (value : String)
  | dataType (type : DataType)
  | parameter (reference : ParameterRef)
  | mapping (function : FunctionRef)
  | mappedName (function : FunctionRef)
  | supported (description : String)
deriving DecidableEq, Repr

/-- The types that have a spelling on a backend. -/
def hasTypeName : SqlBackend → DataType → Bool
  | .clickHouse, .timestamp (some timezone) => timezone != "" && timezone.toList.all isTimezoneChar
  | backend, .list inner => hasTypeName backend inner
  | _, .struct _ => false
  | _, .unknown => false
  | _, _ => true

/-- The dotted names whose segments are all identifiers. -/
def isQualifiedName (value : String) : Bool := (splitDots value).all isIdentifier

/-- The function names that `render_function_ref` accepts. -/
def isFunctionName (function : FunctionRef) : Bool :=
  (isParameterizedFunctionName function.name || isIdentifier function.name) &&
    function.namespace_.all isIdentifier

/-- The mapping of a function on the renderer's backend. -/
def SqlRenderer.mapping (r : SqlRenderer) (function : FunctionRef) : Option FunctionRef :=
  (r.catalog.resolveFunction function.namespace_ function.name).bind
    fun signature => signature.backendMapping r.backend.name

/-- The schema of a parameter, if there is one. -/
def SqlRenderer.findParameter (r : SqlRenderer) (reference : ParameterRef) :
    Option ParameterSchema :=
  r.parameterOrder.find? fun schema => schema.reference == reference

/-- Whether a renderer can meet a demand. -/
def Obligation.holds (r : SqlRenderer) : Obligation → Bool
  | identifier value => isIdentifier value
  | qualifiedName value => isQualifiedName value
  | dataType type => hasTypeName r.backend type
  | parameter reference =>
    match r.findParameter reference with
    | none => false
    | some schema => r.backend == .postgres || hasTypeName r.backend schema.dataType
  | mapping function => (r.mapping function).isSome
  | mappedName function => (r.mapping function).all isFunctionName
  | supported _ => false

/-- The demands of a call: a mapping, and a name that can be written. -/
def functionObligations (function : FunctionRef) : List Obligation :=
  [.mapping function, .mappedName function]

/-- The demands of a column reference. -/
def columnObligations (column : BoundColumnRef) : List Obligation :=
  column.relation.toList.map .qualifiedName ++ [.identifier column.name]

/-- The demands of a table name with its alias. -/
def tableObligations (binding : BoundRelationBinding) : List Obligation :=
  match binding.relationName with
  | none => [.identifier binding.bindingName]
  | some name =>
    .identifier name.name :: (name.namespace_.toList.map .identifier ++
      if eqIgnoreAsciiCase name.name binding.bindingName then []
      else [.identifier binding.bindingName])

/-- Whether rewriting puts `toString` around an expression. -/
def wrapsUuid (rewrites : Option Catalog) (expr : BoundExpr) : Bool :=
  rewrites.isSome && expr.dataType == .uuid && !isToStringCall expr

/-- The demands of the `toString` that rewriting adds. -/
def uuidObligations (rewrites : Option Catalog) (expr : BoundExpr) : List Obligation :=
  if wrapsUuid rewrites expr then functionObligations { namespace_ := none, name := "toString" }
  else []

/-- The demands of the alias of a projected expression, or of the one that rewriting adds. -/
def aliasObligations (rewrites : Option Catalog) (expr : BoundExpr) (alias_ : Option String)
    (field : ResultField) : List Obligation :=
  match alias_ with
  | some alias_ => [.identifier alias_]
  | none => if wrapsUuid rewrites expr then [.identifier field.name] else []

/-- The demands of one field of a wildcard that rewriting expands. -/
def fieldObligations (bindingName : String) (field : ResultField) : List Obligation :=
  columnObligations { relation := some bindingName, name := field.name } ++
    (if field.dataType = .uuid then
      functionObligations { namespace_ := none, name := "toString" } else []) ++
    [.identifier field.name]

/-- The demands of a wildcard: of its qualifier, or of its fields when rewriting expands it. -/
def wildcardObligations (scope : Option SelectScope) (qualifier : Option String)
    (fields : List ResultField) : List Obligation :=
  match scope.bind fun scope => scope.targetBindingName qualifier with
  | some bindingName => fields.flatMap (fieldObligations bindingName)
  | none => qualifier.toList.map .qualifiedName

section Collect

variable (rewrites : Option Catalog)

mutual

/-- The demands of a query. -/
def queryObligations : BoundQueryPlan → List Obligation
  | ⟨_, ctes, body, orderBy, limit, offset, _, _⟩ =>
    cteObligations ctes ++ setExprObligations body ++ orderByObligations none orderBy ++
      exprOptionObligations none false limit ++ exprOptionObligations none false offset

/-- What the rendering of CTEs needs. -/
def cteObligations : List BoundCte → List Obligation
  | [] => []
  | ⟨name, columns, query, _, _⟩ :: ctes =>
    .identifier name :: columns.map .identifier ++ queryObligations query ++ cteObligations ctes

/-- What the rendering of a query body needs. -/
def setExprObligations : BoundSetExpr → List Obligation
  | .select s => selectObligations s
  | .unionAll left right _ _ => setExprObligations left ++ setExprObligations right
  | .unsupported description _ _ => [.supported description]

/-- What the rendering of a select needs. -/
def selectObligations : BoundSelect → List Obligation
  | ⟨_, projection, from_, selection, groupBy, having, _, _⟩ =>
    let scope := rewrites.map fun catalog => scopeFromFromClause catalog from_
    projectionObligations scope projection ++ tablesObligations from_ ++
      exprOptionObligations scope false selection ++ exprsObligations scope false groupBy ++
      groupBy.flatMap (uuidObligations rewrites) ++ exprOptionObligations scope true having

/-- What the rendering of a projection needs. -/
def projectionObligations (scope : Option SelectScope) :
    List BoundProjectionItem → List Obligation
  | [] => []
  | .expr ⟨expr, alias_, field, _⟩ :: items =>
    exprObligations scope true expr ++ uuidObligations rewrites expr ++
      aliasObligations rewrites expr alias_ field ++ projectionObligations scope items
  | .wildcard qualifier fields _ :: items =>
    wildcardObligations scope qualifier fields ++ projectionObligations scope items
  | .unsupported description _ :: items =>
    .supported description :: projectionObligations scope items

/-- What the rendering of a `FROM` clause needs. -/
def tablesObligations : List BoundTableWithJoins → List Obligation
  | [] => []
  | table :: tables => tableWithJoinsObligations table ++ tablesObligations tables

/-- What the rendering of a table with its joins needs. -/
def tableWithJoinsObligations : BoundTableWithJoins → List Obligation
  | ⟨relation, joins, _⟩ => relationObligations relation ++ joinObligations joins

/-- What the rendering of joins needs. -/
def joinObligations : List BoundJoin → List Obligation
  | [] => []
  | ⟨_, relation, on, _⟩ :: joins =>
    relationObligations relation ++ exprOptionObligations none false on ++ joinObligations joins

/-- What the rendering of a relation needs. -/
def relationObligations : BoundRelation → List Obligation
  | .table binding _ => tableObligations binding
  | .derived binding query _ => queryObligations query ++ [.identifier binding.bindingName]
  | .nestedJoin binding tableWithJoins _ =>
    tableWithJoinsObligations tableWithJoins ++ [.identifier binding.bindingName]
  | .unsupported description _ _ => [.supported description]

/-- What the rendering of an `ORDER BY` needs. -/
def orderByObligations (scope : Option SelectScope) : List BoundOrderByExpr → List Obligation
  | [] => []
  | ⟨expr, _, _, _⟩ :: orders =>
    exprObligations scope false expr ++ orderByObligations scope orders

/-- The demands of an expression, in a scope whose columns rewriting may wrap. -/
def exprObligations (scope : Option SelectScope) (allow : Bool) : BoundExpr → List Obligation
  -- A raw column gets its wrapper only inside the select that owns it.
  | ⟨.column column, _, _, _⟩ =>
    (columnWrapper scope allow column).toList.flatMap
      (fun resolved => functionObligations resolved.wrapper.functionRef) ++ columnObligations column
  | ⟨.literal _, _, _, _⟩ => []
  | ⟨.parameter reference, _, _, _⟩ => [.parameter reference]
  | ⟨.unary _ expr, _, _, _⟩ => exprObligations scope allow expr
  | ⟨.binary _ left right, _, _, _⟩ =>
    exprObligations scope allow left ++ exprObligations scope allow right
  | ⟨.function ⟨function, backendName, args, distinct, filter, over_, signatureName⟩, _, _, _⟩ =>
    let call := ⟨function, backendName, args, distinct, filter, over_, signatureName⟩
    functionObligations function ++
      -- The arguments of a wrapper that is already there are kept as they are.
      exprsObligations (if keepArgs scope allow call then none else scope) allow args ++
      exprOptionObligations scope false filter ++ windowObligations scope over_
  | ⟨.case operand whenThen elseResult, _, _, _⟩ =>
    exprOptionObligations scope allow operand ++ whenThenObligations scope allow whenThen ++
      exprOptionObligations scope allow elseResult
  | ⟨.cast expr type, _, _, _⟩ => exprObligations scope allow expr ++ [.dataType type]
  | ⟨.between expr low high _, _, _, _⟩ =>
    exprObligations scope allow expr ++ exprObligations scope allow low ++
      exprObligations scope allow high
  | ⟨.inList expr list _, _, _, _⟩ =>
    exprObligations scope allow expr ++ exprsObligations scope allow list
  | ⟨.inSubquery expr subquery _, _, _, _⟩ =>
    exprObligations scope allow expr ++ queryObligations subquery
  | ⟨.scalarSubquery subquery, _, _, _⟩ => queryObligations subquery
  | ⟨.exists subquery, _, _, _⟩ => queryObligations subquery
  | ⟨.like expr pattern _ _, _, _, _⟩ =>
    exprObligations scope allow expr ++ exprObligations scope allow pattern
  | ⟨.isNull expr _, _, _, _⟩ => exprObligations scope allow expr
  | ⟨.tuple items, _, _, _⟩ => exprsObligations scope allow items
  | ⟨.array items, _, _, _⟩ => exprsObligations scope allow items
  | ⟨.unsupported description, _, _, _⟩ => [.supported description]

/-- What the rendering of a list of expressions needs. -/
def exprsObligations (scope : Option SelectScope) (allow : Bool) : List BoundExpr → List Obligation
  | [] => []
  | expr :: exprs => exprObligations scope allow expr ++ exprsObligations scope allow exprs

/-- What the rendering of an expression needs, if there is one. -/
def exprOptionObligations (scope : Option SelectScope) (allow : Bool) :
    Option BoundExpr → List Obligation
  | none => []
  | some expr => exprObligations scope allow expr

/-- What the rendering of the branches of a `CASE` needs. -/
def whenThenObligations (scope : Option SelectScope) (allow : Bool) :
    List BoundWhenThen → List Obligation
  | [] => []
  | ⟨condition, result⟩ :: pairs =>
    exprObligations scope allow condition ++ exprObligations scope allow result ++
      whenThenObligations scope allow pairs

/-- What the rendering of a window needs, if there is one. -/
def windowObligations (scope : Option SelectScope) : Option BoundWindowSpec → List Obligation
  | none => []
  | some ⟨partitionBy, orderBy, _⟩ =>
    exprsObligations scope false partitionBy ++ orderByObligations scope orderBy

end

end Collect

/-- `render_identifier` accepts exactly the identifiers. -/
@[simp]
theorem renderIdentifier_succeeds_iff (backend : SqlBackend) (value : String) :
    Succeeds (renderIdentifier backend value) ↔ isIdentifier value = true := by
  unfold renderIdentifier
  cases h : isIdentifier value with
  | false => simp
  | true => by_cases hs : isSimpleIdentifier value = true <;> simp [hs]

/-- The empty string is not an identifier. -/
theorem isIdentifier_empty : isIdentifier "" = false := by decide

/-- `render_qualified_name` accepts exactly the names whose segments are identifiers. -/
@[simp]
theorem renderQualifiedName_succeeds_iff (backend : SqlBackend) (value : String) :
    Succeeds (renderQualifiedName backend value) ↔ isQualifiedName value = true := by
  unfold renderQualifiedName isQualifiedName
  by_cases hempty : (splitDots value).any (fun segment => segment == "") = true
  · obtain ⟨segment, hmem, hs⟩ := List.any_eq_true.mp hempty
    have hse : segment = "" := by simpa using hs
    have hall : ¬ (splitDots value).all isIdentifier = true := by
      intro hall
      have := List.all_eq_true.mp hall segment hmem
      rw [hse, isIdentifier_empty] at this
      cases this
    simp only [hempty, if_true, not_succeeds_error, false_iff]
    exact hall
  · simp [hempty, succeeds_mapM]

/-- `backend_type_name` accepts exactly the types with a spelling. -/
@[simp]
theorem backendTypeName_succeeds_iff (backend : SqlBackend) :
    ∀ type, Succeeds (backendTypeName backend type) ↔ hasTypeName backend type = true
  | .boolean | .int32 | .int64 | .float64 | .utf8 | .uuid | .json | .date
  | .decimal _ _ | .timestamp none | .struct _ | .unknown => by
    cases backend <;> simp [backendTypeName, hasTypeName]
  | .timestamp (some timezone) => by
    cases backend
    · have hname : hasTypeName .clickHouse (.timestamp (some timezone)) =
          !(timezone == "" || !timezone.toList.all isTimezoneChar) := by
        simp [hasTypeName, bne]
      rw [hname, backendTypeName]
      cases timezone == "" || !timezone.toList.all isTimezoneChar <;> simp
    · simp [backendTypeName, hasTypeName]
  | .list inner => by
    have ih := backendTypeName_succeeds_iff backend inner
    cases backend <;> simpa [backendTypeName, hasTypeName] using ih

/-- `render_function_ref` accepts exactly the function names. -/
theorem renderFunctionRef_succeeds_iff (backend : SqlBackend) (function : FunctionRef) :
    Succeeds (renderFunctionRef backend function) ↔ isFunctionName function = true := by
  obtain ⟨namespace_, name⟩ := function
  have hns : Succeeds (renderNamespace backend namespace_) ↔
      namespace_.all isIdentifier = true := by
    cases namespace_ <;> simp [renderNamespace]
  unfold renderFunctionRef isFunctionName
  simp only [Bool.and_eq_true, Bool.or_eq_true, ← hns]
  split <;> rename_i hname <;> simp [hname, succeeds_bind]

/-- A call is rendered when the function has a mapping whose name can be written. -/
theorem mappedFunction_bind_succeeds_iff (r : SqlRenderer) (function : FunctionRef) :
    (∃ mapped, r.mappedFunction function = .ok mapped ∧
      Succeeds (renderFunctionRef r.backend mapped)) ↔
    ∀ o ∈ functionObligations function, o.holds r = true := by
  simp only [functionObligations, List.forall_mem_cons, Obligation.holds,
    renderFunctionRef_succeeds_iff]
  unfold SqlRenderer.mappedFunction SqlRenderer.mapping
  cases hsig : r.catalog.resolveFunction function.namespace_ function.name with
  | none => simp
  | some signature =>
    cases hmap : signature.backendMapping r.backend.name with
    | none => simp [hmap]
    | some mapped => simp [hmap]

/-- `render_table` accepts a table whose names are identifiers. -/
theorem renderTable_succeeds_iff (r : SqlRenderer) (binding : BoundRelationBinding) :
    Succeeds (r.renderTable binding) ↔ ∀ o ∈ tableObligations binding, o.holds r = true := by
  unfold SqlRenderer.renderTable tableObligations
  rcases binding.relationName with _ | ⟨_ | namespace_, name⟩
  · simp [Obligation.holds]
  · cases h : eqIgnoreAsciiCase name binding.bindingName <;>
      simp [h, renderNameRef, renderNamespace, succeeds_bind, Obligation.holds]
  · cases h : eqIgnoreAsciiCase name binding.bindingName <;>
      simp [h, renderNameRef, renderNamespace, succeeds_bind, Obligation.holds]

/-- A column is rendered when its obligations hold. -/
theorem renderColumn_succeeds_iff (r : SqlRenderer) (column : BoundColumnRef) :
    Succeeds (renderColumn r column) ↔ ∀ o ∈ columnObligations column, o.holds r = true := by
  unfold renderColumn columnObligations
  cases column.relation <;> simp [Obligation.holds, succeeds_bind]

/-- Parameters are ordered as keys. -/
theorem isKeyOrder_parameterLt : IsKeyOrder parameterLt := isKeyOrder_parameterRef

/-- Every parameter with a schema has a position. -/
theorem lookup_parameterPositions_isSome (r : SqlRenderer) (reference : ParameterRef) :
    (r.parameterPositions.lookup reference).isSome = (r.findParameter reference).isSome := by
  have hmem : reference ∈ r.parameterPositions.map Prod.fst ↔
      reference ∈ r.parameterOrder.map ParameterSchema.reference := by
    unfold SqlRenderer.parameterPositions
    rw [mem_keys_foldl_mapInsert isKeyOrder_parameterLt.trichotomy
      (fun p : ParameterSchema × Nat => p.1.reference)]
    have hzip : r.parameterOrder.zipIdx.map (fun p => p.1.reference) =
        r.parameterOrder.map ParameterSchema.reference := by
      rw [show (fun p : ParameterSchema × Nat => p.1.reference) =
        ParameterSchema.reference ∘ Prod.fst from rfl, ← List.map_map, List.zipIdx_map_fst]
    simp [hzip]
  have hlookup : (r.parameterPositions.lookup reference).isSome = true ↔
      reference ∈ r.parameterPositions.map Prod.fst := by
    simp only [List.lookup_isSome_iff, List.mem_map, beq_iff_eq, @eq_comm _ reference]
  rw [Bool.eq_iff_iff, hlookup, hmem, SqlRenderer.findParameter, List.find?_isSome]
  simp only [List.mem_map, beq_iff_eq]

/-- `render_parameter` accepts exactly the parameters that have a schema with a spelling. -/
theorem renderParameter_succeeds_iff (r : SqlRenderer) (reference : ParameterRef) :
    Succeeds (r.renderParameter reference) ↔ (Obligation.parameter reference).holds r = true := by
  have hpos := lookup_parameterPositions_isSome r reference
  simp only [SqlRenderer.renderParameter, Obligation.holds]
  cases hfind : r.findParameter reference with
  | none =>
    have hschema : r.parameterSchema reference =
        .error (unsupported "render" ("unknown parameter `" ++ reference.display ++ "`")) := by
      rw [SqlRenderer.parameterSchema, show r.parameterOrder.find? _ = none from hfind]
    simp [hschema, succeeds_bind]
  | some schema =>
    have hschema : r.parameterSchema reference = .ok schema := by
      rw [SqlRenderer.parameterSchema, show r.parameterOrder.find? _ = some schema from hfind]
    rw [hschema]
    rw [hfind] at hpos
    obtain ⟨position, hposition⟩ := Option.isSome_iff_exists.mp hpos
    cases hb : r.backend <;> simp [hposition, succeeds_bind]

/-- A renderer meets a list of demands. -/
def Meets (r : SqlRenderer) (obligations : List Obligation) : Prop :=
  ∀ o ∈ obligations, o.holds r = true

/-- Nothing is needed of no obligations. -/
@[simp]
theorem meets_nil (r : SqlRenderer) : Meets r [] := List.forall_mem_nil _

/-- The first obligation is met with the others. -/
@[simp]
theorem meets_cons (r : SqlRenderer) (o : Obligation) (os : List Obligation) :
    Meets r (o :: os) ↔ o.holds r = true ∧ Meets r os := List.forall_mem_cons

/-- Two lists of obligations are met together. -/
@[simp]
theorem meets_append (r : SqlRenderer) (os os' : List Obligation) :
    Meets r (os ++ os') ↔ Meets r os ∧ Meets r os' := List.forall_mem_append

variable (r : SqlRenderer)

/-- Without rewriting, no `toString` is added. -/
@[simp]
theorem wrapsUuid_none (e : BoundExpr) : wrapsUuid none e = false := by simp [wrapsUuid]

/-- Without rewriting nothing is wrapped. -/
@[simp]
theorem uuidObligations_none (expr : BoundExpr) : uuidObligations none expr = [] := by
  simp [uuidObligations]

/-- Without rewriting nothing of a list is wrapped. -/
@[simp]
theorem flatMap_uuidObligations_none (exprs : List BoundExpr) :
    exprs.flatMap (uuidObligations none) = [] := by
  simp [List.flatMap_eq_nil_iff]

/-- The columns of a CTE are rendered when their obligations are met. -/
theorem renderCteColumns_succeeds_iff (columns : List String) :
    Succeeds (renderCteColumns r columns) ↔ Meets r (columns.map .identifier) := by
  unfold renderCteColumns
  cases columns with
  | nil => simp
  | cons c cs => simp [succeeds_bind, succeeds_mapM, Meets, Obligation.holds]

/-- An alias is rendered when its obligations are met. -/
theorem renderAlias_succeeds_iff (expr : BoundExpr) (alias_ : Option String) (field : ResultField) :
    Succeeds (renderAlias r alias_) ↔ Meets r (aliasObligations none expr alias_ field) := by
  cases alias_ <;> simp [renderAlias, aliasObligations, wrapsUuid, Obligation.holds]

/-- A wildcard is rendered when its obligations are met. -/
theorem renderWildcard_succeeds_iff (qualifier : Option String) (fields : List ResultField) :
    Succeeds (renderWildcard r qualifier) ↔
      Meets r (wildcardObligations none qualifier fields) := by
  cases qualifier <;> simp [renderWildcard, wildcardObligations, Obligation.holds]

/-- A call is rendered when its mapping is, and its arguments, filter and window are. -/
theorem renderFunction_succeeds (function : FunctionRef) (backendName : Option FunctionRef)
    (args : List BoundExpr) (distinct : Bool) (filter : Option BoundExpr)
    (over_ : Option BoundWindowSpec) (signatureName : Option String) :
    Succeeds
      (renderFunction r ⟨function, backendName, args, distinct, filter, over_, signatureName⟩) ↔
      Meets r (functionObligations function) ∧ Succeeds (renderExprs r args) ∧
        Succeeds (renderExprOption r filter) ∧ Succeeds (renderWindow r over_) := by
  rw [Meets, ← mappedFunction_bind_succeeds_iff, renderFunction]
  simp only [succeeds_bind, bind_pure_comp, succeeds_map, exists_and_right, exists_eq_ok]
  grind

/-- An `IN` list is rendered when its operand and its members are: a list-typed parameter asks no
less as the whole list than as its one member. -/
theorem renderInList_succeeds (x : BoundExpr) (list : List BoundExpr) (negated : Bool)
    (ty : DataType) (nu : Bool) (nd : SyntaxNode) :
    Succeeds (renderExpr r ⟨.inList x list negated, ty, nu, nd⟩) ↔
      Succeeds (renderExpr r x) ∧ Succeeds (renderExprs r list) := by
  rw [renderExpr]
  rcases list with _ | ⟨⟨kind, ty', nu', nd'⟩, _ | ⟨y, ys⟩⟩
  · simp [SqlRenderer.listParameter, succeeds_bind]
  · -- One member: only a parameter is looked at more closely.
    cases kind with
    | parameter reference =>
      cases hschema : r.parameterSchema reference with
      | error e =>
        simp [SqlRenderer.listParameter, renderExprs, renderExpr, SqlRenderer.renderParameter,
          succeeds_bind, hschema]
      | ok schema =>
        cases hlist : schema.dataType.isList <;> cases hb : r.backend <;>
          simp [SqlRenderer.listParameter, renderExprs, renderExpr, succeeds_bind, hschema, hlist]
    | _ => simp [SqlRenderer.listParameter, succeeds_bind]
  · simp [SqlRenderer.listParameter, succeeds_bind]

mutual

/-- A query is rendered when its obligations are met. -/
theorem renderQueryInner_succeeds_iff : ∀ q : BoundQueryPlan,
    Succeeds (renderQueryInner r q) ↔ Meets r (queryObligations none q)
  | ⟨nd, ctes, body, orderBy, limit, offset, clauses, schema⟩ => by
    simp [renderQueryInner, queryObligations, succeeds_bind, renderCtes_succeeds_iff ctes,
      renderSetExpr_succeeds_iff body, renderOrderBys_succeeds_iff orderBy,
      renderExprOption_succeeds_iff false limit, renderExprOption_succeeds_iff false offset]

/-- CTEs are rendered when their obligations are met. -/
theorem renderCtes_succeeds_iff : ∀ ctes : List BoundCte,
    Succeeds (renderCtes r ctes) ↔ Meets r (cteObligations none ctes)
  | [] => by simp [renderCtes, cteObligations]
  | ⟨name, columns, query, schema, nd⟩ :: ctes => by
    simp [renderCtes, cteObligations, succeeds_bind, renderCteColumns_succeeds_iff,
      renderQueryInner_succeeds_iff query, renderCtes_succeeds_iff ctes, Obligation.holds]

/-- A query body is rendered when its obligations are met. -/
theorem renderSetExpr_succeeds_iff : ∀ s : BoundSetExpr,
    Succeeds (renderSetExpr r s) ↔ Meets r (setExprObligations none s)
  | .select s => by
    simp [renderSetExpr, setExprObligations, renderSelect_succeeds_iff s]
  | .unionAll left right nd schema => by
    simp [renderSetExpr, setExprObligations, succeeds_bind, wrapSetExpr_succeeds_iff left,
      wrapSetExpr_succeeds_iff right]
  | .unsupported description nd schema => by
    simp [renderSetExpr, setExprObligations, Obligation.holds]

/-- A branch is rendered when its obligations are met. -/
theorem wrapSetExpr_succeeds_iff : ∀ s : BoundSetExpr,
    Succeeds (wrapSetExpr r s) ↔ Meets r (setExprObligations none s)
  | .select s => by
    simp [wrapSetExpr, setExprObligations, renderSelect_succeeds_iff s]
  | .unionAll left right nd schema => by
    simp [wrapSetExpr, setExprObligations, succeeds_bind, wrapSetExpr_succeeds_iff left,
      wrapSetExpr_succeeds_iff right]
  | .unsupported description nd schema => by
    simp [wrapSetExpr, setExprObligations, Obligation.holds]

/-- A select is rendered when its obligations are met. -/
theorem renderSelect_succeeds_iff : ∀ s : BoundSelect,
    Succeeds (renderSelect r s) ↔ Meets r (selectObligations none s)
  | ⟨distinct, projection, from_, selection, groupBy, having, schema, nd⟩ => by
    simp [renderSelect, selectObligations, succeeds_bind, renderProjections_succeeds_iff projection,
      renderTables_succeeds_iff from_, renderExprOption_succeeds_iff false selection,
      renderExprs_succeeds_iff false groupBy, renderExprOption_succeeds_iff true having]

/-- A projection is rendered when its obligations are met. -/
theorem renderProjections_succeeds_iff : ∀ items : List BoundProjectionItem,
    Succeeds (renderProjections r items) ↔ Meets r (projectionObligations none none items)
  | [] => by simp [renderProjections, projectionObligations]
  | .expr ⟨expr, alias_, field, nd⟩ :: items => by
    simp [renderProjections, projectionObligations, renderProjection, succeeds_bind,
      renderExpr_succeeds_iff true expr, renderAlias_succeeds_iff r expr _ field,
      renderProjections_succeeds_iff items]
  | .wildcard qualifier fields nd :: items => by
    simp [renderProjections, projectionObligations, renderProjection, succeeds_bind,
      renderWildcard_succeeds_iff r _ fields, renderProjections_succeeds_iff items]
  | .unsupported description nd :: items => by
    simp [renderProjections, projectionObligations, renderProjection, succeeds_bind,
      Obligation.holds]

/-- A `FROM` clause is rendered when its obligations are met. -/
theorem renderTables_succeeds_iff : ∀ tables : List BoundTableWithJoins,
    Succeeds (renderTables r tables) ↔ Meets r (tablesObligations none tables)
  | [] => by simp [renderTables, tablesObligations]
  | table :: tables => by
    simp [renderTables, tablesObligations, succeeds_bind, renderTableWithJoins_succeeds_iff table,
      renderTables_succeeds_iff tables]

/-- A table with its joins is rendered when its obligations are met. -/
theorem renderTableWithJoins_succeeds_iff : ∀ table : BoundTableWithJoins,
    Succeeds (renderTableWithJoins r table) ↔ Meets r (tableWithJoinsObligations none table)
  | ⟨relation, joins, nd⟩ => by
    simp [renderTableWithJoins, tableWithJoinsObligations, succeeds_bind,
      renderRelation_succeeds_iff relation, renderJoins_succeeds_iff joins]

/-- Joins are rendered when their obligations are met. -/
theorem renderJoins_succeeds_iff : ∀ joins : List BoundJoin,
    Succeeds (renderJoins r joins) ↔ Meets r (joinObligations none joins)
  | [] => by simp [renderJoins, joinObligations]
  | ⟨kind, relation, on, nd⟩ :: joins => by
    simp [renderJoins, joinObligations, succeeds_bind, renderRelation_succeeds_iff relation,
      renderExprOption_succeeds_iff false on, renderJoins_succeeds_iff joins]

/-- A relation is rendered when its obligations are met. -/
theorem renderRelation_succeeds_iff : ∀ relation : BoundRelation,
    Succeeds (renderRelation r relation) ↔ Meets r (relationObligations none relation)
  | .table binding nd => by
    simp [renderRelation, relationObligations, renderTable_succeeds_iff, Meets]
  | .derived binding query nd => by
    simp [renderRelation, relationObligations, succeeds_bind, renderQueryInner_succeeds_iff query,
      Obligation.holds]
  | .nestedJoin binding table nd => by
    simp [renderRelation, relationObligations, succeeds_bind,
      renderTableWithJoins_succeeds_iff table, Obligation.holds]
  | .unsupported description bindingName nd => by
    simp [renderRelation, relationObligations, Obligation.holds]

/-- An `ORDER BY` is rendered when its obligations are met. -/
theorem renderOrderBys_succeeds_iff : ∀ orders : List BoundOrderByExpr,
    Succeeds (renderOrderBys r orders) ↔ Meets r (orderByObligations none none orders)
  | [] => by simp [renderOrderBys, orderByObligations]
  | ⟨expr, asc, nullsFirst, nd⟩ :: orders => by
    simp [renderOrderBys, renderOrderBy, orderByObligations, succeeds_bind,
      renderExpr_succeeds_iff false expr, renderOrderBys_succeeds_iff orders]

/-- An expression is rendered when its obligations are met. -/
theorem renderExpr_succeeds_iff (allow : Bool) : ∀ e : BoundExpr,
    Succeeds (renderExpr r e) ↔ Meets r (exprObligations none none allow e)
  -- One case per constructor, with no scope and so no wrapper.
  | ⟨.column c, ty, nu, nd⟩ => by
    simp [renderExpr, exprObligations, columnWrapper, renderColumn_succeeds_iff, Meets]
  | ⟨.literal v, ty, nu, nd⟩ => by simp [renderExpr, exprObligations]
  | ⟨.parameter reference, ty, nu, nd⟩ => by
    simp [renderExpr, exprObligations, renderParameter_succeeds_iff]
  | ⟨.unary op x, ty, nu, nd⟩ => by
    simp [renderExpr, exprObligations, renderExpr_succeeds_iff allow x]
  | ⟨.binary op x y, ty, nu, nd⟩ => by
    simp [renderExpr, exprObligations, succeeds_bind, renderExpr_succeeds_iff allow x,
      renderExpr_succeeds_iff allow y]
  | ⟨.function ⟨function, backendName, args, distinct, filter, over_, signatureName⟩, ty,
      nu, nd⟩ => by
    rw [renderExpr, exprObligations, renderFunction_succeeds]
    simp [keepArgs, renderExprs_succeeds_iff allow args, renderExprOption_succeeds_iff false filter,
      renderWindow_succeeds_iff over_]
  | ⟨.case operand whenThen elseResult, ty, nu, nd⟩ => by
    simp [renderExpr, exprObligations, succeeds_bind, renderExprOption_succeeds_iff allow operand,
      renderWhenThens_succeeds_iff allow whenThen, renderExprOption_succeeds_iff allow elseResult]
  | ⟨.cast x type, ty, nu, nd⟩ => by
    simp [renderExpr, exprObligations, succeeds_bind, renderExpr_succeeds_iff allow x,
      Obligation.holds]
  | ⟨.between x low high negated, ty, nu, nd⟩ => by
    simp [renderExpr, exprObligations, succeeds_bind, renderExpr_succeeds_iff allow x,
      renderExpr_succeeds_iff allow low, renderExpr_succeeds_iff allow high]
  | ⟨.inList x list negated, ty, nu, nd⟩ => by
    rw [renderInList_succeeds, exprObligations, meets_append, renderExpr_succeeds_iff allow x,
      renderExprs_succeeds_iff allow list]
  | ⟨.inSubquery x query negated, ty, nu, nd⟩ => by
    simp [renderExpr, exprObligations, succeeds_bind, renderExpr_succeeds_iff allow x,
      renderQueryInner_succeeds_iff query]
  | ⟨.scalarSubquery query, ty, nu, nd⟩ => by
    simp [renderExpr, exprObligations, renderQueryInner_succeeds_iff query]
  | ⟨.exists query, ty, nu, nd⟩ => by
    simp [renderExpr, exprObligations, renderQueryInner_succeeds_iff query]
  | ⟨.like x pattern negated caseInsensitive, ty, nu, nd⟩ => by
    simp [renderExpr, exprObligations, succeeds_bind, renderExpr_succeeds_iff allow x,
      renderExpr_succeeds_iff allow pattern]
  | ⟨.isNull x negated, ty, nu, nd⟩ => by
    simp [renderExpr, exprObligations, renderExpr_succeeds_iff allow x]
  | ⟨.tuple items, ty, nu, nd⟩ => by
    simp [renderExpr, exprObligations, renderExprs_succeeds_iff allow items]
  | ⟨.array items, ty, nu, nd⟩ => by
    simp [renderExpr, exprObligations, renderExprs_succeeds_iff allow items]
  | ⟨.unsupported description, ty, nu, nd⟩ => by
    simp [renderExpr, exprObligations, Obligation.holds]

/-- A list of expressions is rendered when its obligations are met. -/
theorem renderExprs_succeeds_iff (allow : Bool) : ∀ es : List BoundExpr,
    Succeeds (renderExprs r es) ↔ Meets r (exprsObligations none none allow es)
  | [] => by simp [renderExprs, exprsObligations]
  | e :: es => by
    simp [renderExprs, exprsObligations, succeeds_bind, renderExpr_succeeds_iff allow e,
      renderExprs_succeeds_iff allow es]

/-- An optional expression is rendered when its obligations are met. -/
theorem renderExprOption_succeeds_iff (allow : Bool) : ∀ o : Option BoundExpr,
    Succeeds (renderExprOption r o) ↔ Meets r (exprOptionObligations none none allow o)
  | none => by simp [renderExprOption, exprOptionObligations]
  | some e => by simp [renderExprOption, exprOptionObligations, renderExpr_succeeds_iff allow e]

/-- The branches of a `CASE` are rendered when their obligations are met. -/
theorem renderWhenThens_succeeds_iff (allow : Bool) : ∀ ws : List BoundWhenThen,
    Succeeds (renderWhenThens r ws) ↔ Meets r (whenThenObligations none none allow ws)
  | [] => by simp [renderWhenThens, whenThenObligations]
  | ⟨condition, result⟩ :: ws => by
    simp [renderWhenThens, whenThenObligations, succeeds_bind,
      renderExpr_succeeds_iff allow condition, renderExpr_succeeds_iff allow result,
      renderWhenThens_succeeds_iff allow ws]

/-- A window is rendered when its obligations are met. -/
theorem renderWindow_succeeds_iff : ∀ o : Option BoundWindowSpec,
    Succeeds (renderWindow r o) ↔ Meets r (windowObligations none none o)
  | none => by simp [renderWindow, windowObligations]
  | some ⟨partitionBy, orderBy, nd⟩ => by
    simp [renderWindow, windowObligations, succeeds_bind,
      renderExprs_succeeds_iff false partitionBy, renderOrderBys_succeeds_iff orderBy]

end

end QueryFabric.Render
