import QueryFabric.Bind.Query
import QueryFabric.Lib.Logs

/-!
# How relation names are resolved

A query may nest others: in the bodies of its CTEs, as derived tables and as subqueries of
expressions. An unqualified relation reference should mean the nearest CTE of its name: one of the
query that it stands in, or else one that was defined before or around that query. `queryReferences`
lists the references of a query with both kinds. The binder gives a nested query no CTEs but its
own, so it looks at the first kind only (`logs_query`), and `resolutions_iff` says when that makes
no difference.
-/

namespace QueryFabric.Bind

open Lib

/-- An unqualified relation reference, the CTEs of the query that it stands in, and those defined
before or around that query; the nearest come first. -/
structure RelationReference where
  name : String
  own : List SyntaxCte
  outer : List SyntaxCte

/-- The nearest CTE of a name, without regard to ASCII case. -/
def nearestCte (ctes : List SyntaxCte) (name : String) : Option SyntaxCte :=
  ctes.find? fun cte => eqIgnoreAsciiCase cte.name name

/-- What a name means where the given CTEs are in scope: the nearest of them, or else a relation of
the catalog. -/
def BinderContext.meaning (context : BinderContext) (ctes : List SyntaxCte) (name : String) :
    Resolution :=
  match nearestCte ctes name with
  | some definition => .cte definition
  | none =>
    match context.catalog.resolveRelation none name with
    | some schema => .catalog schema
    | none => .unknown

section References

variable (context : BinderContext)

/-- The reference of a table, when it is unqualified. -/
def tableReference (own outer : List SyntaxCte) (name : NameRef) : List RelationReference :=
  if name.namespace_.isNone then [{ name := name.name, own, outer }] else []

mutual

/-- The unqualified relation references of a query, in the order of binding, where the CTEs `outer`
are in scope around it. -/
def queryReferences (outer : List SyntaxCte) : SyntaxQuery → List RelationReference
  | ⟨_, ctes, _, body, orderBy, limit, offset, _⟩ =>
    cteReferences [] outer ctes ++
      (setExprReferences ctes.reverse outer body ++
        (orderByReferences (ctes.reverse ++ outer) orderBy ++
          (optionReferences (ctes.reverse ++ outer) limit ++
            optionReferences (ctes.reverse ++ outer) offset)))
termination_by structural x => x

/-- The references in the bodies of CTEs: those before them are in scope. -/
def cteReferences (earlier outer : List SyntaxCte) : List SyntaxCte → List RelationReference
  | [] => []
  | ⟨name, columns, query, node⟩ :: ctes =>
    queryReferences (earlier ++ outer) query ++
      cteReferences (⟨name, columns, query, node⟩ :: earlier) outer ctes
termination_by structural x => x

/-- The references of a query body. -/
def setExprReferences (own outer : List SyntaxCte) : SyntaxSetExpr → List RelationReference
  | .select select => selectReferences own outer select
  | .unionAll left right _ => setExprReferences own outer left ++ setExprReferences own outer right
  | .unsupported .. => []
termination_by structural x => x

/-- The references of a select. -/
def selectReferences (own outer : List SyntaxCte) : SyntaxSelect → List RelationReference
  | ⟨_, projection, from_, selection, groupBy, having, _⟩ =>
    tablesReferences own outer from_ ++
      (optionReferences (own ++ outer) selection ++
        (exprsReferences (own ++ outer) groupBy ++
          (optionReferences (own ++ outer) having ++
            projectionReferences (own ++ outer) projection)))
termination_by structural x => x

/-- The references of a `FROM` clause. -/
def tablesReferences (own outer : List SyntaxCte) :
    List SyntaxTableWithJoins → List RelationReference
  | [] => []
  | table :: tables =>
    tableWithJoinsReferences own outer table ++ tablesReferences own outer tables
termination_by structural x => x

/-- The references of a table and its joins. -/
def tableWithJoinsReferences (own outer : List SyntaxCte) :
    SyntaxTableWithJoins → List RelationReference
  | ⟨relation, joins, _⟩ => relationReferences own outer relation ++ joinReferences own outer joins
termination_by structural x => x

/-- The references of joined relations. -/
def joinReferences (own outer : List SyntaxCte) : List SyntaxJoin → List RelationReference
  | [] => []
  | ⟨_, relation, on, _⟩ :: joins =>
    relationReferences own outer relation ++
      (optionReferences (own ++ outer) on ++ joinReferences own outer joins)
termination_by structural x => x

/-- The references of a relation. -/
def relationReferences (own outer : List SyntaxCte) : SyntaxRelation → List RelationReference
  | .table name _ _ => tableReference own outer name
  | .derived query _ _ => queryReferences (own ++ outer) query
  | .nestedJoin table _ _ => tableWithJoinsReferences own outer table
  | .unsupported .. => []
termination_by structural x => x

/-- The references of a projection. -/
def projectionReferences (visible : List SyntaxCte) :
    List SyntaxProjectionItem → List RelationReference
  | [] => []
  | .wildcard .. :: items => projectionReferences visible items
  | .expr ⟨expr, _, _⟩ :: items => exprReferences visible expr ++ projectionReferences visible items
  | .unsupported .. :: items => projectionReferences visible items
termination_by structural x => x

/-- The references of an `ORDER BY`. -/
def orderByReferences (visible : List SyntaxCte) : List SyntaxOrderByExpr → List RelationReference
  | [] => []
  | ⟨expr, _, _, _⟩ :: orders => exprReferences visible expr ++ orderByReferences visible orders
termination_by structural x => x

/-- The references in the subqueries of an expression. The arguments of an unknown function are not
looked at: the query is refused for the function. -/
def exprReferences (visible : List SyntaxCte) : SyntaxExpr → List RelationReference
  | ⟨.column .., _⟩ | ⟨.literal _, _⟩ | ⟨.parameter _, _⟩ | ⟨.unsupported _, _⟩ => []
  | ⟨.unary _ expr, _⟩ => exprReferences visible expr
  | ⟨.binary _ left right, _⟩ => exprReferences visible left ++ exprReferences visible right
  | ⟨.function ⟨function, args, _, filter, over_⟩, _⟩ =>
    -- The parts of a call without a signature are not bound.
    if (context.signature function).isSome then
      exprsReferences visible args ++
        (optionReferences visible filter ++ windowReferences visible over_)
    else []
  | ⟨.case operand whenThen elseResult, _⟩ =>
    optionReferences visible operand ++
      (whenThenReferences visible whenThen ++ optionReferences visible elseResult)
  | ⟨.cast expr _, _⟩ => exprReferences visible expr
  | ⟨.between expr low high _, _⟩ =>
    exprReferences visible expr ++ (exprReferences visible low ++ exprReferences visible high)
  | ⟨.inList expr list _, _⟩ => exprReferences visible expr ++ exprsReferences visible list
  | ⟨.inSubquery expr subquery _, _⟩ =>
    exprReferences visible expr ++ queryReferences visible subquery
  | ⟨.scalarSubquery subquery, _⟩ => queryReferences visible subquery
  | ⟨.exists subquery, _⟩ => queryReferences visible subquery
  | ⟨.like expr pattern _ _, _⟩ => exprReferences visible expr ++ exprReferences visible pattern
  | ⟨.isNull expr _, _⟩ => exprReferences visible expr
  | ⟨.tuple items, _⟩ => exprsReferences visible items
  | ⟨.array items, _⟩ => exprsReferences visible items
termination_by structural x => x

/-- The references of a list of expressions. -/
def exprsReferences (visible : List SyntaxCte) : List SyntaxExpr → List RelationReference
  | [] => []
  | expr :: exprs => exprReferences visible expr ++ exprsReferences visible exprs
termination_by structural x => x

/-- The references of an expression, if there is one. -/
def optionReferences (visible : List SyntaxCte) : Option SyntaxExpr → List RelationReference
  | none => []
  | some expr => exprReferences visible expr
termination_by structural x => x

/-- The references of the branches of a `CASE`. -/
def whenThenReferences (visible : List SyntaxCte) : List SyntaxWhenThen → List RelationReference
  | [] => []
  | ⟨condition, result⟩ :: pairs =>
    exprReferences visible condition ++
      (exprReferences visible result ++ whenThenReferences visible pairs)
termination_by structural x => x

/-- The references of a window, if there is one. -/
def windowReferences (visible : List SyntaxCte) : Option WindowSpec → List RelationReference
  | none => []
  | some ⟨partitionBy, orderBy, _⟩ =>
    exprsReferences visible partitionBy ++ orderByReferences visible orderBy

termination_by structural x => x

end

end References

/-! ## What the binder looks at -/

/-- The scope holds, under each lowercased name, the nearest of the CTEs. -/
def Represents (cteScope : CteScope) (ctes : List SyntaxCte) : Prop :=
  ∀ name, (cteScope.lookup (toAsciiLowercase name)).map CteEntry.definition = nearestCte ctes name

/-- No CTEs are represented by none. -/
theorem represents_nil : Represents [] [] := fun _ => rfl

/-- A CTE that is inserted is the nearest of its name. -/
theorem Represents.insert {cteScope : CteScope} {ctes : List SyntaxCte}
    (h : Represents cteScope ctes) (definition : SyntaxCte) (binding : BoundRelationBinding) :
    Represents (mapInsert (fun a b => decide (a < b)) (toAsciiLowercase definition.name)
      { definition, binding } cteScope) (definition :: ctes) := by
  intro other
  rw [lookup_mapInsert_string, nearestCte, List.find?_cons, eqIgnoreAsciiCase]
  by_cases heq : toAsciiLowercase other = toAsciiLowercase definition.name
  · simp [heq]
  · have hne : (toAsciiLowercase definition.name == toAsciiLowercase other) = false := by
      simpa using fun h => heq h.symm
    simp only [if_neg heq, hne]
    exact h other

/-- The entries that the binder logs for references: their meaning among the CTEs of the query that
they stand in. -/
def binderLog (context : BinderContext) (references : List RelationReference) :
    List (String × Resolution) :=
  references.map fun reference => (reference.name, context.meaning reference.own reference.name)

section Logs

variable {context : BinderContext}

/-- What is logged of two lists of references. -/
@[simp]
theorem binderLog_append (references others : List RelationReference) :
    binderLog context (references ++ others) =
      binderLog context references ++ binderLog context others :=
  List.map_append

/-- Nothing is logged of no references. -/
@[simp]
theorem binderLog_nil : binderLog context [] = [] := rfl

/-- The computation logs exactly these references. -/
abbrev Resolves {α : Type} (context : BinderContext) (m : BindM α)
    (references : List RelationReference) (Q : α → Prop) : Prop :=
  Logs Binder.resolutions m (binderLog context references) Q

/-- The computation resolves no name. -/
abbrev Silent {α : Type} (m : BindM α) : Prop := Logs Binder.resolutions m [] fun _ => True

variable {α : Type}

/-- What is returned resolves nothing. -/
theorem silent_pure (a : α) : Silent (pure a) := Logs.pure trivial

/-- An error resolves nothing. -/
theorem silent_pushError (code message : String) (node : SyntaxNode) (remediation : Option String) :
    Silent (pushError code message node remediation) :=
  Logs.modify fun s => by simp

/-- A warning resolves nothing. -/
theorem silent_pushWarning (code message : String) (node : SyntaxNode)
    (remediation : Option String) : Silent (pushWarning code message node remediation) :=
  Logs.modify fun s => by simp

/-- An unsupported expression resolves nothing. -/
theorem silent_unsupportedExpr (expr : SyntaxExpr) (code message : String)
    (remediation : Option String) : Silent (unsupportedExpr expr code message remediation) :=
  Logs.silent_bind (silent_pushError code message expr.node remediation) fun _ _ => silent_pure _

/-- A new parameter resolves nothing. -/
theorem silent_allocateParameter (reference : ParameterRef) :
    Silent (allocateParameter reference) := by
  intro s
  unfold allocateParameter
  split
  · exact ⟨(List.append_nil _).symm, trivial⟩
  · exact ⟨(List.append_nil _).symm, trivial⟩

/-- The use of a parameter resolves nothing. -/
theorem silent_recordParameterUse (reference : ParameterRef) (expected : ExpectedType)
    (node : SyntaxNode) : Silent (recordParameterUse reference expected node) :=
  Logs.modify fun s => by simp

/-- The check of `WITH RECURSIVE` resolves nothing. -/
theorem silent_rejectRecursive (withRecursive : Bool) (node : SyntaxNode) :
    Silent (rejectRecursive withRecursive node) := by
  unfold rejectRecursive
  split
  · exact silent_pushError _ _ _ _
  · exact silent_pure _

/-- A test for `NULL` resolves nothing. -/
theorem silent_recordNullTest (expr : SyntaxExpr) : Silent (recordNullTest expr) := by
  unfold recordNullTest
  split
  · exact Logs.silent_bind (silent_allocateParameter _) fun _ _ => silent_recordParameterUse _ _ _
  · exact silent_pure _

/-- The warning about a function of one backend resolves nothing. -/
theorem silent_warnBackendSpecific (signature : FunctionSignature) (function : FunctionRef)
    (node : SyntaxNode) : Silent (warnBackendSpecific signature function node) := by
  unfold warnBackendSpecific
  split
  · exact silent_pushWarning _ _ _ _
  · exact silent_pure _

/-- A column resolves no relation. -/
theorem silent_bindColumn (scope : Scope) (outer : Option Scope) (expr : SyntaxExpr)
    (relation : Option String) (name : String) :
    Silent (bindColumn context scope outer expr relation name) := by
  unfold bindColumn
  split
  · exact silent_pure _
  · exact silent_unsupportedExpr _ _ _ _
  · split
    · exact silent_unsupportedExpr _ _ _ _
    · exact silent_unsupportedExpr _ _ _ _

/-- A wildcard resolves no relation. -/
theorem silent_bindWildcard (scope : Scope) (qualifier : Option String) (node : SyntaxNode) :
    Silent (bindWildcard scope qualifier node) := by
  unfold bindWildcard
  split
  · exact silent_pure _
  · split
    · exact silent_pure _
    · exact Logs.silent_bind (silent_pushError _ _ _ _) fun _ _ => silent_pure _

/-- The check of a union resolves nothing. -/
theorem silent_unifyUnionSchema (left right : ResultSchema) (node : SyntaxNode) :
    Silent (unifyUnionSchema left right node) := by
  unfold unifyUnionSchema
  split
  · exact Logs.silent_bind (silent_pushError _ _ _ _) fun _ _ => silent_pure _
  · exact silent_pure _

/-- The check of a subquery's fields resolves nothing. -/
theorem silent_subquerySingleField (node : SyntaxNode) (subquery : BoundQueryPlan)
    (code text : String) : Silent (subquerySingleField node subquery code text) := by
  unfold subquerySingleField
  split
  · exact silent_pure _
  · exact Logs.silent_bind (silent_pushError _ _ _ _) fun _ _ => silent_pure _

/-- The warnings about clauses of one backend resolve nothing. -/
theorem silent_warnBackendClauses : ∀ clauses : List BackendClause,
    Silent (warnBackendClauses clauses)
  | [] => silent_pure _
  | .clickHouseSettings _ _ :: clauses =>
    Logs.silent_bind (silent_pushWarning _ _ _ _) fun _ _ => silent_warnBackendClauses clauses
  | .clickHouseFormat _ _ :: clauses =>
    Logs.silent_bind (silent_pushWarning _ _ _ _) fun _ _ => silent_warnBackendClauses clauses

/-- A table reference is resolved among the CTEs of its query. -/
theorem resolves_bindTable {cteScope : CteScope} {own : List SyntaxCte}
    (h : Represents cteScope own) (outer : List SyntaxCte) (name : NameRef) (alias_ : Option String)
    (node : SyntaxNode) :
    Resolves context (bindTable context cteScope name alias_ node) (tableReference own outer name)
      fun _ => True := by
  unfold bindTable
  refine Logs.bind_silent (Logs.modify fun s => ?_) fun _ _ => ?_
  swap
  · split
    · exact silent_pure _
    · exact Logs.silent_bind (silent_pushError _ _ _ _) fun _ _ => silent_pure _
  cases hns : name.namespace_ with
  | some ns => simp [tableReference, hns]
  | none =>
    -- The scope holds the nearest CTE of the name, if there is one.
    have hnearest := h name.name
    simp only [tableReference, hns, Option.isNone_none, if_true, binderLog, List.map_cons,
      List.map_nil, BinderContext.meaning, ← hnearest]
    cases cteScope.lookup (toAsciiLowercase name.name) with
    | some entry => rfl
    | none =>
      simp only [Option.map_none]
      cases context.catalog.resolveRelation none name.name <;> rfl

mutual

/-- A query resolves its references, those of its subqueries among them. -/
theorem resolves_query (outer : List SyntaxCte) (scope : Option Scope) : ∀ q : SyntaxQuery,
    Resolves context (bindQuery context scope q) (queryReferences context outer q) fun _ => True
  | ⟨node, ctes, withRecursive, body, orderBy, limit, offset, backendClauses⟩ => by
    rw [bindQuery, queryReferences]
    simp only [Resolves, binderLog_append]
    refine Logs.silent_bind (silent_rejectRecursive _ _) fun _ _ => ?_
    refine Logs.bind (resolves_ctes outer represents_nil ctes) ?_
    rintro ⟨cteScope, boundCtes⟩ hscope
    rw [List.append_nil] at hscope
    refine Logs.bind (resolves_setExpr outer hscope scope body) fun bound _ => ?_
    refine Logs.bind (resolves_orderBys _ _ none orderBy) fun _ _ => ?_
    refine Logs.bind (resolves_option _ _ none _ limit) fun _ _ => ?_
    refine Logs.bind_silent (resolves_option _ _ none _ offset) fun _ _ => ?_
    exact Logs.silent_bind (silent_warnBackendClauses _) fun _ _ => silent_pure _
termination_by structural x => x

/-- The scope of the CTEs grows by each of them in turn. -/
theorem resolves_ctes (outer : List SyntaxCte) {cteScope : CteScope} {earlier : List SyntaxCte}
    (h : Represents cteScope earlier) : ∀ ctes : List SyntaxCte,
    Resolves context (bindCtes context cteScope ctes) (cteReferences context earlier outer ctes)
      fun p => Represents p.1 (ctes.reverse ++ earlier)
  | [] => by
    rw [bindCtes, cteReferences]
    exact Logs.pure h
  | ⟨name, columns, query, node⟩ :: ctes => by
    rw [bindCtes, cteReferences]
    simp only [Resolves, binderLog_append]
    refine Logs.bind (resolves_query (earlier ++ outer) none query) fun plan _ => ?_
    have hinsert := h.insert ⟨name, columns, query, node⟩
      { bindingName := name, relationName := some { namespace_ := none, name }
        schema := cteSchema columns plan.resultSchema }
    refine Logs.bind_silent (resolves_ctes outer hinsert ctes) ?_
    rintro ⟨scope, rest⟩ hscope
    exact Logs.pure (by simpa using hscope)
termination_by structural x => x

/-- A query body resolves its references. -/
theorem resolves_setExpr (outer : List SyntaxCte) {cteScope : CteScope} {own : List SyntaxCte}
    (h : Represents cteScope own) (scope : Option Scope) : ∀ body : SyntaxSetExpr,
    Resolves context (bindSetExpr context cteScope scope body)
      (setExprReferences context own outer body) fun _ => True
  | .select select => by
    rw [bindSetExpr, setExprReferences]
    exact Logs.bind_silent (resolves_select outer h scope select) fun _ _ => silent_pure _
  | .unionAll left right node => by
    rw [bindSetExpr, setExprReferences]
    simp only [Resolves, binderLog_append]
    refine Logs.bind (resolves_setExpr outer h scope left) fun _ _ => ?_
    refine Logs.bind_silent (resolves_setExpr outer h scope right) fun _ _ => ?_
    exact Logs.silent_bind (silent_unifyUnionSchema _ _ _) fun _ _ => silent_pure _
  | .unsupported description node => by
    rw [bindSetExpr, setExprReferences]
    exact Logs.silent_bind (silent_pushError _ _ _ _) fun _ _ => silent_pure _
termination_by structural x => x

/-- A select resolves its references. -/
theorem resolves_select (outer : List SyntaxCte) {cteScope : CteScope} {own : List SyntaxCte}
    (h : Represents cteScope own) (scope : Option Scope) : ∀ select : SyntaxSelect,
    Resolves context (bindSelect context cteScope scope select)
      (selectReferences context own outer select) fun _ => True
  | ⟨distinct, projection, from_, selection, groupBy, having, node⟩ => by
    rw [bindSelect, selectReferences]
    simp only [Resolves, binderLog_append]
    refine Logs.bind (resolves_tables outer h scope {} from_) fun _ _ => ?_
    refine Logs.bind (resolves_option _ _ scope _ selection) fun _ _ => ?_
    refine Logs.bind (resolves_exprs _ _ scope _ groupBy) fun _ _ => ?_
    refine Logs.bind (resolves_option _ _ scope _ having) fun _ _ => ?_
    exact Logs.bind_silent (resolves_projections _ _ scope projection) fun _ _ => silent_pure _
termination_by structural x => x

/-- A `FROM` clause resolves its references. -/
theorem resolves_tables (outer : List SyntaxCte) {cteScope : CteScope} {own : List SyntaxCte}
    (h : Represents cteScope own) (scope : Option Scope) (current : Scope) :
    ∀ tables : List SyntaxTableWithJoins,
    Resolves context (bindTables context cteScope scope current tables)
      (tablesReferences context own outer tables) fun _ => True
  | [] => by
    rw [bindTables, tablesReferences]
    exact silent_pure _
  | table :: tables => by
    rw [bindTables, tablesReferences]
    simp only [Resolves, binderLog_append]
    refine Logs.bind (resolves_tableWithJoins outer h scope current table) fun _ _ => ?_
    exact Logs.bind_silent (resolves_tables outer h scope _ tables) fun _ _ => silent_pure _
termination_by structural x => x

/-- A table with its joins resolves its references. -/
theorem resolves_tableWithJoins (outer : List SyntaxCte) {cteScope : CteScope}
    {own : List SyntaxCte} (h : Represents cteScope own) (scope : Option Scope) (current : Scope) :
    ∀ table : SyntaxTableWithJoins,
    Resolves context (bindTableWithJoins context cteScope scope current table)
      (tableWithJoinsReferences context own outer table) fun _ => True
  | ⟨relation, joins, node⟩ => by
    rw [bindTableWithJoins, tableWithJoinsReferences]
    simp only [Resolves, binderLog_append]
    refine Logs.bind (resolves_relation outer h current relation) fun _ _ => ?_
    exact Logs.bind_silent (resolves_joins outer h scope _ joins) fun _ _ => silent_pure _
termination_by structural x => x

/-- Joins resolve their references. -/
theorem resolves_joins (outer : List SyntaxCte) {cteScope : CteScope} {own : List SyntaxCte}
    (h : Represents cteScope own) (scope : Option Scope) (state : JoinState) :
    ∀ joins : List SyntaxJoin,
    Resolves context (bindJoins context cteScope scope state joins)
      (joinReferences context own outer joins) fun _ => True
  | [] => by
    rw [bindJoins, joinReferences]
    exact silent_pure _
  | ⟨kind, relation, on, node⟩ :: joins => by
    rw [bindJoins, joinReferences]
    simp only [Resolves, binderLog_append]
    refine Logs.bind (resolves_relation outer h _ relation) fun _ _ => ?_
    refine Logs.bind (resolves_option _ _ scope _ on) fun _ _ => ?_
    exact resolves_joins outer h scope _ joins
termination_by structural x => x

/-- A relation resolves its references. -/
theorem resolves_relation (outer : List SyntaxCte) {cteScope : CteScope} {own : List SyntaxCte}
    (h : Represents cteScope own) (current : Scope) : ∀ relation : SyntaxRelation,
    Resolves context (bindRelation context cteScope current relation)
      (relationReferences context own outer relation) fun _ => True
  | .table name alias_ node => by
    rw [bindRelation, relationReferences]
    exact resolves_bindTable h outer name alias_ node
  | .derived query alias_ node => by
    rw [bindRelation, relationReferences]
    exact Logs.bind_silent (resolves_query (own ++ outer) (some current) query)
      fun _ _ => silent_pure _
  | .nestedJoin table alias_ node => by
    rw [bindRelation, relationReferences]
    exact Logs.bind_silent (resolves_tableWithJoins outer h none current table)
      fun _ _ => silent_pure _
  | .unsupported description node => by
    rw [bindRelation, relationReferences]
    exact Logs.silent_bind (silent_pushError _ _ _ _) fun _ _ => silent_pure _
termination_by structural x => x

/-- A projection resolves its references. -/
theorem resolves_projections (visible : List SyntaxCte) (scope : Scope) (outer : Option Scope) :
    ∀ items : List SyntaxProjectionItem,
    Resolves context (bindProjections context scope outer items)
      (projectionReferences context visible items) fun _ => True
  | [] => by
    rw [bindProjections, projectionReferences]
    exact silent_pure _
  | .wildcard qualifier node :: items => by
    rw [bindProjections, projectionReferences]
    refine Logs.silent_bind (silent_bindWildcard _ _ _) fun _ _ => ?_
    exact Logs.bind_silent (resolves_projections visible scope outer items) fun _ _ => silent_pure _
  | .expr ⟨expr, alias_, node⟩ :: items => by
    rw [bindProjections, projectionReferences]
    simp only [Resolves, binderLog_append]
    refine Logs.bind (resolves_expr visible scope outer _ expr) fun _ _ => ?_
    exact Logs.bind_silent (resolves_projections visible scope outer items) fun _ _ => silent_pure _
  | .unsupported description node :: items => by
    rw [bindProjections, projectionReferences]
    refine Logs.silent_bind (silent_pushError _ _ _ _) fun _ _ => ?_
    exact Logs.bind_silent (resolves_projections visible scope outer items) fun _ _ => silent_pure _
termination_by structural x => x

/-- An `ORDER BY` resolves its references. -/
theorem resolves_orderBys (visible : List SyntaxCte) (scope : Scope) (outer : Option Scope) :
    ∀ orders : List SyntaxOrderByExpr,
    Resolves context (bindOrderBys context scope outer orders)
      (orderByReferences context visible orders) fun _ => True
  | [] => by
    rw [bindOrderBys, orderByReferences]
    exact silent_pure _
  | ⟨expr, asc, nullsFirst, node⟩ :: orders => by
    rw [bindOrderBys, orderByReferences, bindOrderBy]
    simp only [Resolves, binderLog_append]
    refine Logs.bind (Logs.bind_silent (resolves_expr visible scope outer _ expr)
      fun _ _ => silent_pure _) fun _ _ => ?_
    exact Logs.bind_silent (resolves_orderBys visible scope outer orders) fun _ _ => silent_pure _
termination_by structural x => x

/-- An expression resolves its references. -/
theorem resolves_expr (visible : List SyntaxCte) (scope : Scope) (outer : Option Scope)
    (expected : ExpectedType) : ∀ expr : SyntaxExpr,
    Resolves context (bindExpr context scope outer expected expr)
      (exprReferences context visible expr) fun _ => True
  -- Only the parts that hold queries resolve names; every other step of the binder is silent.
  | ⟨.column relation name, node⟩ => by
    rw [bindExpr, exprReferences]
    exact silent_bindColumn _ _ _ _ _
  | ⟨.literal value, node⟩ => by
    rw [bindExpr, exprReferences]
    exact silent_pure _
  | ⟨.parameter reference, node⟩ => by
    rw [bindExpr, exprReferences]
    refine Logs.silent_bind (silent_allocateParameter _) fun _ _ => ?_
    exact Logs.silent_bind (silent_recordParameterUse _ _ _) fun _ _ => silent_pure _
  | ⟨.unary op expr, node⟩ => by
    rw [bindExpr, exprReferences]
    exact Logs.bind_silent (resolves_expr visible scope outer _ expr) fun _ _ => silent_pure _
  | ⟨.binary op left right, node⟩ => by
    rw [bindExpr, exprReferences]
    simp only [Resolves, binderLog_append]
    refine Logs.bind (resolves_expr visible scope outer _ left) fun _ _ => ?_
    exact Logs.bind_silent (resolves_expr visible scope outer _ right) fun _ _ => silent_pure _
  | ⟨.function call, node⟩ => by
    rw [bindExpr]
    exact resolves_function visible scope outer node call
  | ⟨.case operand whenThen elseResult, node⟩ => by
    rw [bindExpr, exprReferences]
    simp only [Resolves, binderLog_append]
    refine Logs.bind (resolves_option visible scope outer _ operand) fun _ _ => ?_
    refine Logs.bind (resolves_whenThens visible scope outer whenThen) fun _ _ => ?_
    exact Logs.bind_silent (resolves_option visible scope outer _ elseResult)
      fun _ _ => silent_pure _
  | ⟨.cast expr dataType, node⟩ => by
    rw [bindExpr, exprReferences]
    exact Logs.bind_silent (resolves_expr visible scope outer _ expr) fun _ _ => silent_pure _
  | ⟨.between expr low high negated, node⟩ => by
    rw [bindExpr, exprReferences]
    simp only [Resolves, binderLog_append]
    refine Logs.bind (resolves_expr visible scope outer _ expr) fun _ _ => ?_
    refine Logs.bind (resolves_expr visible scope outer _ low) fun _ _ => ?_
    exact Logs.bind_silent (resolves_expr visible scope outer _ high) fun _ _ => silent_pure _
  | ⟨.inList expr list negated, node⟩ => by
    rw [bindExpr, exprReferences]
    simp only [Resolves, binderLog_append]
    refine Logs.bind (resolves_expr visible scope outer _ expr) fun _ _ => ?_
    exact Logs.bind_silent (resolves_exprs visible scope outer _ list) fun _ _ => silent_pure _
  -- The names of the subquery come after those of the operand.
  | ⟨.inSubquery expr subquery negated, node⟩ => by
    rw [bindExpr, exprReferences]
    simp only [Resolves, binderLog_append]
    refine Logs.bind (resolves_expr visible scope outer _ expr) fun _ _ => ?_
    refine Logs.bind_silent (resolves_query visible (some scope) subquery) fun _ _ => ?_
    exact Logs.silent_bind (silent_subquerySingleField _ _ _ _) fun _ _ => silent_pure _
  | ⟨.scalarSubquery subquery, node⟩ => by
    rw [bindExpr, exprReferences]
    refine Logs.bind_silent (resolves_query visible (some scope) subquery) fun _ _ => ?_
    exact Logs.silent_bind (silent_subquerySingleField _ _ _ _) fun _ _ => silent_pure _
  | ⟨.exists subquery, node⟩ => by
    rw [bindExpr, exprReferences]
    exact Logs.bind_silent (resolves_query visible (some scope) subquery) fun _ _ => silent_pure _
  | ⟨.like expr pattern negated caseInsensitive, node⟩ => by
    rw [bindExpr, exprReferences]
    simp only [Resolves, binderLog_append]
    refine Logs.bind (resolves_expr visible scope outer _ expr) fun _ _ => ?_
    exact Logs.bind_silent (resolves_expr visible scope outer _ pattern) fun _ _ => silent_pure _
  | ⟨.isNull expr negated, node⟩ => by
    rw [bindExpr, exprReferences]
    refine Logs.silent_bind (silent_recordNullTest _) fun _ _ => ?_
    exact Logs.bind_silent (resolves_expr visible scope outer _ expr) fun _ _ => silent_pure _
  | ⟨.tuple items, node⟩ => by
    rw [bindExpr, exprReferences]
    exact Logs.bind_silent (resolves_exprs visible scope outer _ items) fun _ _ => silent_pure _
  | ⟨.array items, node⟩ => by
    rw [bindExpr, exprReferences]
    exact Logs.bind_silent (resolves_exprs visible scope outer _ items) fun _ _ => silent_pure _
  | ⟨.unsupported description, node⟩ => by
    rw [bindExpr, exprReferences]
    exact silent_unsupportedExpr _ _ _ _
termination_by structural x => x

/-- A list of expressions resolves its references. -/
theorem resolves_exprs (visible : List SyntaxCte) (scope : Scope) (outer : Option Scope)
    (expected : ExpectedType) : ∀ exprs : List SyntaxExpr,
    Resolves context (bindExprs context scope outer expected exprs)
      (exprsReferences context visible exprs) fun _ => True
  | [] => by
    rw [bindExprs, exprsReferences]
    exact silent_pure _
  | expr :: exprs => by
    rw [bindExprs, exprsReferences]
    simp only [Resolves, binderLog_append]
    refine Logs.bind (resolves_expr visible scope outer expected expr) fun _ _ => ?_
    exact Logs.bind_silent (resolves_exprs visible scope outer expected exprs)
      fun _ _ => silent_pure _
termination_by structural x => x

/-- An expression, if there is one, resolves its references. -/
theorem resolves_option (visible : List SyntaxCte) (scope : Scope) (outer : Option Scope)
    (expected : ExpectedType) : ∀ expr : Option SyntaxExpr,
    Resolves context (bindExprOption context scope outer expected expr)
      (optionReferences context visible expr) fun _ => True
  | none => by
    rw [bindExprOption, optionReferences]
    exact silent_pure _
  | some expr => by
    rw [bindExprOption, optionReferences]
    exact Logs.bind_silent (resolves_expr visible scope outer expected expr)
      fun _ _ => silent_pure _
termination_by structural x => x

/-- The branches of a `CASE` resolve their references. -/
theorem resolves_whenThens (visible : List SyntaxCte) (scope : Scope) (outer : Option Scope) :
    ∀ pairs : List SyntaxWhenThen,
    Resolves context (bindWhenThens context scope outer pairs)
      (whenThenReferences context visible pairs) fun _ => True
  | [] => by
    rw [bindWhenThens, whenThenReferences]
    exact silent_pure _
  | ⟨condition, result⟩ :: pairs => by
    rw [bindWhenThens, whenThenReferences]
    simp only [Resolves, binderLog_append]
    refine Logs.bind (resolves_expr visible scope outer _ condition) fun _ _ => ?_
    refine Logs.bind (resolves_expr visible scope outer _ result) fun _ _ => ?_
    exact Logs.bind_silent (resolves_whenThens visible scope outer pairs) fun _ _ => silent_pure _
termination_by structural x => x

/-- The arguments of a call resolve their references. -/
theorem resolves_args (visible : List SyntaxCte) (scope : Scope) (outer : Option Scope)
    (signature : FunctionSignature) (index : Nat) : ∀ args : List SyntaxExpr,
    Resolves context (bindArgs context scope outer signature index args)
      (exprsReferences context visible args) fun _ => True
  | [] => by
    rw [bindArgs, exprsReferences]
    exact silent_pure _
  | arg :: args => by
    rw [bindArgs, exprsReferences]
    simp only [Resolves, binderLog_append]
    refine Logs.bind (resolves_expr visible scope outer _ arg) fun _ _ => ?_
    exact Logs.bind_silent (resolves_args visible scope outer signature (index + 1) args)
      fun _ _ => silent_pure _
termination_by structural x => x

/-- A window, if there is one, resolves its references. -/
theorem resolves_window (visible : List SyntaxCte) (scope : Scope) (outer : Option Scope) :
    ∀ over_ : Option WindowSpec,
    Resolves context (bindWindow context scope outer over_)
      (windowReferences context visible over_) fun _ => True
  | none => by
    rw [bindWindow, windowReferences]
    exact silent_pure _
  | some ⟨partitionBy, orderBy, node⟩ => by
    rw [bindWindow, windowReferences]
    simp only [Resolves, binderLog_append]
    refine Logs.bind (resolves_exprs visible scope outer _ partitionBy) fun _ _ => ?_
    exact Logs.bind_silent (resolves_orderBys visible scope outer orderBy) fun _ _ => silent_pure _
termination_by structural x => x

/-- The arguments of a call are bound only when the function is known. -/
theorem resolves_function (visible : List SyntaxCte) (scope : Scope) (outer : Option Scope)
    (node : SyntaxNode) : ∀ call : SyntaxFunctionCall,
    Resolves context (bindFunction context scope outer node call)
      (exprReferences context visible ⟨.function call, node⟩) fun _ => True
  | ⟨function, args, distinct, filter, over_⟩ => by
    rw [bindFunction, exprReferences]
    cases context.signature function with
    | none => exact silent_unsupportedExpr _ _ _ _
    | some signature =>
      simp only [Option.isSome_some, if_true, Resolves, binderLog_append]
      refine Logs.bind (resolves_args visible scope outer signature 0 args) fun _ _ => ?_
      refine Logs.bind (resolves_option visible scope outer _ filter) fun _ _ => ?_
      refine Logs.bind_silent (resolves_window visible scope outer over_) fun _ _ => ?_
      exact Logs.silent_bind (silent_warnBackendSpecific _ _ _) fun _ _ => silent_pure _
termination_by structural x => x

end

end Logs

/-! ## When it is the nearest CTE -/

/-- The resolutions that the references should have: the nearest CTE of the query that they stand
in, or else the nearest one defined before or around it, or else the relation of the catalog. -/
def nearestLog (context : BinderContext) (references : List RelationReference) :
    List (String × Resolution) :=
  references.map fun reference =>
    (reference.name, context.meaning (reference.own ++ reference.outer) reference.name)

/-- A reference that names a CTE around its query names one of its own query too. -/
def RelationReference.Local (reference : RelationReference) : Prop :=
  (nearestCte reference.outer reference.name).isSome →
    (nearestCte reference.own reference.name).isSome

/-- The nearest CTE is looked for in the inner query first. -/
theorem nearestCte_append (own outer : List SyntaxCte) (name : String) :
    nearestCte (own ++ outer) name = (nearestCte own name).or (nearestCte outer name) :=
  List.find?_append

/-- The CTEs around the query make no difference exactly for local references. -/
theorem meaning_own_eq_iff (context : BinderContext) (reference : RelationReference) :
    context.meaning reference.own reference.name =
      context.meaning (reference.own ++ reference.outer) reference.name ↔ reference.Local := by
  unfold BinderContext.meaning RelationReference.Local
  rw [nearestCte_append]
  cases hown : nearestCte reference.own reference.name with
  | some definition => simp
  | none =>
    cases houter : nearestCte reference.outer reference.name with
    | none => simp
    | some definition =>
      -- The binder looks into the catalog, and finds no CTE there.
      simp only [Option.or_some, Option.isSome_some, Option.isSome_none]
      cases context.catalog.resolveRelation none reference.name <;> simp

/-- The binder finds the nearest CTEs exactly when every reference is local. -/
theorem binderLog_eq_iff (context : BinderContext) (references : List RelationReference) :
    binderLog context references = nearestLog context references ↔
      ∀ reference ∈ references, reference.Local := by
  rw [binderLog, nearestLog, List.map_inj_left]
  refine forall₂_congr fun reference _ => ?_
  rw [← meaning_own_eq_iff context reference, Prod.mk.injEq]
  exact and_iff_right rfl

/-- Binding a query resolves every unqualified reference to the nearest CTE of its name, or else to
the catalog, exactly when no reference has to look beyond the CTEs of the query that it stands
in. -/
theorem resolutions_iff (context : BinderContext) (scope : Option Scope) (query : SyntaxQuery)
    (binder : Binder) :
    ((bindQuery context scope query).run binder).2.resolutions =
        binder.resolutions ++ nearestLog context (queryReferences context [] query) ↔
      ∀ reference ∈ queryReferences context [] query, reference.Local := by
  obtain ⟨hlog, -⟩ := resolves_query [] scope query binder
  rw [hlog, List.append_cancel_left_eq, binderLog_eq_iff]

/-- A relation with the single column `id`, which is not nullable. -/
def idRelation (name : String) : RelationSchema :=
  { namespace_ := none, name, aliases := [], kind := .table
    columns := [{ name := "id", dataType := .int64, nullable := false }] }

/-- A binder over the relations `events (id)` and `users (id)`. -/
def usersAndEvents : BinderContext where
  catalog := ((MemoryCatalog.registerRelation {} (idRelation "events")).registerRelation
    (idRelation "users")).toCatalog
  parameters := {}
  toLowercase c := [c.toLower]

/-- `WITH <ctes> SELECT id FROM <relation>`. -/
def selectId (ctes : List SyntaxCte) (relation : SyntaxRelation) : SyntaxQuery :=
  let node : SyntaxNode := { span := none, nodeId := "q" }
  { node, ctes, withRecursive := false, orderBy := [], limit := none, offset := none
    backendClauses := []
    body := .select
      { distinct := false, projection := [.expr ⟨⟨.column none "id", node⟩, none, node⟩]
        from_ := [⟨relation, [], node⟩], selection := none, groupBy := [], having := none, node } }

/-- The relation `name`, unqualified and without an alias. -/
def plainTable (name : String) : SyntaxRelation :=
  .table { namespace_ := none, name } none { span := none, nodeId := "r" }

/-- The CTE `events AS (SELECT id FROM users)`, which hides the relation `events`. -/
def eventsCte : SyntaxCte :=
  { name := "events", columns := [], query := selectId [] (plainTable "users")
    node := { span := none, nodeId := "c" } }

/-- `WITH events AS (SELECT id FROM users) SELECT id FROM (SELECT id FROM events) AS d`. -/
def derivedEvents : SyntaxQuery :=
  selectId [eventsCte]
    (.derived (selectId [] (plainTable "events")) (some "d") { span := none, nodeId := "d" })

/-- The derived table should read the CTE. The binder accepts the query, and takes the name for the
relation `events` of the catalog. -/
theorem derivedEvents_reads_catalog :
    let state := ((bindQuery usersAndEvents none derivedEvents).run { nextAutoPosition := 1 }).2
    state.diagnostics = [] ∧
      state.resolutions =
        [("users", .catalog (idRelation "users")), ("events", .catalog (idRelation "events"))] ∧
      nearestLog usersAndEvents (queryReferences usersAndEvents [] derivedEvents) =
        [("users", .catalog (idRelation "users")), ("events", .cte eventsCte)] ∧
      state.resolutions ≠
        nearestLog usersAndEvents (queryReferences usersAndEvents [] derivedEvents) := by
  refine ⟨by decide, rfl, rfl, fun heq => ?_⟩
  have hlast : Resolution.catalog (idRelation "events") = .cte eventsCte :=
    congrArg Prod.snd (List.cons.inj (List.cons.inj heq).2).1
  cases hlast

end QueryFabric.Bind
