import QueryFabric.Bind.Nested

/-!
# The references of a bound plan

`queryPlaced` lists the columns and parameters of a plan in the order of the text, at any depth. A
column comes with the scope of its place: the relations of the `FROM` clause of its own select,
those up to its join for a column of a join condition, or the output of its query for one after the
body. Outer joins change what is nullable in a scope after a condition was bound, so a scope is
taken with every field nullable.
-/

namespace QueryFabric.Bind

/-- A reference where it stands in a plan. -/
inductive Placed
  | column (scope : Scope) (column : BoundColumnRef) (type : DataType)
  | parameter (reference : ParameterRef)
deriving DecidableEq, Repr

/-- A relation is added to a scope, with its fields nullable. -/
def pushErased (scope : Scope) (relation : BoundRelation) : Scope :=
  scope.pushRelation (makeRelationNullable relation)

mutual

/-- What stands in a plan, with the scopes of its places. -/
def queryPlaced : BoundQueryPlan → List Placed
  | ⟨_, ctes, body, orderBy, limit, offset, _, _⟩ =>
    ctesPlaced ctes ++ (setExprPlaced body ++
      (orderByPlaced (Scope.fromOutputSchema body.resultSchema).makeAllNullable orderBy ++
        (optionPlaced (Scope.fromOutputSchema body.resultSchema).makeAllNullable limit ++
          optionPlaced (Scope.fromOutputSchema body.resultSchema).makeAllNullable offset)))
termination_by structural x => x

/-- What stands in the CTEs of a plan. -/
def ctesPlaced : List BoundCte → List Placed
  | [] => []
  | ⟨_, _, query, _, _⟩ :: ctes => queryPlaced query ++ ctesPlaced ctes
termination_by structural x => x

/-- What stands in a query body. -/
def setExprPlaced : BoundSetExpr → List Placed
  | .select s => selectPlaced s
  | .unionAll left right _ _ => setExprPlaced left ++ setExprPlaced right
  | .unsupported .. => []
termination_by structural x => x

/-- What stands in a select: its projection, its tables and its other clauses. -/
def selectPlaced : BoundSelect → List Placed
  | ⟨_, projection, from_, selection, groupBy, having, _, _⟩ =>
    projectionPlaced (fromScope from_).makeAllNullable projection ++ (tablesPlaced {} from_ ++
      (optionPlaced (fromScope from_).makeAllNullable selection ++
        (exprsPlaced (fromScope from_).makeAllNullable groupBy ++
          optionPlaced (fromScope from_).makeAllNullable having)))
termination_by structural x => x

/-- What stands in a projection. -/
def projectionPlaced (scope : Scope) : List BoundProjectionItem → List Placed
  | [] => []
  | .expr ⟨expr, _, _, _⟩ :: items => exprPlaced scope expr ++ projectionPlaced scope items
  | .wildcard .. :: items => projectionPlaced scope items
  | .unsupported .. :: items => projectionPlaced scope items
termination_by structural x => x

/-- What stands in a `FROM` clause, each table in the scope of those before it. -/
def tablesPlaced (before : Scope) : List BoundTableWithJoins → List Placed
  | [] => []
  | ⟨relation, joins, node⟩ :: tables =>
    relationPlaced before relation ++ joinsPlaced (pushErased before relation) joins ++
      tablesPlaced (before.mergeTable ⟨relation, joins, node⟩).makeAllNullable tables
termination_by structural x => x

/-- The references of joins, in the scope that the relations before them leave. -/
def joinsPlaced (before : Scope) : List BoundJoin → List Placed
  | [] => []
  | ⟨_, relation, on, _⟩ :: joins =>
    relationPlaced before relation ++ (optionPlaced (pushErased before relation) on ++
      joinsPlaced (pushErased before relation) joins)
termination_by structural x => x

/-- What stands in a relation. -/
def relationPlaced (before : Scope) : BoundRelation → List Placed
  | .table .. => []
  | .derived _ query _ => queryPlaced query
  | .nestedJoin _ ⟨relation, joins, _⟩ _ =>
    relationPlaced before relation ++ joinsPlaced (pushErased before relation) joins
  | .unsupported .. => []
termination_by structural x => x

/-- What stands in an `ORDER BY`. -/
def orderByPlaced (scope : Scope) : List BoundOrderByExpr → List Placed
  | [] => []
  | ⟨expr, _, _, _⟩ :: orders => exprPlaced scope expr ++ orderByPlaced scope orders
termination_by structural x => x

/-- What stands in an expression. -/
def exprPlaced (scope : Scope) : BoundExpr → List Placed
  | ⟨.column column, type, _, _⟩ => [.column scope column type]
  | ⟨.literal _, _, _, _⟩ => []
  | ⟨.parameter reference, _, _, _⟩ => [.parameter reference]
  | ⟨.unary _ expr, _, _, _⟩ => exprPlaced scope expr
  | ⟨.binary _ left right, _, _, _⟩ => exprPlaced scope left ++ exprPlaced scope right
  | ⟨.function ⟨_, _, args, _, filter, over_, _⟩, _, _, _⟩ =>
    exprsPlaced scope args ++ (optionPlaced scope filter ++ windowPlaced scope over_)
  | ⟨.case operand whenThen elseResult, _, _, _⟩ =>
    optionPlaced scope operand ++ (whenThenPlaced scope whenThen ++ optionPlaced scope elseResult)
  | ⟨.cast expr _, _, _, _⟩ => exprPlaced scope expr
  | ⟨.between expr low high _, _, _, _⟩ =>
    exprPlaced scope expr ++ (exprPlaced scope low ++ exprPlaced scope high)
  | ⟨.inList expr list _, _, _, _⟩ => exprPlaced scope expr ++ exprsPlaced scope list
  | ⟨.inSubquery expr subquery _, _, _, _⟩ => exprPlaced scope expr ++ queryPlaced subquery
  | ⟨.scalarSubquery subquery, _, _, _⟩ => queryPlaced subquery
  | ⟨.exists subquery, _, _, _⟩ => queryPlaced subquery
  | ⟨.like expr pattern _ _, _, _, _⟩ => exprPlaced scope expr ++ exprPlaced scope pattern
  | ⟨.isNull expr _, _, _, _⟩ => exprPlaced scope expr
  | ⟨.tuple items, _, _, _⟩ => exprsPlaced scope items
  | ⟨.array items, _, _, _⟩ => exprsPlaced scope items
  | ⟨.unsupported _, _, _, _⟩ => []
termination_by structural x => x

/-- What stands in a list of expressions. -/
def exprsPlaced (scope : Scope) : List BoundExpr → List Placed
  | [] => []
  | expr :: exprs => exprPlaced scope expr ++ exprsPlaced scope exprs
termination_by structural x => x

/-- What stands in an expression, if there is one. -/
def optionPlaced (scope : Scope) : Option BoundExpr → List Placed
  | none => []
  | some expr => exprPlaced scope expr
termination_by structural x => x

/-- What stands in the branches of a `CASE`. -/
def whenThenPlaced (scope : Scope) : List BoundWhenThen → List Placed
  | [] => []
  | ⟨condition, result⟩ :: pairs =>
    exprPlaced scope condition ++ (exprPlaced scope result ++ whenThenPlaced scope pairs)
termination_by structural x => x

/-- What stands in a window, if there is one. -/
def windowPlaced (scope : Scope) : Option BoundWindowSpec → List Placed
  | none => []
  | some ⟨partitionBy, orderBy, _⟩ => exprsPlaced scope partitionBy ++ orderByPlaced scope orderBy
termination_by structural x => x

end

/-! ## Scopes without nullability -/

/-- A schema becomes nullable once. -/
theorem makeSchemaNullable_idem (schema : ResultSchema) :
    makeSchemaNullable (makeSchemaNullable schema) = makeSchemaNullable schema := by
  simp [makeSchemaNullable]

/-- A relation becomes nullable once. -/
theorem makeRelationNullable_idem (r : BoundRelation) :
    makeRelationNullable (makeRelationNullable r) = makeRelationNullable r := by
  cases r <;> simp [makeRelationNullable, makeSchemaNullable_idem]

/-- Without nullability a relation pushes the same names. -/
theorem pushErased_makeRelationNullable (scope : Scope) (r : BoundRelation) :
    pushErased scope (makeRelationNullable r) = pushErased scope r := by
  rw [pushErased, makeRelationNullable_idem, pushErased]

/-- A scope without nullability, after a relation more. -/
theorem makeAllNullable_pushRelation (scope : Scope) (r : BoundRelation) :
    (scope.pushRelation r).makeAllNullable = pushErased scope.makeAllNullable r := by
  cases r <;> simp [Scope.pushRelation, pushErased, makeRelationNullable, BoundRelation.binding,
    Scope.makeAllNullable]

/-- A relation that becomes nullable keeps what stands in it. -/
theorem relationPlaced_makeRelationNullable (before : Scope) (r : BoundRelation) :
    relationPlaced before (makeRelationNullable r) = relationPlaced before r := by
  cases r with
  | nestedJoin binding table node =>
    cases table
    simp only [makeRelationNullable, relationPlaced]
  | _ => simp only [makeRelationNullable, relationPlaced]

/-- What stands in joins, scanned join by join. -/
theorem joinsPlaced_eq_scanJoins (joins : List BoundJoin) : ∀ before : Scope,
    joinsPlaced before joins = scanJoins pushErased relationPlaced optionPlaced before joins := by
  induction joins with
  | nil => intro before; rw [joinsPlaced, scanJoins]
  | cons join joins ih =>
    intro before
    cases join
    rw [joinsPlaced, scanJoins, ih]

/-- A scope becomes nullable once. -/
theorem makeAllNullable_idem (scope : Scope) :
    scope.makeAllNullable.makeAllNullable = scope.makeAllNullable := by
  simp [Scope.makeAllNullable, makeSchemaNullable_idem]

/-- A scope without nullability, after the relations of joins. -/
theorem makeAllNullable_foldl_pushRelation (joins : List BoundJoin) : ∀ scope : Scope,
    (joins.foldl (fun scope join => scope.pushRelation join.relation) scope).makeAllNullable =
      pushJoins pushErased scope.makeAllNullable joins := by
  induction joins with
  | nil => intro scope; rfl
  | cons join joins ih =>
    intro scope
    rw [List.foldl_cons, ih, makeAllNullable_pushRelation]
    rfl

/-- The scope after a table, without nullability. -/
theorem makeAllNullable_mergeTable (scope : Scope) (table : BoundTableWithJoins) :
    (scope.mergeTable table).makeAllNullable =
      pushJoins pushErased (pushErased scope.makeAllNullable table.relation) table.joins := by
  rw [Scope.mergeTable, makeAllNullable_foldl_pushRelation, makeAllNullable_pushRelation]

/-- A scope without nullability, after a join more. -/
theorem makeAllNullable_addJoin (state : JoinState) (kind : JoinKind) (joined : BoundRelation)
    (on : Option BoundExpr) (nd : SyntaxNode) :
    (state.addJoin kind joined on nd).joinScope.makeAllNullable =
      pushErased state.joinScope.makeAllNullable joined := by
  have hpush := pushErased_makeRelationNullable state.joinScope.makeAllNullable joined
  have hidem := makeAllNullable_idem state.joinScope
  cases kind with
  | inner => exact makeAllNullable_pushRelation _ _
  | cross => exact makeAllNullable_pushRelation _ _
  | left => exact (makeAllNullable_pushRelation _ _).trans hpush
  | right => exact (makeAllNullable_pushRelation _ _).trans (congrArg (pushErased · joined) hidem)
  | full =>
    have hscope := congrArg (pushErased · (makeRelationNullable joined)) hidem
    exact (makeAllNullable_pushRelation _ _).trans (hscope.trans hpush)

end QueryFabric.Bind
