import QueryFabric.Ir.Syntax

/-!
# The bound plan

The plan of `crates/queryfabric-ir/src/bound.rs` that binding produces and analysis, rewriting and
emission read. Beside the syntax it carries types, nullability, result schemas and the relation
bindings that names were resolved to.

`BoundCases` is the induction over the plan that the proofs about emission, features and evaluation
share: one field per constructor, with the hypothesis for a list of children stated over its
members.
-/

namespace QueryFabric

/-- A relation in scope: the name it is bound to, the relation it names, and its schema. -/
structure BoundRelationBinding where
  bindingName : String
  relationName : Option NameRef
  schema : ResultSchema
deriving DecidableEq, Repr

/-- A resolved column reference. -/
structure BoundColumnRef where
  relation : Option String
  name : String
deriving DecidableEq, Repr

mutual

/-- `BoundQueryPlan`. -/
structure BoundQueryPlan where
  node : SyntaxNode
  ctes : List BoundCte
  body : BoundSetExpr
  orderBy : List BoundOrderByExpr
  limit : Option BoundExpr
  offset : Option BoundExpr
  backendClauses : List BackendClause
  resultSchema : ResultSchema

/-- `BoundCte`. -/
structure BoundCte where
  name : String
  columns : List String
  query : BoundQueryPlan
  resultSchema : ResultSchema
  node : SyntaxNode

/-- `BoundSetExpr`. -/
inductive BoundSetExpr
  | select (select : BoundSelect)
  | unionAll (left right : BoundSetExpr) (node : SyntaxNode) (resultSchema : ResultSchema)
  | unsupported (description : String) (node : SyntaxNode) (resultSchema : ResultSchema)

/-- `BoundSelect`. -/
structure BoundSelect where
  distinct : Bool
  projection : List BoundProjectionItem
  from_ : List BoundTableWithJoins
  selection : Option BoundExpr
  groupBy : List BoundExpr
  having : Option BoundExpr
  resultSchema : ResultSchema
  node : SyntaxNode

/-- `BoundProjectionExpr`. -/
structure BoundProjectionExpr where
  expr : BoundExpr
  alias_ : Option String
  field : ResultField
  node : SyntaxNode

/-- `BoundProjectionItem`. -/
inductive BoundProjectionItem
  | wildcard (qualifier : Option String) (fields : List ResultField) (node : SyntaxNode)
  | expr (details : BoundProjectionExpr)
  | unsupported (description : String) (node : SyntaxNode)

/-- `BoundTableWithJoins`. -/
structure BoundTableWithJoins where
  relation : BoundRelation
  joins : List BoundJoin
  node : SyntaxNode

/-- `BoundJoin`. -/
structure BoundJoin where
  kind : JoinKind
  relation : BoundRelation
  on : Option BoundExpr
  node : SyntaxNode

/-- `BoundRelation`. -/
inductive BoundRelation
  | table (binding : BoundRelationBinding) (node : SyntaxNode)
  | derived (binding : BoundRelationBinding) (query : BoundQueryPlan) (node : SyntaxNode)
  | nestedJoin (binding : BoundRelationBinding) (tableWithJoins : BoundTableWithJoins)
      (node : SyntaxNode)
  | unsupported (description : String) (bindingName : String) (node : SyntaxNode)

/-- `BoundOrderByExpr`. -/
structure BoundOrderByExpr where
  expr : BoundExpr
  asc : Option Bool
  nullsFirst : Option Bool
  node : SyntaxNode

/-- `BoundWindowSpec`. -/
structure BoundWindowSpec where
  partitionBy : List BoundExpr
  orderBy : List BoundOrderByExpr
  node : SyntaxNode

/-- `BoundFunctionCall`. -/
structure BoundFunctionCall where
  function : FunctionRef
  resolvedBackendName : Option FunctionRef
  args : List BoundExpr
  distinct : Bool
  filter : Option BoundExpr
  over_ : Option BoundWindowSpec
  resolvedSignatureName : Option String

/-- `BoundWhenThen`. -/
structure BoundWhenThen where
  condition : BoundExpr
  result : BoundExpr

/-- `BoundExpr`. -/
structure BoundExpr where
  kind : BoundExprKind
  dataType : DataType
  nullable : Bool
  node : SyntaxNode

/-- `BoundExprKind`. -/
inductive BoundExprKind
  | column (column : BoundColumnRef)
  | literal (value : LiteralValue)
  | parameter (reference : ParameterRef)
  | unary (op : UnaryOperator) (expr : BoundExpr)
  | binary (op : BinaryOperator) (left right : BoundExpr)
  | function (call : BoundFunctionCall)
  | case (operand : Option BoundExpr) (whenThen : List BoundWhenThen)
    (elseResult : Option BoundExpr)
  | cast (expr : BoundExpr) (dataType : DataType)
  | between (expr low high : BoundExpr) (negated : Bool)
  | inList (expr : BoundExpr) (list : List BoundExpr) (negated : Bool)
  | inSubquery (expr : BoundExpr) (subquery : BoundQueryPlan) (negated : Bool)
  | scalarSubquery (subquery : BoundQueryPlan)
  | exists (subquery : BoundQueryPlan)
  | like (expr pattern : BoundExpr) (negated caseInsensitive : Bool)
  | isNull (expr : BoundExpr) (negated : Bool)
  | tuple (items : List BoundExpr)
  | array (items : List BoundExpr)
  | unsupported (description : String)

end

/-- `BoundSetExpr::result_schema`. -/
def BoundSetExpr.resultSchema : BoundSetExpr → ResultSchema
  | .select s => s.resultSchema
  | .unionAll _ _ _ schema => schema
  | .unsupported _ _ schema => schema

/-- `BoundProjectionItem::as_expr`. -/
def BoundProjectionItem.asExpr : BoundProjectionItem → Option BoundProjectionExpr
  | .expr details => some details
  | _ => none

/-- `BoundRelation::binding`. -/
def BoundRelation.binding : BoundRelation → Option BoundRelationBinding
  | .table binding _ => some binding
  | .derived binding _ _ => some binding
  | .nestedJoin binding _ _ => some binding
  | .unsupported .. => none

/-! ## Induction over the plan -/

/-- A property for each kind of node of the plan. -/
structure BoundMotive where
  expr : BoundExpr → Prop
  call : BoundFunctionCall → Prop
  window : BoundWindowSpec → Prop
  orderBy : BoundOrderByExpr → Prop
  query : BoundQueryPlan → Prop
  cte : BoundCte → Prop
  setExpr : BoundSetExpr → Prop
  select : BoundSelect → Prop
  projection : BoundProjectionItem → Prop
  tableWithJoins : BoundTableWithJoins → Prop
  join : BoundJoin → Prop
  relation : BoundRelation → Prop

/-- What an induction over the plan has to show: each node has its property when its children
do. -/
structure BoundCases (M : BoundMotive) : Prop where
  column : ∀ c ty nu nd, M.expr ⟨.column c, ty, nu, nd⟩
  literal : ∀ v ty nu nd, M.expr ⟨.literal v, ty, nu, nd⟩
  parameter : ∀ r ty nu nd, M.expr ⟨.parameter r, ty, nu, nd⟩
  unary : ∀ op x ty nu nd, M.expr x → M.expr ⟨.unary op x, ty, nu, nd⟩
  binary : ∀ op l r ty nu nd, M.expr l → M.expr r → M.expr ⟨.binary op l r, ty, nu, nd⟩
  function : ∀ f ty nu nd, M.call f → M.expr ⟨.function f, ty, nu, nd⟩
  case : ∀ o ws el ty nu nd, (∀ x ∈ o, M.expr x) →
    (∀ w ∈ ws, M.expr w.condition ∧ M.expr w.result) → (∀ x ∈ el, M.expr x) →
    M.expr ⟨.case o ws el, ty, nu, nd⟩
  cast : ∀ x t ty nu nd, M.expr x → M.expr ⟨.cast x t, ty, nu, nd⟩
  between : ∀ x l h n ty nu nd, M.expr x → M.expr l → M.expr h →
    M.expr ⟨.between x l h n, ty, nu, nd⟩
  inList : ∀ x xs n ty nu nd, M.expr x → (∀ y ∈ xs, M.expr y) →
    M.expr ⟨.inList x xs n, ty, nu, nd⟩
  inSubquery : ∀ x q n ty nu nd, M.expr x → M.query q → M.expr ⟨.inSubquery x q n, ty, nu, nd⟩
  scalarSubquery : ∀ q ty nu nd, M.query q → M.expr ⟨.scalarSubquery q, ty, nu, nd⟩
  exists_ : ∀ q ty nu nd, M.query q → M.expr ⟨.exists q, ty, nu, nd⟩
  like : ∀ x p n ci ty nu nd, M.expr x → M.expr p → M.expr ⟨.like x p n ci, ty, nu, nd⟩
  isNull : ∀ x n ty nu nd, M.expr x → M.expr ⟨.isNull x n, ty, nu, nd⟩
  tuple : ∀ xs ty nu nd, (∀ x ∈ xs, M.expr x) → M.expr ⟨.tuple xs, ty, nu, nd⟩
  array : ∀ xs ty nu nd, (∀ x ∈ xs, M.expr x) → M.expr ⟨.array xs, ty, nu, nd⟩
  unsupportedExpr : ∀ d ty nu nd, M.expr ⟨.unsupported d, ty, nu, nd⟩
  call : ∀ f : BoundFunctionCall, (∀ x ∈ f.args, M.expr x) → (∀ x ∈ f.filter, M.expr x) →
    (∀ w ∈ f.over_, M.window w) → M.call f
  window : ∀ w : BoundWindowSpec, (∀ x ∈ w.partitionBy, M.expr x) →
    (∀ o ∈ w.orderBy, M.orderBy o) → M.window w
  orderBy : ∀ o : BoundOrderByExpr, M.expr o.expr → M.orderBy o
  query : ∀ q : BoundQueryPlan, (∀ c ∈ q.ctes, M.cte c) → M.setExpr q.body →
    (∀ o ∈ q.orderBy, M.orderBy o) → (∀ x ∈ q.limit, M.expr x) → (∀ x ∈ q.offset, M.expr x) →
    M.query q
  cte : ∀ c : BoundCte, M.query c.query → M.cte c
  selectBody : ∀ s : BoundSelect, M.select s → M.setExpr (.select s)
  unionAll : ∀ l r nd sc, M.setExpr l → M.setExpr r → M.setExpr (.unionAll l r nd sc)
  unsupportedSet : ∀ d nd sc, M.setExpr (.unsupported d nd sc)
  select : ∀ s : BoundSelect, (∀ p ∈ s.projection, M.projection p) →
    (∀ t ∈ s.from_, M.tableWithJoins t) → (∀ x ∈ s.selection, M.expr x) →
    (∀ x ∈ s.groupBy, M.expr x) → (∀ x ∈ s.having, M.expr x) → M.select s
  wildcard : ∀ q fs nd, M.projection (.wildcard q fs nd)
  projectionExpr : ∀ d : BoundProjectionExpr, M.expr d.expr → M.projection (.expr d)
  unsupportedProjection : ∀ d nd, M.projection (.unsupported d nd)
  tableWithJoins : ∀ t : BoundTableWithJoins, M.relation t.relation → (∀ j ∈ t.joins, M.join j) →
    M.tableWithJoins t
  join : ∀ j : BoundJoin, M.relation j.relation → (∀ x ∈ j.on, M.expr x) → M.join j
  table : ∀ b nd, M.relation (.table b nd)
  derived : ∀ b q nd, M.query q → M.relation (.derived b q nd)
  nestedJoin : ∀ b t nd, M.tableWithJoins t → M.relation (.nestedJoin b t nd)
  unsupportedRelation : ∀ d b nd, M.relation (.unsupported d b nd)

namespace BoundCases

variable {M : BoundMotive}

mutual

/-- Every expression. -/
theorem expr_all (C : BoundCases M) : ∀ e : BoundExpr, M.expr e
  | ⟨.column c, ty, nu, nd⟩ => C.column c ty nu nd
  | ⟨.literal v, ty, nu, nd⟩ => C.literal v ty nu nd
  | ⟨.parameter r, ty, nu, nd⟩ => C.parameter r ty nu nd
  | ⟨.unary op x, ty, nu, nd⟩ => C.unary op x ty nu nd (expr_all C x)
  | ⟨.binary op l r, ty, nu, nd⟩ => C.binary op l r ty nu nd (expr_all C l) (expr_all C r)
  | ⟨.function f, ty, nu, nd⟩ => C.function f ty nu nd (call_all C f)
  | ⟨.case o ws el, ty, nu, nd⟩ => C.case o ws el ty nu nd (exprOption_all C o)
      (whenThen_all C ws) (exprOption_all C el)
  | ⟨.cast x t, ty, nu, nd⟩ => C.cast x t ty nu nd (expr_all C x)
  | ⟨.between x l h n, ty, nu, nd⟩ => C.between x l h n ty nu nd (expr_all C x) (expr_all C l)
      (expr_all C h)
  | ⟨.inList x xs n, ty, nu, nd⟩ => C.inList x xs n ty nu nd (expr_all C x) (exprs_all C xs)
  | ⟨.inSubquery x q n, ty, nu, nd⟩ => C.inSubquery x q n ty nu nd (expr_all C x) (query_all C q)
  | ⟨.scalarSubquery q, ty, nu, nd⟩ => C.scalarSubquery q ty nu nd (query_all C q)
  | ⟨.exists q, ty, nu, nd⟩ => C.exists_ q ty nu nd (query_all C q)
  | ⟨.like x p n ci, ty, nu, nd⟩ => C.like x p n ci ty nu nd (expr_all C x) (expr_all C p)
  | ⟨.isNull x n, ty, nu, nd⟩ => C.isNull x n ty nu nd (expr_all C x)
  | ⟨.tuple xs, ty, nu, nd⟩ => C.tuple xs ty nu nd (exprs_all C xs)
  | ⟨.array xs, ty, nu, nd⟩ => C.array xs ty nu nd (exprs_all C xs)
  | ⟨.unsupported d, ty, nu, nd⟩ => C.unsupportedExpr d ty nu nd

/-- Every call. -/
theorem call_all (C : BoundCases M) : ∀ f : BoundFunctionCall, M.call f
  | ⟨fn, rb, args, d, fi, ov, rs⟩ => C.call ⟨fn, rb, args, d, fi, ov, rs⟩ (exprs_all C args)
      (exprOption_all C fi) (windowOption_all C ov)

/-- Every window. -/
theorem window_all (C : BoundCases M) : ∀ w : BoundWindowSpec, M.window w
  | ⟨ps, os, nd⟩ => C.window ⟨ps, os, nd⟩ (exprs_all C ps) (orderBys_all C os)

/-- Every window there may be. -/
theorem windowOption_all (C : BoundCases M) : ∀ o : Option BoundWindowSpec, ∀ w ∈ o, M.window w
  | none => by simp
  | some w => by simpa using window_all C w

/-- Every sort key. -/
theorem orderBy_all (C : BoundCases M) : ∀ o : BoundOrderByExpr, M.orderBy o
  | ⟨e, a, n, nd⟩ => C.orderBy ⟨e, a, n, nd⟩ (expr_all C e)

/-- Every sort key of a list. -/
theorem orderBys_all (C : BoundCases M) : ∀ os : List BoundOrderByExpr, ∀ o ∈ os, M.orderBy o
  | [] => List.forall_mem_nil _
  | o :: os => List.forall_mem_cons.mpr ⟨orderBy_all C o, orderBys_all C os⟩

/-- Every expression of a list. -/
theorem exprs_all (C : BoundCases M) : ∀ es : List BoundExpr, ∀ e ∈ es, M.expr e
  | [] => List.forall_mem_nil _
  | e :: es => List.forall_mem_cons.mpr ⟨expr_all C e, exprs_all C es⟩

/-- Every expression there may be. -/
theorem exprOption_all (C : BoundCases M) : ∀ o : Option BoundExpr, ∀ e ∈ o, M.expr e
  | none => by simp
  | some e => by simpa using expr_all C e

/-- Every branch of a `CASE`. -/
theorem whenThen_all (C : BoundCases M) :
    ∀ ws : List BoundWhenThen, ∀ w ∈ ws, M.expr w.condition ∧ M.expr w.result
  | [] => List.forall_mem_nil _
  | ⟨c, r⟩ :: ws =>
    List.forall_mem_cons.mpr ⟨⟨expr_all C c, expr_all C r⟩, whenThen_all C ws⟩

/-- Every query. -/
theorem query_all (C : BoundCases M) : ∀ q : BoundQueryPlan, M.query q
  | ⟨nd, cs, b, os, li, off, bc, rs⟩ => C.query ⟨nd, cs, b, os, li, off, bc, rs⟩ (ctes_all C cs)
      (setExpr_all C b) (orderBys_all C os) (exprOption_all C li) (exprOption_all C off)

/-- Every CTE of a list. -/
theorem ctes_all (C : BoundCases M) : ∀ cs : List BoundCte, ∀ c ∈ cs, M.cte c
  | [] => List.forall_mem_nil _
  | ⟨n, co, q, rs, nd⟩ :: cs =>
    List.forall_mem_cons.mpr ⟨C.cte ⟨n, co, q, rs, nd⟩ (query_all C q), ctes_all C cs⟩

/-- Every query body. -/
theorem setExpr_all (C : BoundCases M) : ∀ s : BoundSetExpr, M.setExpr s
  | .select s => C.selectBody s (select_all C s)
  | .unionAll l r nd sc => C.unionAll l r nd sc (setExpr_all C l) (setExpr_all C r)
  | .unsupported d nd sc => C.unsupportedSet d nd sc

/-- Every select. -/
theorem select_all (C : BoundCases M) : ∀ s : BoundSelect, M.select s
  | ⟨d, ps, fs, se, gb, ha, rs, nd⟩ => C.select ⟨d, ps, fs, se, gb, ha, rs, nd⟩
      (projections_all C ps) (tables_all C fs) (exprOption_all C se) (exprs_all C gb)
      (exprOption_all C ha)

/-- Every projection item of a list. -/
theorem projections_all (C : BoundCases M) :
    ∀ ps : List BoundProjectionItem, ∀ p ∈ ps, M.projection p
  | [] => List.forall_mem_nil _
  | p :: ps => List.forall_mem_cons.mpr ⟨projection_all C p, projections_all C ps⟩

/-- Every projection item. -/
theorem projection_all (C : BoundCases M) : ∀ p : BoundProjectionItem, M.projection p
  | .wildcard q fs nd => C.wildcard q fs nd
  | .expr ⟨e, a, f, nd⟩ => C.projectionExpr ⟨e, a, f, nd⟩ (expr_all C e)
  | .unsupported d nd => C.unsupportedProjection d nd

/-- Every table of a list. -/
theorem tables_all (C : BoundCases M) :
    ∀ ts : List BoundTableWithJoins, ∀ t ∈ ts, M.tableWithJoins t
  | [] => List.forall_mem_nil _
  | t :: ts => List.forall_mem_cons.mpr ⟨tableWithJoins_all C t, tables_all C ts⟩

/-- Every table with its joins. -/
theorem tableWithJoins_all (C : BoundCases M) : ∀ t : BoundTableWithJoins, M.tableWithJoins t
  | ⟨r, js, nd⟩ => C.tableWithJoins ⟨r, js, nd⟩ (relation_all C r) (joins_all C js)

/-- Every join of a list. -/
theorem joins_all (C : BoundCases M) : ∀ js : List BoundJoin, ∀ j ∈ js, M.join j
  | [] => List.forall_mem_nil _
  | ⟨k, r, on, nd⟩ :: js =>
    List.forall_mem_cons.mpr ⟨C.join ⟨k, r, on, nd⟩ (relation_all C r) (exprOption_all C on),
      joins_all C js⟩

/-- Every relation. -/
theorem relation_all (C : BoundCases M) : ∀ r : BoundRelation, M.relation r
  | .table b nd => C.table b nd
  | .derived b q nd => C.derived b q nd (query_all C q)
  | .nestedJoin b t nd => C.nestedJoin b t nd (tableWithJoins_all C t)
  | .unsupported d b nd => C.unsupportedRelation d b nd

end

end BoundCases

end QueryFabric
