import QueryFabric.Ir.Types

/-!
# The syntax tree

The tree of `crates/queryfabric-ir/src/syntax.rs` that the dialects lower to and the binder reads.
Every node carries its source span and its identity (`SyntaxNode`). The tree is one family of
mutually recursive types: expressions hold queries, and queries hold expressions.
-/

namespace QueryFabric

/-- A range of the source text, in bytes. -/
structure QuerySourceSpan where
  offset : Nat
  len : Nat
deriving DecidableEq, Repr

/-- The span and identity of a node. -/
structure SyntaxNode where
  span : Option QuerySourceSpan
  nodeId : String
deriving DecidableEq, Repr

/-- A possibly namespaced relation name. -/
structure NameRef where
  namespace_ : Option String
  name : String
deriving DecidableEq, Repr

/-- `NameRef::display_name`. -/
def NameRef.displayName (n : NameRef) : String :=
  match n.namespace_ with
  | some ns => ns ++ "." ++ n.name
  | none => n.name

/-- A clause that only one backend understands, kept as text. -/
inductive BackendClause
  | clickHouseSettings (text : String) (node : SyntaxNode)
  | clickHouseFormat (text : String) (node : SyntaxNode)
deriving DecidableEq, Repr

/-- Whether a clause is `ClickHouseSettings`. -/
def BackendClause.isSettings : BackendClause → Bool
  | clickHouseSettings .. => true
  | clickHouseFormat .. => false

/-- Whether a clause is `ClickHouseFormat`. -/
def BackendClause.isFormat : BackendClause → Bool
  | clickHouseSettings .. => false
  | clickHouseFormat .. => true

/-- `JoinKind`. -/
inductive JoinKind
  | inner
  | left
  | right
  | full
  | cross
deriving DecidableEq, Repr

/-- `UnaryOperator`. -/
inductive UnaryOperator
  | plus
  | minus
  | not
deriving DecidableEq, Repr

/-- `BinaryOperator`. -/
inductive BinaryOperator
  | add
  | subtract
  | multiply
  | divide
  | eq
  | notEq
  | lt
  | ltEq
  | gt
  | gtEq
  | and
  | or
deriving DecidableEq, Repr

/-- A literal. A `Float64` keeps the digits of the source. -/
inductive LiteralValue
  | null
  | boolean (value : Bool)
  | int64 (value : Int64)
  | float64 (text : String)
  | utf8 (text : String)
deriving DecidableEq, Repr

mutual

/-- `SyntaxQuery`. -/
structure SyntaxQuery where
  node : SyntaxNode
  ctes : List SyntaxCte
  withRecursive : Bool
  body : SyntaxSetExpr
  orderBy : List SyntaxOrderByExpr
  limit : Option SyntaxExpr
  offset : Option SyntaxExpr
  backendClauses : List BackendClause

/-- `SyntaxCte`. -/
structure SyntaxCte where
  name : String
  columns : List String
  query : SyntaxQuery
  node : SyntaxNode

/-- `SyntaxSetExpr`. -/
inductive SyntaxSetExpr
  | select (select : SyntaxSelect)
  | unionAll (left right : SyntaxSetExpr) (node : SyntaxNode)
  | unsupported (description : String) (node : SyntaxNode)

/-- `SyntaxSelect`. -/
structure SyntaxSelect where
  distinct : Bool
  projection : List SyntaxProjectionItem
  from_ : List SyntaxTableWithJoins
  selection : Option SyntaxExpr
  groupBy : List SyntaxExpr
  having : Option SyntaxExpr
  node : SyntaxNode

/-- `SyntaxProjectionExpr`. -/
structure SyntaxProjectionExpr where
  expr : SyntaxExpr
  alias_ : Option String
  node : SyntaxNode

/-- `SyntaxProjectionItem`. -/
inductive SyntaxProjectionItem
  | wildcard (qualifier : Option String) (node : SyntaxNode)
  | expr (details : SyntaxProjectionExpr)
  | unsupported (description : String) (node : SyntaxNode)

/-- `SyntaxTableWithJoins`. -/
structure SyntaxTableWithJoins where
  relation : SyntaxRelation
  joins : List SyntaxJoin
  node : SyntaxNode

/-- `SyntaxJoin`. -/
structure SyntaxJoin where
  kind : JoinKind
  relation : SyntaxRelation
  on : Option SyntaxExpr
  node : SyntaxNode

/-- `SyntaxRelation`. -/
inductive SyntaxRelation
  | table (name : NameRef) (alias_ : Option String) (node : SyntaxNode)
  | derived (query : SyntaxQuery) (alias_ : Option String) (node : SyntaxNode)
  | nestedJoin (tableWithJoins : SyntaxTableWithJoins) (alias_ : Option String) (node : SyntaxNode)
  | unsupported (description : String) (node : SyntaxNode)

/-- `SyntaxOrderByExpr`. -/
structure SyntaxOrderByExpr where
  expr : SyntaxExpr
  asc : Option Bool
  nullsFirst : Option Bool
  node : SyntaxNode

/-- `WindowSpec`. -/
structure WindowSpec where
  partitionBy : List SyntaxExpr
  orderBy : List SyntaxOrderByExpr
  node : SyntaxNode

/-- `SyntaxFunctionCall`. -/
structure SyntaxFunctionCall where
  function : FunctionRef
  args : List SyntaxExpr
  distinct : Bool
  filter : Option SyntaxExpr
  over_ : Option WindowSpec

/-- `SyntaxWhenThen`. -/
structure SyntaxWhenThen where
  condition : SyntaxExpr
  result : SyntaxExpr

/-- `SyntaxExpr`. -/
structure SyntaxExpr where
  kind : SyntaxExprKind
  node : SyntaxNode

/-- `SyntaxExprKind`. -/
inductive SyntaxExprKind
  | column (relation : Option String) (name : String)
  | literal (value : LiteralValue)
  | parameter (reference : ParameterRef)
  | unary (op : UnaryOperator) (expr : SyntaxExpr)
  | binary (op : BinaryOperator) (left right : SyntaxExpr)
  | function (call : SyntaxFunctionCall)
  | case (operand : Option SyntaxExpr) (whenThen : List SyntaxWhenThen)
      (elseResult : Option SyntaxExpr)
  | cast (expr : SyntaxExpr) (dataType : DataType)
  | between (expr low high : SyntaxExpr) (negated : Bool)
  | inList (expr : SyntaxExpr) (list : List SyntaxExpr) (negated : Bool)
  | inSubquery (expr : SyntaxExpr) (subquery : SyntaxQuery) (negated : Bool)
  | scalarSubquery (subquery : SyntaxQuery)
  | exists (subquery : SyntaxQuery)
  | like (expr pattern : SyntaxExpr) (negated caseInsensitive : Bool)
  | isNull (expr : SyntaxExpr) (negated : Bool)
  | tuple (items : List SyntaxExpr)
  | array (items : List SyntaxExpr)
  | unsupported (description : String)

end

end QueryFabric
