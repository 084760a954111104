import QueryFabric.Dialect.SourceMap

/-!
# The syntax trees of the SQL parser

What the lowering reads of the trees of the `sqlparser` crate, under that crate's names. A node that
the lowering asks for its span carries it, and so do the texts that it asks to be displayed. Of a
clause that is only reported, there is whether it is given; the variants of an enumeration that are
not told apart are one variant.
-/

namespace QueryFabric.Dialect.Ast

/-- An identifier. -/
structure Ident where
  value : String
  span : SqlSpan
deriving DecidableEq, Repr

/-- A qualified name: its parts and how it is displayed. -/
structure ObjectName where
  parts : List String
  text : String
deriving DecidableEq, Repr

/-- The binary operators of the parser. -/
inductive BinaryOperator
  | plus
  | minus
  | multiply
  | divide
  | eq
  | notEq
  | lt
  | ltEq
  | gt
  | gtEq
  | and
  | or
  | other (text : String)
deriving DecidableEq, Repr

/-- The unary operators of the parser. -/
inductive UnaryOperator
  | plus
  | minus
  | not
  | other (text : String)
deriving DecidableEq, Repr

/-- The literals of the parser. -/
inductive Value
  | boolean (value : Bool)
  | number (text : String)
  | singleQuotedString (text : String)
  | doubleQuotedString (text : String)
  | null
  | placeholder (text : String)
  | other
deriving DecidableEq, Repr

/-- The precision of a decimal. -/
inductive ExactNumberInfo
  | none
  | precision (precision : UInt64)
  | precisionAndScale (precision : UInt64) (scale : Int64)
deriving DecidableEq, Repr

/-- The types of the parser. -/
inductive DataType
  | boolean
  | int
  | integer
  | int4
  | bigInt
  | int8
  | float
  | double
  | doublePrecision
  | text
  | string
  | varchar
  | char
  | uuid
  | json
  | jsonb
  | date
  | decimal (info : ExactNumberInfo)
  | numeric (info : ExactNumberInfo)
  /-- A timestamp, and whether it is one with a time zone. -/
  | timestamp (withTimeZone : Bool)
  /-- An array, of an element type when one is given. -/
  | array (element : Option DataType)
  | other
deriving Repr

/-- The set operators. -/
inductive SetOperator
  | union
  | except
  | intersect
  | minus
deriving DecidableEq, Repr

/-- The quantifiers of a set operator. -/
inductive SetQuantifier
  | all
  | distinct
  | byName
  | allByName
  | distinctByName
  | none
deriving DecidableEq, Repr

/-- What stands before the `*` of a qualified wildcard. -/
inductive QualifiedWildcardKind
  | objectName (name : ObjectName)
  | expr
deriving DecidableEq, Repr

/-- A setting of a query: its text, and the spans of its key and value. -/
structure Setting where
  text : String
  keySpan : SqlSpan
  valueSpan : SqlSpan
deriving DecidableEq, Repr

mutual

/-- A query. -/
structure Query where
  with_ : Option With
  body : SetExpr
  orderBy : Option OrderBy
  limitClause : Option LimitClause
  fetch : Bool
  locks : Bool
  forClause : Bool
  pipeOperators : Bool
  settings : Option (List Setting)
  /-- The format clause as it is displayed. -/
  formatClause : Option String
  span : SqlSpan

/-- A `WITH` clause. -/
structure With where
  recursive : Bool
  cteTables : List Cte

/-- A CTE. -/
structure Cte where
  aliasName : String
  aliasColumns : List String
  query : Query
  span : SqlSpan

/-- A `LIMIT` clause. -/
inductive LimitClause
  | limitOffset (limit offset : Option Expr) (limitBy : Bool) (span : SqlSpan)
  | offsetCommaLimit (offset limit : Expr)

/-- An `ORDER BY` clause. -/
inductive OrderBy
  | expressions (exprs : List OrderByExpr)
  | all (span : SqlSpan)

/-- A sort key. -/
structure OrderByExpr where
  expr : Expr
  asc : Option Bool
  nullsFirst : Option Bool
  span : SqlSpan

/-- A query body. -/
inductive SetExpr
  | select (select : Select)
  | query (query : Query)
  | setOperation (op : SetOperator) (setQuantifier : SetQuantifier) (left right : SetExpr)
    (span : SqlSpan)
  | other (span : SqlSpan)

/-- A select. -/
structure Select where
  distinct : Bool
  projection : List SelectItem
  from_ : List TableWithJoins
  selection : Option Expr
  groupBy : GroupByExpr
  having : Option Expr
  span : SqlSpan

/-- A `GROUP BY` clause. -/
inductive GroupByExpr
  | all
  | expressions (exprs : List Expr)

/-- A projection item. -/
inductive SelectItem
  | wildcard (span : SqlSpan)
  | qualifiedWildcard (kind : QualifiedWildcardKind) (span : SqlSpan)
  | unnamedExpr (expr : Expr) (span : SqlSpan)
  | exprWithAlias (expr : Expr) (alias_ : String) (span : SqlSpan)

/-- A table with its joins. -/
structure TableWithJoins where
  relation : TableFactor
  joins : List Join
  span : SqlSpan

/-- A join. -/
structure Join where
  relation : TableFactor
  joinOperator : JoinOperator
  /-- The span of the operator. -/
  span : SqlSpan

/-- The join operators. -/
inductive JoinOperator
  | join (constraint : JoinConstraint)
  | inner (constraint : JoinConstraint)
  | left (constraint : JoinConstraint)
  | leftOuter (constraint : JoinConstraint)
  | right (constraint : JoinConstraint)
  | rightOuter (constraint : JoinConstraint)
  | fullOuter (constraint : JoinConstraint)
  | crossJoin (constraint : JoinConstraint)
  | other

/-- The condition of a join. -/
inductive JoinConstraint
  | on (expr : Expr)
  | none
  | other

/-- A relation. -/
inductive TableFactor
  | table (name : ObjectName) (alias_ : Option String) (span : SqlSpan)
  | derived (subquery : Query) (alias_ : Option String) (span : SqlSpan)
  | nestedJoin (tableWithJoins : TableWithJoins) (alias_ : Option String) (span : SqlSpan)
  | other (span : SqlSpan)

/-- An expression, with its span. -/
structure Expr where
  kind : ExprKind
  span : SqlSpan

/-- The kinds of expressions. -/
inductive ExprKind
  | identifier (value : String)
  | compoundIdentifier (parts : List String)
  | value (value : Value)
  | binaryOp (left : Expr) (op : BinaryOperator) (right : Expr)
  | unaryOp (op : UnaryOperator) (expr : Expr)
  | nested (expr : Expr)
  | function (function : Function)
  | case (operand : Option Expr) (conditions : List CaseWhen) (elseResult : Option Expr)
  | cast (expr : Expr) (dataType : DataType)
  | between (expr low high : Expr) (negated : Bool)
  | inList (expr : Expr) (list : List Expr) (negated : Bool)
  | inSubquery (expr : Expr) (subquery : Query) (negated : Bool)
  | subquery (subquery : Query)
  | exists (subquery : Query)
  | like (expr pattern : Expr) (negated : Bool)
  | iLike (expr pattern : Expr) (negated : Bool)
  | isNull (expr : Expr)
  | isNotNull (expr : Expr)
  | tuple (exprs : List Expr)
  | array (elem : List Expr)
  | other (text : String)

/-- A branch of a `CASE`. -/
structure CaseWhen where
  condition : Expr
  result : Expr

/-- A function call. -/
structure Function where
  name : ObjectName
  usesOdbcSyntax : Bool
  args : FunctionArguments
  filter : Option Expr
  nullTreatment : Bool
  over_ : Option WindowType
  withinGroup : Bool
  span : SqlSpan

/-- The arguments of a call. -/
inductive FunctionArguments
  | none
  | subquery (query : Query)
  | list (duplicateTreatment : Bool) (args : List FunctionArg)

/-- An argument of a call. -/
inductive FunctionArg
  | expr (expr : Expr)
  /-- A wildcard, qualified or not. -/
  | wildcard (span : SqlSpan)
  | named (span : SqlSpan)

/-- The window of a call. -/
inductive WindowType
  | windowSpec (windowName : Option Ident) (partitionBy : List Expr) (orderBy : List OrderByExpr)
    (windowFrame : Bool)
  | namedWindow (name : Ident)

end

/-- A statement. -/
inductive Statement
  | query (query : Query)
  | other

end QueryFabric.Dialect.Ast
