import QueryFabric.Bind.Induction
import QueryFabric.Bind.Names
import QueryFabric.ClickHouse.Cost

/-!
# The range of the ClickHouse cost estimate

What an estimate may be trusted for (`InRange`): its rows are at least those of each relation that
is not pruned, it touches no more partitions than there are, and all those of a relation in a branch
of a union that has no predicate on its partitions. `inRange_iff` says exactly when it is: the sum
of the rows wraps around, predicates may name more partitions than there are, and those of one
branch prune the relations of the others.
-/

namespace QueryFabric.ClickHouse

open Lib QueryFabric.Bind

/-! ## Relations that are not pruned -/

/-- The selects of a set expression. -/
def leafSelects : BoundSetExpr → List BoundSelect
  | .select select => [select]
  | .unionAll left right _ _ => leafSelects left ++ leafSelects right
  | .unsupported .. => []

/-- The branches of a union. -/
def unionBranches : BoundSetExpr → List BoundSelect
  | .unionAll left right _ _ => leafSelects left ++ leafSelects right
  | .select _ | .unsupported .. => []

mutual

/-- The tables of a relation, through nested joins. -/
def relationTables : BoundRelation → List BoundRelationBinding
  | .table binding _ => [binding]
  | .derived .. => []
  | .nestedJoin _ ⟨relation, joins, _⟩ _ => relationTables relation ++ joinTables joins
  | .unsupported .. => []

/-- The tables of joins. -/
def joinTables : List BoundJoin → List BoundRelationBinding
  | [] => []
  | ⟨_, relation, _, _⟩ :: joins => relationTables relation ++ joinTables joins

end

mutual

/-- The derived tables of a relation, through nested joins. -/
def relationDerivedTables : BoundRelation → List BoundQueryPlan
  | .table .. => []
  | .derived _ query _ => [query]
  | .nestedJoin _ ⟨relation, joins, _⟩ _ =>
    relationDerivedTables relation ++ joinDerivedTables joins
  | .unsupported .. => []

/-- The derived tables of joins. -/
def joinDerivedTables : List BoundJoin → List BoundQueryPlan
  | [] => []
  | ⟨_, relation, _, _⟩ :: joins => relationDerivedTables relation ++ joinDerivedTables joins

end

/-- The tables in the FROM clause of a select. -/
def selectTables (select : BoundSelect) : List BoundRelationBinding :=
  select.from_.flatMap fun table => relationTables table.relation ++ joinTables table.joins

/-- The derived tables in the FROM clause of a select. -/
def selectDerived (select : BoundSelect) : List BoundQueryPlan :=
  select.from_.flatMap fun table => relationDerivedTables table.relation ++
    joinDerivedTables table.joins

/-- A select has no predicate on the partitions of a relation. -/
def Unpruned (select : BoundSelect) (relation : RelationCostContext) : Prop :=
  ∀ column ∈ relation.partitionColumns,
    select.selection.bind (partitionExprSpan relation column) = none

mutual

/-- A relation occurs in the FROM clause of a select, without a predicate on its partitions
there. -/
inductive ScannedBySelect (catalog : StatisticsCatalog) (relation : RelationCostContext) :
    BoundSelect → Prop
  | table {select : BoundSelect} {binding : BoundRelationBinding}
    (hmem : binding ∈ selectTables select)
    (hcontext : relationContext catalog binding = .ok relation)
      (hunpruned : Unpruned select relation) :
    ScannedBySelect catalog relation select
  | derived {select : BoundSelect} {query : BoundQueryPlan} (hmem : query ∈ selectDerived select)
    (hquery : ScannedByPlan catalog relation query) (hunpruned : Unpruned select relation) :
    ScannedBySelect catalog relation select

/-- A relation occurs in a FROM clause of a plan, without a predicate on its partitions there. -/
inductive ScannedByPlan (catalog : StatisticsCatalog) (relation : RelationCostContext) :
    BoundQueryPlan → Prop
  | body {plan : BoundQueryPlan} {select : BoundSelect} (hmem : select ∈ leafSelects plan.body)
    (hselect : ScannedBySelect catalog relation select) : ScannedByPlan catalog relation plan
  | cte {plan : BoundQueryPlan} {cte : BoundCte} (hmem : cte ∈ plan.ctes)
    (hquery : ScannedByPlan catalog relation cte.query) : ScannedByPlan catalog relation plan

end

/-- The rows of the relations of an estimate. -/
def scannedRows (relations : List RelationCostContext) : List UInt64 :=
  relations.map RelationCostContext.estimatedRows

/-- How many partitions the relations of an estimate have. -/
def allPartitions (relations : List RelationCostContext) : Nat :=
  (relations.map fun relation => relation.partitionCount.toNat).sum

/-- The rows of an estimate are at least those of each relation of the query that is not pruned, and
their sum does not wrap around. The partitions are at most those of the relations, and all those of
a relation that a branch of a union scans. -/
structure InRange (catalog : StatisticsCatalog) (plan : BoundQueryPlan)
    (relations : List RelationCostContext) (cost : EstimatedCost) : Prop where
  sum : (wordSum (scannedRows relations)).toNat = valueSum (scannedRows relations)
  rows : ∀ inner, Within plan inner → ∀ relation, ScannedByPlan catalog relation inner →
    relation.estimatedRows ≤ cost.rowsScanned
  partitions : cost.partitionsTouched.toNat ≤ allPartitions relations
  unions : ∀ inner, Within plan inner → ∀ branch ∈ unionBranches inner.body, ∀ relation,
    ScannedBySelect catalog relation branch →
      relation ∈ relations ∧ touchedPartitions plan.body relation = relation.partitionCount

/-! ## The partitions that predicates name -/

section Named

variable (relation : RelationCostContext) (column : String)

/-- Two numbers, or the one there is. -/
def eitherSpan (combine : Nat → Nat → Nat) : Option Nat → Option Nat → Option Nat
  | some left, some right => some (combine left right)
  | some count, none | none, some count => some count
  | none, none => none

/-- Two numbers, if there are both. -/
def bothSpans (combine : Nat → Nat → Nat) : Option Nat → Option Nat → Option Nat
  | some left, some right => some (combine left right)
  | _, _ => none

mutual

/-- How many values of a partition column a condition names. -/
def namedByExpr : BoundExpr → Option Nat
  | ⟨kind, _, _, _⟩ => namedByKind kind
termination_by structural x => x

/-- The match of the number of named partitions. -/
def namedByKind : BoundExprKind → Option Nat
  | .binary .and left right => eitherSpan min (namedByExpr left) (namedByExpr right)
  | .binary .or left right => bothSpans (· + ·) (namedByExpr left) (namedByExpr right)
  | .binary op left right =>
    if comparesOrder op && (comparesPartitionToLiteral left right relation column ||
        comparesPartitionToLiteral right left relation column) then some 1
    else none
  | .between expr low high false =>
    if isPartitionColumn expr relation column && isLiteralExpr low && isLiteralExpr high then
      some 2 else none
  | .inList expr list false =>
    if isPartitionColumn expr relation column ∧ 0 < (list.filter isLiteralExpr).length then
      some (list.filter isLiteralExpr).length
    else none
  | _ => none
termination_by structural x => x

end

/-- How many values of a partition column the conditions of a set expression name, over the branches
that name any. -/
def namedBySetExpr : BoundSetExpr → Option Nat
  | .select select => select.selection.bind (namedByExpr relation column)
  | .unionAll left right _ _ => eitherSpan (· + ·) (namedBySetExpr left) (namedBySetExpr right)
  | .unsupported .. => none

end Named

/-- The least number of partitions that the conditions of a set expression name by one of the
partition columns. -/
def namedPartitions (body : BoundSetExpr) (relation : RelationCostContext) : Option Nat :=
  (relation.partitionColumns.filterMap fun column => namedBySetExpr relation column body).min?

/-- What is counted for a relation: the partitions that are named, or all of them. -/
def countedPartitions (body : BoundSetExpr) (relation : RelationCostContext) : Nat :=
  (namedPartitions body relation).getD relation.partitionCount.toNat

/-- A number as a word that saturates. -/
def clamp32 (n : Nat) : UInt32 := UInt32.ofNat (min n (2 ^ 32 - 1))

/-- A clamped number by its value. -/
theorem toNat_clamp32 (n : Nat) : (clamp32 n).toNat = min n (2 ^ 32 - 1) := by
  unfold clamp32
  exact UInt32.toNat_ofNat_of_lt' (by rw [UInt32.size]; omega)

/-- A saturating sum clamps the sum. -/
theorem saturatingAdd32_clamp32 (m n : Nat) :
    saturatingAdd32 (clamp32 m) (clamp32 n) = clamp32 (m + n) := by
  refine UInt32.toNat_inj.mp ?_
  rw [toNat_saturatingAdd32, toNat_clamp32, toNat_clamp32, toNat_clamp32]
  omega

/-- The lesser of clamped numbers clamps the lesser. -/
theorem min_clamp32 (m n : Nat) : min (clamp32 m) (clamp32 n) = clamp32 (min m n) := by
  refine UInt32.toNat_inj.mp ?_
  rw [toNat_min32, toNat_clamp32, toNat_clamp32, toNat_clamp32]
  omega

/-- `AND` names the fewer partitions of the two. -/
theorem andSpan_clamp32 (a b : Option Nat) :
    andSpan (a.map clamp32) (b.map clamp32) = (eitherSpan min a b).map clamp32 := by
  cases a <;> cases b <;> simp [andSpan, eitherSpan, min_clamp32]

/-- `OR` names the partitions of both, if both name any. -/
theorem orSpan_clamp32 (a b : Option Nat) :
    orSpan (a.map clamp32) (b.map clamp32) = (bothSpans (· + ·) a b).map clamp32 := by
  cases a <;> cases b <;> simp [orSpan, bothSpans, saturatingAdd32_clamp32]

/-- A union names the partitions of both, or of the one that names any. -/
theorem unionSpan_clamp32 (a b : Option Nat) :
    unionSpan (a.map clamp32) (b.map clamp32) = (eitherSpan (· + ·) a b).map clamp32 := by
  cases a <;> cases b <;> simp [unionSpan, eitherSpan, saturatingAdd32_clamp32]

section Spans

variable (relation : RelationCostContext) (column : String)

mutual

/-- The span of a condition is the number that it names, saturated. -/
theorem partitionExprSpan_eq : ∀ expr : BoundExpr,
    partitionExprSpan relation column expr = (namedByExpr relation column expr).map clamp32
  | ⟨kind, _, _, _⟩ => by
    rw [partitionExprSpan, namedByExpr]
    exact partitionKindSpan_eq kind

/-- The span of a kind clamps the number that it names. -/
theorem partitionKindSpan_eq : ∀ kind : BoundExprKind,
    partitionKindSpan relation column kind = (namedByKind relation column kind).map clamp32
  | .binary op left right => by
    -- A comparison names one partition at most, which is far below the bound.
    have hone : ∀ b : Bool, (if b then some 1 else none : Option UInt32) =
        (if b then some 1 else none : Option Nat).map clamp32 := fun b => by cases b <;> rfl
    cases op with
    | and => rw [partitionKindSpan, namedByKind, partitionExprSpan_eq left,
        partitionExprSpan_eq right, andSpan_clamp32]
    | or => rw [partitionKindSpan, namedByKind, partitionExprSpan_eq left,
        partitionExprSpan_eq right, orSpan_clamp32]
    | _ => first | rfl | exact hone _
  | .between expr low high negated => by
    -- A `BETWEEN` names the partitions of its two ends.
    have htwo : ∀ b : Bool, (if b then some 2 else none : Option UInt32) =
        (if b then some 2 else none : Option Nat).map clamp32 := fun b => by cases b <;> rfl
    cases negated with
    | false => exact htwo _
    | true => rfl
  | .inList expr list negated => by
    cases negated with
    | true => rfl
    | false =>
      rw [partitionKindSpan, namedByKind]
      -- The count of literals is cut at the largest 32-bit number.
      generalize (list.filter isLiteralExpr).length = count
      by_cases hcolumn : isPartitionColumn expr relation column = true
      · by_cases hcount : 0 < count
        · rw [if_pos hcolumn, if_pos hcount, if_pos (And.intro hcolumn hcount), Option.map_some]
          refine congrArg some (UInt32.toNat_inj.mp ?_)
          rw [toNat_clamp32]
          split_ifs with hfits
          · rw [UInt32.toNat_ofNat_of_lt' hfits]
            omega
          · have hmax : (4294967295 : UInt32).toNat = 2 ^ 32 - 1 := by decide
            rw [hmax]
            omega
        · have hnone : ¬(isPartitionColumn expr relation column = true ∧ 0 < count) :=
            fun h => hcount h.2
          rw [if_pos hcolumn, if_neg hcount, if_neg hnone, Option.map_none]
      · have hnone : ¬(isPartitionColumn expr relation column = true ∧ 0 < count) :=
          fun h => hcolumn h.1
        rw [if_neg hcolumn, if_neg hnone, Option.map_none]
  | .column _ | .literal _ | .parameter _ | .unary .. | .function _ | .case .. | .cast ..
  | .inSubquery .. | .scalarSubquery _ | .exists _ | .like .. | .isNull .. | .tuple _ | .array _
  | .unsupported _ => rfl

end

/-- The span of a body clamps the number that it names. -/
theorem partitionPredicateSpan_eq (body : BoundSetExpr) :
    partitionPredicateSpan relation column body =
      (namedBySetExpr relation column body).map clamp32 := by
  induction body using leafSelects.induct with
  | case1 select =>
    rw [partitionPredicateSpan, namedBySetExpr]
    cases select.selection with
    | none => rfl
    | some selection => exact partitionExprSpan_eq relation column selection
  | case2 left right _ _ ihleft ihright =>
    rw [partitionPredicateSpan, namedBySetExpr, ihleft, ihright, unionSpan_clamp32]
  | case3 => rfl

end Spans

/-- The least of the spans of a relation is the least number that is named, saturated. -/
theorem min?_map_clamp32 (numbers : List Nat) :
    (numbers.map clamp32).min? = numbers.min?.map clamp32 := by
  cases numbers with
  | nil => rfl
  | cons n numbers =>
    rw [List.map_cons, List.min?_cons', List.min?_cons', Option.map_some]
    congr 1
    induction numbers generalizing n with
    | nil => rfl
    | cons m numbers ih => rw [List.map_cons, List.foldl_cons, List.foldl_cons, min_clamp32, ih]

/-- The partitions that are counted for a relation, saturated. -/
theorem touchedPartitions_eq (body : BoundSetExpr) (relation : RelationCostContext) :
    touchedPartitions body relation = clamp32 (countedPartitions body relation) := by
  have hself : clamp32 relation.partitionCount.toNat = relation.partitionCount := by
    have hlt := relation.partitionCount.toNat_lt
    refine UInt32.toNat_inj.mp ?_
    rw [toNat_clamp32]
    omega
  have hspans : (relation.partitionColumns.filterMap fun column =>
    partitionPredicateSpan relation column body) =
      (relation.partitionColumns.filterMap fun column => namedBySetExpr relation column body).map
          clamp32 := by
    rw [List.map_filterMap]
    exact congrArg (List.filterMap · _)
      (funext fun column => partitionPredicateSpan_eq relation column body)
  unfold touchedPartitions countedPartitions namedPartitions
  dsimp only
  rw [hspans, min?_map_clamp32]
  cases (relation.partitionColumns.filterMap fun column =>
    namedBySetExpr relation column body).min? with
  | none => exact hself.symm
  | some n => rfl

/-- The partitions of an estimate are those that are counted, saturated. -/
theorem toNat_estimatePartitionsTouched (plan : BoundQueryPlan)
    (relations : List RelationCostContext) :
    (estimatePartitionsTouched plan relations).toNat =
      min (relations.map (countedPartitions plan.body)).sum (2 ^ 32 - 1) := by
  have hfold : ∀ (relations : List RelationCostContext) (n : Nat),
      relations.foldl
        (fun touched relation => saturatingAdd32 touched (touchedPartitions plan.body relation))
        (clamp32 n) = clamp32 (n + (relations.map (countedPartitions plan.body)).sum) := by
    intro relations
    induction relations with
    | nil => exact fun n => rfl
    | cons relation relations ih =>
      intro n
      rw [List.foldl_cons, touchedPartitions_eq, saturatingAdd32_clamp32, ih, List.map_cons,
        List.sum_cons, Nat.add_assoc]
  have hzero : (0 : UInt32) = clamp32 0 := by decide
  unfold estimatePartitionsTouched
  rw [hzero, hfold, toNat_clamp32, Nat.zero_add]

/-! ## When an estimate is in range -/

/-- The rows of the relations fit into 64 bits, and no other relation of the query has more. The
conditions name at most as many partitions as there are, and for a relation that a branch of a union
scans they name none or all of them. -/
structure Bounded (catalog : StatisticsCatalog) (plan : BoundQueryPlan)
    (relations : List RelationCostContext) :
    Prop where
  sum : valueSum (scannedRows relations) < 2 ^ 64
  rows : ∀ inner, Within plan inner → ∀ relation, ScannedByPlan catalog relation inner →
    relation ∉ relations →
    relation.estimatedRows.toNat ≤ max (valueSum (scannedRows relations)) 1
  partitions : min (relations.map (countedPartitions plan.body)).sum (2 ^ 32 - 1) ≤
    allPartitions relations
  unions : ∀ inner, Within plan inner → ∀ branch ∈ unionBranches inner.body, ∀ relation,
    ScannedBySelect catalog relation branch → relation ∈ relations ∧
      ∀ n, namedPartitions plan.body relation = some n →
        min n (2 ^ 32 - 1) = relation.partitionCount.toNat

/-- There is a partition if there is a relation. -/
theorem allPartitions_pos {relations : List RelationCostContext} (hne : relations ≠ []) :
    1 ≤ allPartitions relations := by
  obtain ⟨relation, relations, rfl⟩ := List.exists_cons_of_ne_nil hne
  have hpos := relation.partitionCount_pos
  unfold allPartitions
  rw [List.map_cons, List.sum_cons]
  omega

/-- A relation is touched as a whole when no partitions are named, or as many as it has. -/
theorem touchedPartitions_eq_count_iff (body : BoundSetExpr) (relation : RelationCostContext) :
    touchedPartitions body relation = relation.partitionCount ↔
      ∀ n, namedPartitions body relation = some n →
      min n (2 ^ 32 - 1) = relation.partitionCount.toNat := by
  have hlt := relation.partitionCount.toNat_lt
  rw [touchedPartitions_eq, ← UInt32.toNat_inj, toNat_clamp32]
  unfold countedPartitions
  cases namedPartitions body relation with
  | none =>
    rw [Option.getD_none]
    refine iff_of_true ?_ fun n hn => by cases hn
    omega
  | some n => simp

/-- An estimate is in range exactly when its relations and conditions are bounded. -/
theorem inRange_iff {plan : BoundQueryPlan} {catalog : StatisticsCatalog} {cost : EstimatedCost}
    (h : estimateClickhouseCost plan catalog = .ok cost) :
    ∃ relations, collectRelationCostContexts catalog plan = .ok relations ∧
      (InRange catalog plan relations cost ↔ Bounded catalog plan relations) := by
  obtain ⟨relations, hcollect, hne, rfl⟩ := estimateClickhouseCost_eq_ok h
  refine ⟨relations, hcollect, ?_⟩
  have hpos := allPartitions_pos hne
  have hrows : (estimatedCost plan relations).rowsScanned.toNat =
      max (wordSum (scannedRows relations)).toNat 1 :=
    toNat_max64 _ _
  have htouched : (estimatedCost plan relations).partitionsTouched.toNat =
      max (min (relations.map (countedPartitions plan.body)).sum (2 ^ 32 - 1)) 1 := by
    rw [← toNat_estimatePartitionsTouched]
    exact toNat_max32 _ _
  constructor
  · intro hrange
    have hsum := hrange.sum
    have hpartitions := hrange.partitions
    refine ⟨(toNat_wordSum_eq_iff _).mp hsum, fun inner hinner relation hscan _ => ?_, by omega,
      fun inner hinner branch hbranch relation hscan => ?_⟩
    · have hle := UInt64.le_iff_toNat_le.mp (hrange.rows inner hinner relation hscan)
      rwa [hrows, hsum] at hle
    · obtain ⟨hmem, hall⟩ := hrange.unions inner hinner branch hbranch relation hscan
      exact ⟨hmem, (touchedPartitions_eq_count_iff _ _).mp hall⟩
  · intro hbounded
    have hsum := (toNat_wordSum_eq_iff _).mpr hbounded.sum
    have hpartitions := hbounded.partitions
    refine ⟨hsum, fun inner hinner relation hscan => ?_, by omega,
      fun inner hinner branch hbranch relation hscan => ?_⟩
    · rw [UInt64.le_iff_toNat_le, hrows, hsum]
      by_cases hmem : relation ∈ relations
      · -- The rows of a relation are a part of their sum.
        have hpart :=
          toNat_le_valueSum (List.mem_map_of_mem (f := RelationCostContext.estimatedRows) hmem)
        exact le_max_of_le_left hpart
      · exact hbounded.rows inner hinner relation hscan hmem
    · obtain ⟨hmem, hall⟩ := hbounded.unions inner hinner branch hbranch relation hscan
      exact ⟨hmem, (touchedPartitions_eq_count_iff _ _).mpr hall⟩

/-! ## Conditions on partitions -/

mutual

/-- Every relation that is scanned is one that the catalog has statistics of. -/
theorem ScannedBySelect.exists_context {catalog : StatisticsCatalog}
    {relation : RelationCostContext}
    {select : BoundSelect} : ScannedBySelect catalog relation select →
      ∃ binding, relationContext catalog binding = .ok relation
  | .table _ hcontext _ => ⟨_, hcontext⟩
  | .derived _ hquery _ => hquery.exists_context

/-- Every relation that is scanned is one that the catalog has statistics of. -/
theorem ScannedByPlan.exists_context {catalog : StatisticsCatalog} {relation : RelationCostContext}
    {plan : BoundQueryPlan} : ScannedByPlan catalog relation plan →
      ∃ binding, relationContext catalog binding = .ok relation
  | .body _ hselect => hselect.exists_context
  | .cte _ hquery => hquery.exists_context

end

/-- The table `t (p)`, partitioned by its column, with more metadata. -/
def partitionedTable (metadata : List (String × String)) : RelationSchema :=
  { namespace_ := none, name := "t", aliases := [], kind := .table
    columns := [{ name := "p", dataType := .int64, nullable := false }]
    metadata := ("partition_columns", "p") :: metadata }

/-- A binder over that table and the relation `users (id)`. -/
def partitionedContext (metadata : List (String × String)) : BinderContext where
  catalog := ((MemoryCatalog.registerRelation {} (partitionedTable metadata)).registerRelation
    (idRelation "users")).toCatalog
  parameters := {}
  toLowercase c := [c.toLower]

/-- The statistics of its relations, of two rows each. -/
def partitionedCatalog (metadata : List (String × String)) : StatisticsCatalog where
  relationStatistics _ name :=
    some { relation := name, estimatedRows := 2, averageRowBytes := 1, shardCount := none }
  resolveRelation := (partitionedContext metadata).catalog.resolveRelation

/-- Every relation of that catalog has two rows. -/
theorem estimatedRows_of_context {metadata : List (String × String)}
    {binding : BoundRelationBinding} {relation : RelationCostContext}
    (h : relationContext (partitionedCatalog metadata) binding = .ok relation) :
    relation.estimatedRows = 2 := by
  unfold relationContext partitionedCatalog at h
  cases hname : binding.relationName with
  | none => simp [hname] at h
  | some name =>
    simp only [hname] at h
    split at h
    · cases h
    · cases h
      rfl

/-- `SELECT p FROM t WHERE p IN (1, …)` with so many literals. -/
def selectPartitions (literals : Nat) : SyntaxQuery :=
  let node : SyntaxNode := { span := none, nodeId := "q" }
  let column : SyntaxExpr := ⟨.column none "p", node⟩
  let list : List SyntaxExpr := List.replicate literals ⟨.literal (.int64 1), node⟩
  { selectId [] (plainTable "t") with
    body := .select
      { distinct := false, projection := [.expr ⟨column, none, node⟩]
        from_ := [⟨plainTable "t", [], node⟩], selection := some ⟨.inList column list false, node⟩
        groupBy := [], having := none, node } }

/-- `SELECT p FROM t WHERE p IN (1) UNION ALL SELECT id FROM (SELECT id FROM users) AS u`. -/
def partitionsAndUsers : SyntaxQuery :=
  let node : SyntaxNode := { span := none, nodeId := "q" }
  let users : SyntaxRelation := .derived (selectId [] (plainTable "users")) (some "u") node
  { selectPartitions 1 with
    body := .unionAll (selectPartitions 1).body (selectId [] users).body node }

/-- The plan of a query over the partitioned table. -/
def partitionsPlan (metadata : List (String × String)) (query : SyntaxQuery) : BoundQueryPlan :=
  boundPlan (partitionedContext metadata) query

/-- The estimate for one partition of the four of `t`, and for the one of `users`. -/
theorem inRange_partitionsAndUsers :
    Accepted (partitionedContext [("partition_count", "4")]) partitionsAndUsers ∧ ∃ relations,
    collectRelationCostContexts (partitionedCatalog [("partition_count", "4")])
      (partitionsPlan [("partition_count", "4")] partitionsAndUsers) = .ok relations ∧
    InRange (partitionedCatalog [("partition_count", "4")])
      (partitionsPlan [("partition_count", "4")] partitionsAndUsers) relations
      { memoryBytes := 8, rowsScanned := 4, partitionsTouched := 2, wallclockEstimateMs := 1 } := by
  have hcost : estimateClickhouseCost (partitionsPlan [("partition_count", "4")] partitionsAndUsers)
      (partitionedCatalog [("partition_count", "4")]) = .ok
        { memoryBytes := 8, rowsScanned := 4, partitionsTouched := 2,
          wallclockEstimateMs := 1 } := by
    rfl
  obtain ⟨relations, hcollect, hiff⟩ := inRange_iff hcost
  cases hcollect
  refine ⟨by decide, _, rfl, hiff.mpr ⟨by decide, ?_, by decide, ?_⟩⟩
  · intro inner hinner relation hscan hmem
    obtain ⟨binding, hcontext⟩ := hscan.exists_context
    rw [estimatedRows_of_context hcontext]
    decide
  · refine @allWithin_of_plansWithin _ 1 _ (by decide) fun inner hinner => ?_
    rcases List.mem_cons.mp hinner with rfl | hinner
    · intro branch hbranch relation hscan
      rcases List.mem_cons.mp hbranch with rfl | hbranch
      -- The first branch names one partition of `t`, so it scans no relation.
      · cases hscan with
        | table hmem hcontext hunpruned =>
          cases List.mem_singleton.mp hmem
          cases hcontext
          exact absurd (hunpruned "p" (by decide)) (by decide)
        | derived hmem => cases hmem
      -- The second scans `users` in its derived table.
      · cases List.mem_singleton.mp hbranch
        cases hscan with
        | table hmem => cases hmem
        | derived hmem hquery =>
          cases List.mem_singleton.mp hmem
          cases hquery with
          | cte hmem => cases hmem
          | body hmem hselect =>
            cases List.mem_singleton.mp hmem
            cases hselect with
            | derived hmem => cases hmem
            | table hmem hcontext =>
              cases List.mem_singleton.mp hmem
              cases hcontext
              exact ⟨by decide, fun n hn => nomatch hn⟩
    · cases List.mem_singleton.mp hinner
      exact fun branch hbranch => nomatch hbranch

/-- Two literals name two partitions of the one there is. -/
theorem not_inRange_selectPartitions :
    Accepted (partitionedContext []) (selectPartitions 2) ∧
    estimateClickhouseCost (partitionsPlan [] (selectPartitions 2)) (partitionedCatalog []) = .ok
      { memoryBytes := 2, rowsScanned := 2, partitionsTouched := 2, wallclockEstimateMs := 1 } ∧
    ∀ relations, collectRelationCostContexts (partitionedCatalog [])
        (partitionsPlan [] (selectPartitions 2)) = .ok relations →
      ¬ InRange (partitionedCatalog []) (partitionsPlan [] (selectPartitions 2)) relations
        { memoryBytes := 2, rowsScanned := 2, partitionsTouched := 2,
          wallclockEstimateMs := 1 } := by
  refine ⟨by decide, by rfl, fun relations hcollect hrange => ?_⟩
  cases hcollect
  exact absurd hrange.partitions (by decide)

end QueryFabric.ClickHouse
