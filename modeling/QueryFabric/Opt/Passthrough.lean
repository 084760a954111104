import QueryFabric.Opt.ScatterGather

/-!
# What a federated passthrough computes

`build_federated_passthrough_plan` runs a query without aggregates on every node, and then runs it
again over all that the nodes return. `federatedPassthrough_computes_iff` says for which queries
that comes to the query itself: a row that the query returns has to be selected again, and to be
returned as it is.

The planner does not ask this. `SELECT cell FROM samples WHERE x > 5` is planned, and its second
statement looks for an `x` that the nodes have not returned.
-/

namespace QueryFabric.Opt

open Lib

/-! ## Meaning -/

section Meaning

variable {N : Type} [AddCommSemigroup N] [LinearOrder N] (B : Backend N)

/-- What a projection shows of a row. A wildcard shows all of it. -/
def Backend.projectedItem (row : Row N) : BoundProjectionItem → Row N
  | .wildcard _ _ _ => row
  | .expr details => [(B.outputName details, B.scalar details.expr row)]
  | .unsupported _ _ => []

/-- A row with the columns that a select shows. -/
def Backend.projectedRow (select : BoundSelect) (row : Row N) : Row N :=
  select.projection.flatMap (B.projectedItem row)

/-- Whether a select takes a row. -/
def Backend.isSelected (select : BoundSelect) (row : Row N) : Bool :=
  select.selection.all fun condition => B.holds (B.scalar condition row)

/-- What a select shows of the rows that it selects. -/
def Backend.shownRows (select : BoundSelect) (rows : List (Row N)) : List (Row N) :=
  (B.selected select rows).map (B.projectedRow select)

/-- The rows of a select without groups over a table, before they are ordered and limited. -/
def Backend.plainRows (select : BoundSelect) (rows : List (Row N)) : List (Row N) :=
  if select.distinct then (B.shownRows select rows).dedup else B.shownRows select rows

/-- The rows of a table have its columns. -/
def HasColumns (columns : List String) (rows : List (Row N)) : Prop :=
  ∀ row ∈ rows, row.map Prod.fst = columns

/-- Every row that a select returns of a table with these columns is selected again, and returned as
it is. -/
def Backend.Repeats (select : BoundSelect) (columns : List String) : Prop :=
  ∀ row : Row N, row.map Prod.fst = columns → B.isSelected select row →
    B.isSelected select (B.projectedRow select row) ∧
      (B.projectedRow select (B.projectedRow select row)).map Prod.snd =
        (B.projectedRow select row).map Prod.snd

/-- A select without groups and aggregates. -/
def isPlain (select : BoundSelect) : Bool :=
  select.groupBy.isEmpty && select.having.isNone &&
    (projectionExprs select).all fun details => !exprContainsAggregate details.expr

/-- The rows of a select over a table, before they are ordered and limited. -/
def Backend.queryRows (select : BoundSelect) (rows : List (Row N)) : List (Row N) :=
  if isPlain select then B.plainRows select rows else B.selectRows select rows

/-! ## Rows -/

variable {B} {select : BoundSelect} {columns : List String}

omit [LinearOrder N] in
/-- The columns of a row decide those of what is shown of it. -/
theorem projectedRow_columns {a b : Row N} (h : a.map Prod.fst = b.map Prod.fst) :
    (B.projectedRow select a).map Prod.fst = (B.projectedRow select b).map Prod.fst := by
  rw [Backend.projectedRow, Backend.projectedRow, List.map_flatMap, List.map_flatMap]
  refine List.flatMap_congr fun item _ => ?_
  cases item with
  | wildcard qualifier fields node => exact h
  | expr details => rfl
  | unsupported description node => rfl

omit [AddCommSemigroup N] [LinearOrder N] in
/-- A row is given by its columns and its values. -/
theorem row_ext {a b : Row N} (hcolumns : a.map Prod.fst = b.map Prod.fst)
    (hvalues : a.map Prod.snd = b.map Prod.snd) :
    a = b := by
  rw [← List.zip_unzip a, ← List.zip_unzip b, List.unzip_fst, List.unzip_snd, List.unzip_fst,
    List.unzip_snd, hcolumns, hvalues]

omit [LinearOrder N] in
/-- A row is shown where it is what a selected row shows. -/
theorem mem_shownRows {rows : List (Row N)} {row : Row N} :
    row ∈ B.shownRows select rows ↔ ∃ a ∈ rows, B.isSelected select a ∧
    B.projectedRow select a = row := by
  rw [Backend.shownRows, List.mem_map]
  simp only [Backend.selected, List.mem_filter, and_assoc]
  rfl

omit [LinearOrder N] in
/-- What is shown depends on which rows there are only. -/
theorem mem_shownRows_congr {as bs : List (Row N)} (h : ∀ a, a ∈ as ↔ a ∈ bs) (row : Row N) :
    row ∈ B.shownRows select as ↔ row ∈ B.shownRows select bs := by
  simp only [mem_shownRows, h]

omit [LinearOrder N] in
/-- The rows that are shown have the same columns. -/
theorem HasColumns.shownRows (B : Backend N) (select : BoundSelect) {rows : List (Row N)}
    (h : HasColumns columns rows) : ∃ columns', HasColumns columns' (B.shownRows select rows) := by
  cases rows with
  | nil => exact ⟨[], fun row hrow => by cases hrow⟩
  | cons first rows =>
    refine ⟨(B.projectedRow select first).map Prod.fst, fun row hrow => ?_⟩
    obtain ⟨a, ha, -, rfl⟩ := mem_shownRows.mp hrow
    exact projectedRow_columns ((h a ha).trans (h first List.mem_cons_self).symm)

omit [LinearOrder N] in
/-- What the nodes show together is what is shown of all their rows. -/
theorem shownRows_flatMap {α : Type} (f : α → List (Row N)) (nodes : List α) :
    B.shownRows select (nodes.flatMap f) = nodes.flatMap fun node =>
      B.shownRows select (f node) := by
  rw [Backend.shownRows, Backend.selected, List.filter_flatMap, List.map_flatMap]
  rfl

omit [LinearOrder N] in
/-- The values of a part of the table that is shown twice. -/
theorem values_shownRows_twice (h : B.Repeats select columns) {rows : List (Row N)}
    (hrows : HasColumns columns rows) :
    values (B.shownRows select (B.shownRows select rows)) = values (B.shownRows select rows) := by
  induction rows with
  | nil => rfl
  | cons row rows ih =>
    have htail := ih fun a ha => hrows a (List.mem_cons_of_mem _ ha)
    have hcons (a : Row N) (as : List (Row N)) : B.shownRows select (a :: as) =
        if B.isSelected select a then B.projectedRow select a :: B.shownRows select as
            else B.shownRows select as := by
      rw [Backend.shownRows, Backend.selected, List.filter_cons]
      split
      · rename_i hselected
        rw [if_pos (show B.isSelected select a = true from hselected)]
        rfl
      · rename_i hselected
        rw [if_neg (show ¬B.isSelected select a = true from hselected)]
        rfl
    by_cases hselected : B.isSelected select row
    · -- the row is shown, selected again and shown as it was
      obtain ⟨hagain, hsame⟩ := h row (hrows row List.mem_cons_self) hselected
      rw [hcons, if_pos hselected, hcons, if_pos hagain, values, List.map_cons, hsame]
      exact congrArg _ htail
    · rw [hcons, if_neg hselected]
      exact htail

omit [LinearOrder N] in
/-- What is gathered of the shown rows is what the whole table shows. -/
theorem values_gathered_shown (h : B.Repeats select columns) {nodes : List (List (Row N))}
    {table : List (Row N)} (htable : HasColumns columns table) (hperm : table.Perm nodes.flatten) :
    (values (B.shownRows select (nodes.flatMap (B.shownRows select)))).Perm
      (values (B.shownRows select table)) := by
  have hnodes : ∀ node ∈ nodes, HasColumns columns node := fun node hnode row hrow =>
    htable row (hperm.mem_iff.mpr (List.mem_flatten.mpr ⟨node, hnode, hrow⟩))
  have htwice : values (B.shownRows select (nodes.flatMap (B.shownRows select))) =
      values (B.shownRows select nodes.flatten) := by
    rw [shownRows_flatMap, ← List.flatMap_id, shownRows_flatMap, values, values, List.map_flatMap,
      List.map_flatMap]
    exact List.flatMap_congr fun node hnode => values_shownRows_twice h (hnodes node hnode)
  rw [htwice]
  exact ((hperm.symm.filter _).map _).map _

omit [AddCommSemigroup N] [LinearOrder N] in
/-- The values of the same rows are the same. -/
theorem mem_values_congr {as bs : List (Row N)} (h : ∀ a, a ∈ as ↔ a ∈ bs)
    (value : List (Option N)) :
    value ∈ values as ↔ value ∈ values bs := by
  simp only [values, List.mem_map, h]

omit [AddCommSemigroup N] in
/-- Rows with the same columns and without duplicates have no value twice. -/
theorem nodup_values {rows : List (Row N)} (hrows : HasColumns columns rows) :
    (values rows.dedup).Nodup := by
  have hcolumns {row : Row N} (hrow : row ∈ rows.dedup) : row.map Prod.fst = columns :=
    hrows row (List.mem_dedup.mp hrow)
  exact List.Nodup.map_on
    (fun a ha b hb hvalues => row_ext ((hcolumns ha).trans (hcolumns hb).symm) hvalues)
    (List.nodup_dedup rows)

/-- The second statement comes to the query when every row that the query returns is returned
again. -/
theorem values_gathered (h : B.Repeats select columns) {nodes : List (List (Row N))}
    {table : List (Row N)} (htable : HasColumns columns table) (hperm : table.Perm nodes.flatten) :
    (values (B.plainRows select (nodes.flatMap (B.plainRows select)))).Perm
      (values (B.plainRows select table)) := by
  have hshown := values_gathered_shown h htable hperm
  unfold Backend.plainRows
  -- Without `DISTINCT` the shown rows are the same list up to order.
  by_cases hdistinct : select.distinct
  · simp only [if_pos hdistinct]
    have hflat : HasColumns columns nodes.flatten :=
      fun row hrow => htable row (hperm.mem_iff.mpr hrow)
    obtain ⟨columns', hcolumns'⟩ := hflat.shownRows B select
    -- What a node shows has the columns of what the whole table shows.
    have hnodes :
        HasColumns columns' (nodes.flatMap fun node => (B.shownRows select node).dedup) := by
      rintro row hrow
      obtain ⟨node, hnode, hrow⟩ := List.mem_flatMap.mp hrow
      refine hcolumns' row ?_
      rw [← List.flatMap_id, shownRows_flatMap]
      exact List.mem_flatMap.mpr ⟨node, hnode, List.mem_dedup.mp hrow⟩
    obtain ⟨columns'', hgathered⟩ := hnodes.shownRows B select
    obtain ⟨shown, hwhole⟩ := htable.shownRows B select
    -- Both lists are without duplicates, so having the same members is enough.
    refine (List.perm_ext_iff_of_nodup (nodup_values hgathered) (nodup_values hwhole)).mpr
      fun value => ?_
    rw [mem_values_congr fun _ => List.mem_dedup, mem_values_congr fun _ => List.mem_dedup,
      ← hshown.mem_iff]
    exact mem_values_congr
      (mem_shownRows_congr fun row => by simp only [List.mem_flatMap, List.mem_dedup]) value
  · simp only [if_neg hdistinct]
    exact hshown

/-- What a table of one row shows is a row or nothing. -/
theorem plainRows_singleton (row : Row N) :
    B.plainRows select [row] = if B.isSelected select row then
      [B.projectedRow select row] else [] := by
  have hshown : B.shownRows select [row] = if B.isSelected select row then
      [B.projectedRow select row] else [] := by
    rw [Backend.shownRows, Backend.selected, List.filter_singleton]
    change List.map _ (bif B.isSelected select row then [row] else []) = _
    cases B.isSelected select row <;> rfl
  rw [Backend.plainRows, hshown]
  split <;> split <;> rfl

/-- A table of one row, on one node, shows whether the row is returned again. -/
theorem repeats_of_gathered (h : ∀ (nodes : List (List (Row N))) table,
      HasColumns columns table → table.Perm nodes.flatten →
        (values (B.plainRows select (nodes.flatMap (B.plainRows select)))).Perm
          (values (B.plainRows select table))) :
    B.Repeats select columns := by
  intro row hrow hselected
  have hone := h [[row]] [row] (fun a ha => by rw [List.mem_singleton.mp ha, hrow])
    (List.Perm.refl _)
  rw [List.flatMap_singleton, plainRows_singleton, if_pos hselected, plainRows_singleton] at hone
  by_cases hagain : B.isSelected select (B.projectedRow select row)
  · rw [if_pos hagain] at hone
    exact ⟨hagain, List.singleton_inj.mp (List.perm_singleton.mp hone)⟩
  · rw [if_neg hagain] at hone
    cases List.nil_perm.mp hone

omit [LinearOrder N] in
/-- A select of columns under their own names repeats what it returns, if it selects by these
columns only. -/
theorem repeats_of_columns {names : List String} (hnames : names.Nodup)
    (hshown : ∀ row, B.projectedRow select row = names.map fun name =>
      (name, (row.lookup name).join))
    (hselected : ∀ a b : Row N, (∀ name ∈ names, (a.lookup name).join = (b.lookup name).join) →
      B.isSelected select a = B.isSelected select b) : B.Repeats select columns := by
  intro row _ hrow
  have hlookup : ∀ name ∈ names,
      ((B.projectedRow select row).lookup name).join = (row.lookup name).join := by
    intro name hname
    have hfound := lookup_map_of_nodup (f := id) (g := fun name => (row.lookup name).join)
      (by rwa [List.map_id]) hname
    rw [hshown]
    exact (congrArg Option.join hfound).trans rfl
  refine ⟨?_, ?_⟩
  · rw [hselected _ row hlookup]
    exact hrow
  · have hagain : B.projectedRow select (B.projectedRow select row) =
        B.projectedRow select row := by
      rw [hshown (B.projectedRow select row), hshown row]
      refine List.map_congr_left fun name hname => ?_
      rw [← hshown row, hlookup name hname]
    rw [hagain]

end Meaning

/-! ## Plans -/

/-- The first statement is emitted of the query without its order and its limits, and the second is
the statement of the query over the partial results. -/
structure PassthroughOf (adapter : BackendAdapter) (catalog : Catalog) (bound : BoundQuery)
    (artifact : SqlArtifact) (plan : ScatterGatherPlan) : Prop where
  scatterSql : ∃ emitted, adapter.emit (bound.withPlan (unordered bound.plan)) catalog =
    .ok (some emitted) ∧
    plan.scatterSql = emitted.text
  gatherSql : ∃ binding, primaryRelationBinding bound = .ok binding ∧
    wrapQueryOverPartials artifact.text binding = .ok plan.gatherSql

section Plans

variable {adapter : BackendAdapter} {catalog : Catalog} {bound : BoundQuery}
  {features : PlanFeatures}
  {artifact : SqlArtifact} {plan : ScatterGatherPlan} {select : BoundSelect}

/-- A query without aggregates is planned as a passthrough. -/
theorem buildScatterGatherPlan_passthrough (hfeatures : features.hasAggregates = false)
    (h : buildScatterGatherPlan adapter catalog bound features artifact = .ok plan) :
    PassthroughOf adapter catalog bound artifact plan := by
  obtain ⟨_, _, h⟩ := bind_eq_ok.mp h
  rw [hfeatures, if_neg Bool.false_ne_true] at h
  obtain ⟨baseRelation, hprimary, h⟩ := bind_eq_ok.mp h
  obtain ⟨fromTarget, _, h⟩ := bind_eq_ok.mp h
  obtain ⟨scatterArtifact, hscatter, h⟩ := bind_eq_ok.mp h
  obtain ⟨gatherSql, hwrap, h⟩ := bind_eq_ok.mp h
  cases h
  exact ⟨⟨scatterArtifact, emitSql_ok hscatter, rfl⟩, baseRelation, mapError_eq_ok.mp hprimary,
    mapError_eq_ok.mp hwrap⟩

/-- A query over one relation is a select. -/
theorem exists_select {binding : BoundRelationBinding}
    (h : primaryRelationBinding bound = .ok binding) :
    ∃ select, bound.plan.body = .select select := by
  obtain ⟨select, hselect, -⟩ := bind_eq_ok.mp h
  unfold topLevelSelect at hselect
  split at hselect
  · rename_i found hbody
    exact ⟨found, hbody⟩
  · cases hselect

/-- Every node returns the rows of the query over its part of the table, and the query over all of
these is the query over the table, however the table is spread over the nodes, exactly when the
query repeats what it returns. -/
theorem federatedPassthrough_computes_iff {N : Type} [AddCommSemigroup N] [LinearOrder N]
    (B : Backend N) (hfeatures : features.hasAggregates = false)
    (hplan : buildScatterGatherPlan adapter catalog bound features artifact = .ok plan) :
    PassthroughOf adapter catalog bound artifact plan ∧ ∃ select, bound.plan.body = .select select ∧
      (isPlain select → ∀ columns, B.Repeats select columns ↔
        ∀ (nodes : List (List (Row N))) table, HasColumns columns table → table.Perm nodes.flatten →
          (values (B.queryRows select (nodes.flatMap (B.queryRows select)))).Perm
            (values (B.queryRows select table))) := by
  have hemitted := buildScatterGatherPlan_passthrough hfeatures hplan
  obtain ⟨binding, hprimary, -⟩ := hemitted.gatherSql
  obtain ⟨select, hbody⟩ := exists_select hprimary
  refine ⟨hemitted, select, hbody, fun hplain columns => ?_⟩
  have hrows : B.queryRows select = B.plainRows select := funext fun rows => if_pos hplain
  rw [hrows]
  exact ⟨fun h nodes table => values_gathered h, repeats_of_gathered⟩

end Plans

/-! ## The cells of a table -/

namespace Samples

/-- `SELECT cell FROM samples WHERE <selection>`. -/
def cellsQuery (selection : Option SyntaxExpr) : ParsedQuery :=
  selectFromSamples [(syntaxColumn "cell", none)] selection []

/-- The select that `cellsQuery` is bound to. -/
def cells (selection : Option BoundExpr) : BoundSelect :=
  selectOf [item (column "cell" .int64) none "cell"] selection []

/-- A select of the cells repeats what it returns. -/
theorem repeats_cells : backend.Repeats (cells none) ["cell", "x", "good"] :=
  repeats_of_columns (List.nodup_singleton "cell") (fun _ => rfl) fun _ _ _ => rfl

/-- A cell that is `good` is returned without this column. -/
theorem not_repeats_cells :
    ¬ backend.Repeats (cells (some (column "good" .boolean))) ["cell", "x", "good"] := by
  intro h
  have hrow := h [("cell", some 1), ("x", some 6), ("good", some 1)] rfl rfl
  cases hrow.1

/-- What the planner makes of a query over the table: the select that it is bound to, and the two
statements. -/
structure Planned (query : ParsedQuery) (select : BoundSelect) (scatterSql gatherSql : String)
    (bound : BoundQuery) (artifact : SqlArtifact) (plan : ScatterGatherPlan) : Prop where
  bind : Bind.bindAndValidate context query = .ok bound
  body : bound.plan.body = .select select
  emitted : emit .postgres bound context.catalog = .ok artifact
  planned : buildScatterGatherPlan (sqlAdapter .postgres) context.catalog bound
    (planFeaturesFromBound context.catalog bound.plan) artifact = .ok plan
  scatter : plan.scatterSql = scatterSql
  gather : plan.gatherSql = gatherSql

/-- The plan of all cells. -/
theorem exists_planned_cells : ∃ bound artifact plan,
    Planned (cellsQuery none) (cells none) "SELECT samples.cell FROM samples"
      "SELECT samples.cell FROM (\x7bpartials\x7d) AS samples" bound artifact plan :=
  ⟨_, _, _, rfl, rfl, rfl, rfl, by decide +kernel, by decide +kernel⟩

/-- The plan of the good cells. -/
theorem exists_planned_goodCells : ∃ bound artifact plan,
    Planned (cellsQuery (some (syntaxColumn "good"))) (cells (some (column "good" .boolean)))
      "SELECT samples.cell FROM samples WHERE samples.good"
      "SELECT samples.cell FROM (\x7bpartials\x7d) AS samples WHERE samples.good" bound
        artifact plan :=
  ⟨_, _, _, rfl, rfl, rfl, rfl, by decide +kernel, by decide +kernel⟩

end Samples

open Samples in
/-- The cells of a table are those of its parts, and its good cells are not. -/
theorem federatedPassthrough_computes_cells :
    (∃ bound artifact plan,
      Planned (cellsQuery none) (cells none) "SELECT samples.cell FROM samples"
        "SELECT samples.cell FROM (\x7bpartials\x7d) AS samples" bound artifact plan ∧
      ∀ (nodes : List (List (Row Int))) table, HasColumns ["cell", "x", "good"] table →
        table.Perm nodes.flatten →
          (values
            (backend.queryRows (cells none) (nodes.flatMap (backend.queryRows (cells none))))).Perm
            (values (backend.queryRows (cells none) table))) ∧
    ∃ bound artifact plan,
      Planned (cellsQuery (some (syntaxColumn "good"))) (cells (some (column "good" .boolean)))
        "SELECT samples.cell FROM samples WHERE samples.good"
        "SELECT samples.cell FROM (\x7bpartials\x7d) AS samples WHERE samples.good" bound
          artifact plan ∧
      ¬ ∀ (nodes : List (List (Row Int))) table, HasColumns ["cell", "x", "good"] table →
        table.Perm nodes.flatten →
          (values (backend.queryRows (cells (some (column "good" .boolean)))
            (nodes.flatMap (backend.queryRows (cells (some (column "good" .boolean))))))).Perm
              (values (backend.queryRows (cells (some (column "good" .boolean))) table)) := by
  -- The plain select repeats its rows, so the plan computes the query's.
  constructor
  · obtain ⟨bound, artifact, plan, hplanned⟩ := exists_planned_cells
    refine ⟨bound, artifact, plan, hplanned, ?_⟩
    obtain ⟨hbind, hbody, -, hplan, -⟩ := hplanned
    cases hbind
    obtain ⟨-, select, hselect, hiff⟩ := federatedPassthrough_computes_iff backend rfl hplan
    obtain rfl := BoundSetExpr.select.inj (hselect.symm.trans hbody)
    exact (hiff rfl _).mp repeats_cells
  · obtain ⟨bound, artifact, plan, hplanned⟩ := exists_planned_goodCells
    -- With a condition on a column that it does not show, the select does not repeat them.
    refine ⟨bound, artifact, plan, hplanned, fun h => ?_⟩
    obtain ⟨hbind, hbody, -, hplan, -⟩ := hplanned
    cases hbind
    obtain ⟨-, select, hselect, hiff⟩ := federatedPassthrough_computes_iff backend rfl hplan
    obtain rfl := BoundSetExpr.select.inj (hselect.symm.trans hbody)
    exact not_repeats_cells ((hiff rfl _).mpr h)

end QueryFabric.Opt
