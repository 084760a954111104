import QueryFabric.Bind.Names
import QueryFabric.Bind.Uses
import QueryFabric.ClickHouse.Nested

/-!
# Wildcards and the columns that they stand for

A wildcard stands for the columns of the relations in scope, or of the one that it names. The
rewriter does not rewrite it as it rewrites these columns: `expandWildcardProjection` gives them all
to one relation of the catalog, and never asks for the merge function of a column.
`wildcard_agrees_iff` says when the two come to the same projection.
-/

namespace QueryFabric.ClickHouse

open QueryFabric.Bind

/-! ## The columns of a wildcard -/

/-- The columns that a wildcard stands for: the relation of each, and its field. -/
def denotedColumns (scope : Scope) : Option String → List (String × ResultField)
  | none => scope.entries.flatMap fun entry => entry.schema.fields.map (Prod.mk entry.bindingName)
  | some qualifier =>
    match scope.entries.find? fun entry => eqIgnoreAsciiCase entry.bindingName qualifier with
    | some entry => entry.schema.fields.map (Prod.mk entry.bindingName)
    | none => []

/-- A qualified column. -/
def columnExpr (node : SyntaxNode) (column : String × ResultField) : BoundExpr :=
  { kind := .column { relation := some column.1, name := column.2.name }
    dataType := column.2.dataType, nullable := column.2.nullable, node }

/-- A projected column, with its name for an alias or without one. -/
def columnItem (aliased : Bool) (node : SyntaxNode) (column : String × ResultField) :
    BoundProjectionItem :=
  .expr { expr := columnExpr node column, alias_ := if aliased then some column.2.name else none
          field := column.2, node }

/-- The select with a wildcard replaced by the columns that it stands for. -/
def withColumns (select : BoundSelect) (aliased : Bool) (before after : List BoundProjectionItem)
    (qualifier : Option String) (node : SyntaxNode) : BoundSelect :=
  { select with
    projection := before ++
      (denotedColumns (fromScope select.from_) qualifier).map (columnItem aliased node) ++ after }

/-- The expression and the alias of a projection item. -/
def projected : BoundProjectionItem → Option (BoundExpr × Option String)
  | .expr details => some (details.expr, details.alias_)
  | .wildcard .. => none
  | .unsupported .. => none

/-- The expressions and aliases that a select is rewritten to. -/
def rewrittenProjection (catalog : Catalog) (enabled : Bool) (select : BoundSelect) :
    List (Option (BoundExpr × Option String)) :=
  (rewriteSelect catalog enabled select).1.projection.map projected

/-! ## What binding makes of a wildcard -/

/-- The fields of a wildcard are those of the columns that it stands for. -/
def WildcardsDenote (select : BoundSelect) : Prop :=
  ∀ qualifier fields node, .wildcard qualifier fields node ∈ select.projection →
    fields = (denotedColumns (fromScope select.from_) qualifier).map Prod.snd

/-- The wildcards of every select denote the columns of its relations. -/
def wildcardMotive : BindMotive where
  expr _ _ := True
  query q := ∀ select, .select select ∈ setExprs q.body → WildcardsDenote select
  setExpr body := ∀ select, .select select ∈ setExprs body → WildcardsDenote select
  relation _ _ := True
  joins _ _ := True
  table _ _ := True

/-- What the wildcards of selects denote is carried through binding. -/
theorem wildcardCases : UseCases wildcardMotive fun _ _ => True where
  expr_iff _ _ := iff_of_true trivial fun _ _ => trivial
  column _ _ _ _ _ := trivial
  membership _ _ _ _ := trivial
  query _ _ hbody _ _ := hbody
  unionAll l r nd hl hr hlength := by
    intro select hselect
    obtain hselect | hselect := List.mem_cons.mp hselect
    · cases hselect
    · exact (List.mem_append.mp hselect).elim (hl select) (hr select)
  select s _ _ hitems hschema := by
    intro select hselect qualifier fields node hmem
    obtain rfl := BoundSetExpr.select.inj (List.mem_singleton.mp hselect)
    -- A wildcard denotes the columns of the whole scope or of one entry.
    cases hitems _ hmem with
    | all nd => simp [denotedColumns, Scope.expandAll, List.map_flatMap, Function.comp_def]
    | qualified qualifier fields nd hfields =>
      obtain ⟨entry, hentry, rfl⟩ := Option.map_eq_some_iff.mp hfields
      simp [denotedColumns, hentry, Function.comp_def]
  table _ _ _ := trivial
  derived _ _ _ _ _ := trivial
  nestedJoin _ _ _ _ _ := trivial
  startJoins _ _ _ := trivial
  addJoin _ _ _ _ _ _ _ _ _ := trivial
  endJoins _ _ _ _ := trivial

/-! ## The two rewritings -/

section Agree

variable (catalog : Catalog) (enabled : Bool)

/-- The columns of a wildcard are rewritten one by one. -/
theorem rewriteProjections_columnItems (scope : SelectScope) (aliased : Bool) (node : SyntaxNode)
    (columns : List (String × ResultField)) :
    (rewriteProjections catalog enabled scope (columns.map (columnItem aliased node))).1 =
      columns.map fun column => rewriteProjectionExpr
        { expr := columnExpr node column, alias_ := if aliased then some column.2.name else none
          field := column.2, node }
        (rewriteExpr catalog enabled (some scope) true (columnExpr node column)).1 enabled := by
  induction columns with
  | nil => simp [rewriteProjections]
  | cons column columns ih => simp [columnItem, rewriteProjections, ih]

variable {catalog enabled}

/-- What a converted expression is projected as: with its alias, or else with its name for one. -/
theorem projected_rewriteUuidArrowExpr {expr : BoundExpr} {alias_ : Option String} {name : String}
    {field field' : ResultField} {node : SyntaxNode} :
    projected (.expr
        { expr := (rewriteUuidArrowExpr expr enabled).1
          alias_ := alias_.orElse fun _ => if (rewriteUuidArrowExpr expr enabled).2 then
            some name else none
          field := if (rewriteUuidArrowExpr expr enabled).2 then field' else field, node }) =
      if enabled && expr.dataType = .uuid && !isToStringCall expr then
        some ({ kind := wrapCall { namespace_ := none, name := "toString" } expr
                dataType := .utf8, nullable := expr.nullable, node := expr.node },
          alias_.orElse fun _ => some name)
      else some (expr, alias_) := by
  unfold rewriteUuidArrowExpr
  cases enabled <;> by_cases huuid : expr.dataType = .uuid <;> cases hcall : isToStringCall expr <;>
    simp [projected, huuid]

/-- A column is rewritten to itself under another relation, when it is the same and has no merge
function. -/
theorem rewriteExpr_columnExpr_eq_iff {scope : SelectScope} {node : SyntaxNode} {name : String}
    {column : String × ResultField} :
    columnExpr node (name, column.2) =
      (rewriteExpr catalog enabled (some scope) true (columnExpr node column)).1 ↔
      column.1 = name ∧ scope.resolveWrapper (some column.1) column.2.name = none := by
  rw [columnExpr, columnExpr, rewriteExpr, columnWrapper]
  cases scope.resolveWrapper (some column.1) column.2.name with
  | none => simp [eq_comm]
  | some resolved => simp [wrapCall]

/-- A column of an expanded wildcard is projected as the column that it stands for, when it is given
to the relation of that column, which has no merge function, and the alias is the same. -/
theorem projected_expandField_iff {scope : SelectScope} {aliased : Bool} {node : SyntaxNode}
    {name : String} {column : String × ResultField} :
    projected (expandField name node enabled column.2) = projected (rewriteProjectionExpr
        { expr := columnExpr node column, alias_ := if aliased then some column.2.name else none
          field := column.2, node }
        (rewriteExpr catalog enabled (some scope) true (columnExpr node column)).1 enabled) ↔
      column.1 = name ∧ scope.resolveWrapper (some column.1) column.2.name = none ∧
        (aliased = true ∨ enabled = true ∧ column.2.dataType = .uuid) := by
  have hexpr := @rewriteExpr_columnExpr_eq_iff catalog enabled scope node name column
  have htype : (rewriteExpr catalog enabled (some scope) true (columnExpr node column)).1.dataType =
      column.2.dataType := rewriteExpr_dataType catalog enabled (some scope) true _
  have hcall :
    isToStringCall (rewriteExpr catalog enabled (some scope) true (columnExpr node column)).1 =
      false := isToStringCall_rewriteExpr catalog enabled (some scope) true _
  have hexpand : projected (expandField name node enabled column.2) =
      if enabled && column.2.dataType = .uuid then
        some ({ kind := wrapCall { namespace_ := none, name := "toString" }
                  (columnExpr node (name, column.2))
                dataType := .utf8, nullable := column.2.nullable, node }, some column.2.name)
      else some (columnExpr node (name, column.2), some column.2.name) := by
    cases enabled <;> by_cases huuid : column.2.dataType = .uuid <;>
      simp [expandField, rewriteUuidArrowExpr, projected, columnExpr, isToStringCall, huuid]
  rw [rewriteProjectionExpr, projected_rewriteUuidArrowExpr, hexpand, htype, hcall, ← and_assoc,
    ← hexpr]
  generalize (rewriteExpr catalog enabled (some scope) true (columnExpr node column)).1 = expr
  cases hwraps : enabled && decide (column.2.dataType = .uuid) with
  | true =>
    -- Both are converted, and so both have the name of the field for an alias.
    have hconverted : enabled = true ∧ column.2.dataType = .uuid := by simpa using hwraps
    have halias :
      ((if aliased then some column.2.name else none).orElse fun _ => some column.2.name) =
        some column.2.name := by cases aliased <;> rfl
    simp only [Bool.not_false, Bool.and_true, if_true, halias, hconverted, and_self, or_true,
      and_true]
    constructor
    · intro h
      simpa [wrapCall] using congrArg (fun p => p.map fun q => q.1.kind) h
    · rintro rfl
      rfl
  | false =>
    have hkept : ¬ (enabled = true ∧ column.2.dataType = .uuid) := by simpa using hwraps
    cases aliased <;> simp [hkept]

end Agree

/-- A wildcard is expanded to the one relation that all its columns belong to, none of them has a
merge function, and they get the aliases that the columns have. -/
def ExpandsAsColumns (catalog : Catalog) (enabled aliased : Bool) (select : BoundSelect)
    (qualifier : Option String) : Prop :=
  ∃ name, (scopeFromFromClause catalog select.from_).targetBindingName qualifier = some name ∧
    ∀ column ∈ denotedColumns (fromScope select.from_) qualifier, column.1 = name ∧
      (scopeFromFromClause catalog select.from_).resolveWrapper
        (some column.1) column.2.name = none ∧
      (aliased = true ∨ enabled = true ∧ column.2.dataType = .uuid)

/-- The rewriting of a select with a wildcard and that of the select with its columns, compared. -/
theorem rewrittenProjection_eq_iff {catalog : Catalog} {enabled aliased : Bool}
    {select : BoundSelect}
    (hdenote : WildcardsDenote select) {before after : List BoundProjectionItem}
    {qualifier : Option String} {fields : List ResultField} {node : SyntaxNode}
    (hprojection : select.projection = before ++ .wildcard qualifier fields node :: after) :
    rewrittenProjection catalog enabled select =
        rewrittenProjection catalog enabled
          (withColumns select aliased before after qualifier node) ↔
      ExpandsAsColumns catalog enabled aliased select qualifier := by
  have hfields := hdenote qualifier fields node (by rw [hprojection]; simp)
  rw [rewrittenProjection, rewrittenProjection, projection_rewriteSelect, projection_rewriteSelect,
    hprojection, withColumns, ExpandsAsColumns]
  generalize scopeFromFromClause catalog select.from_ = scope
  generalize denotedColumns (fromScope select.from_) qualifier = columns at hfields ⊢
  -- The items around the wildcard are rewritten alike.
  have hwildcard :
    (rewriteProjections catalog enabled scope (.wildcard qualifier fields node :: after)).1 =
      (expandWildcardProjection qualifier fields node scope enabled).getD
        [.wildcard qualifier fields node] ++
        (rewriteProjections catalog enabled scope after).1 := by rw [rewriteProjections]
  rw [rewriteProjections_append, hwildcard, rewriteProjections_append, rewriteProjections_append,
    rewriteProjections_columnItems, List.map_append, List.map_append, List.map_append,
    List.map_append, List.append_assoc, List.append_right_inj, List.append_left_inj,
    expandWildcardProjection, hfields]
  cases scope.targetBindingName qualifier with
  | none =>
    refine iff_of_false (fun h => ?_) (by simp)
    rcases columns with _ | ⟨column, columns⟩
    · cases h
    · cases (List.cons.inj h).1
  | some name =>
    simp only [Option.bind_eq_bind, Option.bind_some, Option.pure_def, Option.getD_some,
      List.map_map, Option.some.injEq, exists_eq_left', List.map_inj_left, Function.comp_apply]
    exact forall₂_congr fun column _ => projected_expandField_iff

/-- The rewriting of a wildcard of an accepted query gives the expressions and aliases that the
columns it stands for are rewritten to, exactly when the wildcard is expanded to the one relation
that these belong to and none of them has a merge function. Columns without an alias of their own
get one when they are converted, and those of a wildcard always do. -/
theorem wildcard_agrees_iff (context : BinderContext) (query : SyntaxQuery) (catalog : Catalog)
    (enabled aliased : Bool) (h : Accepted context query) {inner : BoundQueryPlan}
    (hinner : Within (boundPlan context query) inner) {select : BoundSelect}
    (hselect : .select select ∈ setExprs inner.body) {before after : List BoundProjectionItem}
    {qualifier : Option String} {fields : List ResultField} {node : SyntaxNode}
    (hprojection : select.projection = before ++ .wildcard qualifier fields node :: after) :
    rewrittenProjection catalog enabled select =
        rewrittenProjection catalog enabled
          (withColumns select aliased before after qualifier node) ↔
      ExpandsAsColumns catalog enabled aliased select qualifier :=
  rewrittenProjection_eq_iff
    (wildcardCases.bindCases.allWithin context h inner hinner select hselect) hprojection

/-- `SELECT * FROM <name>`. -/
def selectAll (name : String) : SyntaxQuery :=
  let node : SyntaxNode := { span := none, nodeId := "q" }
  { node, ctes := [], withRecursive := false, orderBy := [], limit := none, offset := none
    backendClauses := []
    body := .select
      { distinct := false, projection := [.wildcard none node],
        from_ := [⟨plainTable name, [], node⟩]
        selection := none, groupBy := [], having := none, node } }

/-- `SELECT * FROM events` is rewritten as `SELECT events.id AS id FROM events` is. -/
theorem selectAll_agrees : ∃ select, (boundPlan usersAndEvents (selectAll "events")).body =
    .select select ∧
    ∃ node, rewrittenProjection usersAndEvents.catalog true select =
      rewrittenProjection usersAndEvents.catalog true
        (withColumns select true [] [] none node) := by
  refine ⟨_, rfl, _,
    (wildcard_agrees_iff usersAndEvents (selectAll "events") usersAndEvents.catalog true true
    (by decide) .refl List.mem_cons_self rfl).mpr ⟨"events", by decide, by decide⟩⟩

/-- A binder over the materialized view `totals (total)`, whose column holds partial sums. -/
def totals : BinderContext where
  catalog := (MemoryCatalog.registerRelation {}
    { namespace_ := none, name := "totals", aliases := [], kind := .materializedView
      columns := [{ name := "total", dataType := .int64, nullable := false
                    metadata := { extensions := [("clickhouse.mv.merge_fn", "sumMerge")] } }]
    }).toCatalog
  parameters := {}
  toLowercase c := [c.toLower]

/-- `SELECT * FROM totals` returns the partial sums, and `SELECT totals.total AS total FROM totals`
merges them. -/
theorem selectAll_totals_not_merged : Accepted totals (selectAll "totals") ∧
    ∃ select, (boundPlan totals (selectAll "totals")).body = .select select ∧
      ∃ fields node, select.projection = [.wildcard none fields node] ∧
        rewrittenProjection totals.catalog true select ≠
          rewrittenProjection totals.catalog true (withColumns select true [] [] none node) := by
  refine ⟨by decide, _, rfl, _, _, rfl, fun h => ?_⟩
  have hdenote :=
    wildcardCases.bindCases.boundPlan totals (by decide : Accepted totals (selectAll "totals"))
  obtain ⟨name, -, hcolumns⟩ :=
    (rewrittenProjection_eq_iff (hdenote _ List.mem_cons_self) rfl).mp h
  obtain ⟨⟨-, hwrapper, -⟩, -⟩ := List.forall_mem_cons.mp hcolumns
  exact absurd hwrapper (by decide)

end QueryFabric.ClickHouse
