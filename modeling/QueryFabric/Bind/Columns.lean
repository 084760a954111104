import QueryFabric.Bind.Names
import QueryFabric.Bind.References
import Mathlib.Data.List.Forall2

/-!
# Every column means one column of its place

`columns_mean_one` says of an accepted query that each column reference, at any depth, is bound to
the only column that its name can mean among the relations of its own place, with the type of that
column. A reference that means a column of an enclosing select only, or several columns, is
therefore not in an accepted query.
-/

namespace QueryFabric.Bind

/-- The relation and the name of a column reference. -/
def columnReference? : Reference → Option (Option String × String)
  | .column relation name => some (relation, name)
  | .parameter .. => none

/-- The scope, the column and the type of a bound column. -/
def Placed.column? : Placed → Option (Scope × BoundColumnRef × DataType)
  | .column scope bound type => some (scope, bound, type)
  | .parameter _ => none

/-- The column references of a query in the order of the text. -/
def columnReferences (query : SyntaxQuery) : List (Option String × String) :=
  (queryOutline query).text.filterMap columnReference?

/-- The columns of a plan in the order of the text, each with the relations of its place. -/
def placedColumns (plan : BoundQueryPlan) : List (Scope × BoundColumnRef × DataType) :=
  (queryPlaced plan).filterMap Placed.column?

/-- One column of one relation in the scope is all that the reference can mean, and it is bound to
that column with its type. -/
def MeansOne (reference : Option String × String)
    (placed : Scope × BoundColumnRef × DataType) : Prop :=
  ∃ entry ∈ placed.1.entries, ∃ field ∈ entry.schema.fields,
    placed.1.entries.flatMap (Scope.entryMatches reference.1 reference.2) =
      [⟨some entry.bindingName, field⟩] ∧
    placed.2 = (⟨some entry.bindingName, reference.2⟩, field.dataType)

/-- A resolved column means one entry of its scope. -/
theorem meansOne_of_resolveColumn {scope : Scope} {relation : Option String} {name : String}
    {column : ResolvedColumn} (h : scope.resolveColumn relation name = .local column) :
    MeansOne (relation, name) (scope, ⟨column.relation, name⟩, column.field.dataType) := by
  unfold Scope.resolveColumn at h
  split at h
  · cases h
  · rename_i found hmatches
    cases h
    have hmem : column ∈ scope.entries.flatMap (Scope.entryMatches relation name) := by
      rw [hmatches]
      exact List.mem_singleton_self _
    obtain ⟨entry, hentry, hcolumn⟩ := List.mem_flatMap.mp hmem
    unfold Scope.entryMatches at hcolumn
    split at hcolumn
    · obtain ⟨field, hfield, rfl⟩ := List.mem_map.mp hcolumn
      exact ⟨entry, hentry, field, List.mem_of_mem_filter hfield, hmatches, rfl⟩
    · cases hcolumn
  · cases h

/-- Columns are bound one by one: each means one column of the scope of its place. -/
theorem Binds.columns {a b : Allocation} {outline : Outline Reference} {placed : List Placed}
    (h : Binds a outline placed b) :
    List.Forall₂ MeansOne (outline.text.filterMap columnReference?)
      (placed.filterMap Placed.column?) := by
  induction h with
  | nil a => exact .nil
  | column a scope relation name column hcolumn =>
    exact .cons (meansOne_of_resolveColumn hcolumn) .nil
  | parameter a spelled => exact .nil
  | tested a spelled => exact .nil
  | append _ _ ih₁ ih₂ =>
    rw [Outline.text, List.filterMap_append, List.filterMap_append]
    exact List.rel_append ih₁ ih₂
  | select _ _ ih₁ ih₂ =>
    rw [Outline.text, List.filterMap_append, List.filterMap_append]
    exact List.rel_append ih₂ ih₁

/-- In an accepted query every column reference means exactly one column of its own place, and is
bound to it with its type. -/
theorem columns_mean_one {context : BinderContext} {query : SyntaxQuery}
    (h : Accepted context query) :
    List.Forall₂ MeansOne (columnReferences query) (placedColumns (boundPlan context query)) :=
  (binds_query h).columns

/-- `SELECT id FROM (SELECT id FROM events) AS d` has two references, each of which means a column
of its place. -/
theorem nestedIds_mean_one :
    List.Forall₂ MeansOne [(none, "id"), (none, "id")] (placedColumns (boundPlan usersAndEvents
      (selectId [] (.derived (selectId [] (plainTable "events")) (some "d") ⟨none, "d"⟩)))) :=
  @columns_mean_one _
    (selectId [] (.derived (selectId [] (plainTable "events")) (some "d") ⟨none, "d"⟩)) (by decide)

/-- `SELECT id AS n FROM events LIMIT n`. -/
def limitedIds : SyntaxQuery :=
  let node : SyntaxNode := { span := none, nodeId := "q" }
  { selectId [] (plainTable "events") with
    limit := some ⟨.column none "n", node⟩
    body := .select
      { distinct := false, projection := [.expr ⟨⟨.column none "id", node⟩, some "n", node⟩]
        from_ := [⟨plainTable "events", [], node⟩], selection := none, groupBy := [],
        having := none, node } }

/-- The column of a `LIMIT` means a column of the output. The relations of the `FROM` clause have no
column of its name. -/
theorem limitedIds_means_output : Accepted usersAndEvents limitedIds ∧
    (boundPlan usersAndEvents limitedIds).limit.map BoundExpr.kind =
      some (.column ⟨some "__output__", "n"⟩) ∧
    ∃ s, (boundPlan usersAndEvents limitedIds).body = .select s ∧
      (fromScope s.from_).resolveColumn none "n" = .missing :=
  ⟨by decide, rfl, _, rfl, rfl⟩

end QueryFabric.Bind
