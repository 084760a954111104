import QueryFabric.Bind.Names
import QueryFabric.Bind.Uses
import QueryFabric.ClickHouse.Nested
import Mathlib.Data.List.Forall2

/-!
# Result schemas and rewriting

The rewriter computes the result schema of every select, set operation, CTE and query anew.
`QueryKept` says that these are the schemas that binding found, with text for UUIDs. The rewriter
forgets the column list of a CTE and what the right branch of a `UNION ALL` contributes to its
schema, so they are kept exactly when that makes no difference (`rewrite_keeps_schemas_iff`).
-/

namespace QueryFabric.ClickHouse

open QueryFabric.Bind

/-! ## What is kept -/

/-- The type of a result field after rewriting. A UUID may become a text, and it has to when `every`
is set and the rewriter converts UUIDs; the other types stay. -/
def TypeKept (every enabled : Bool) (type type' : DataType) : Prop :=
  if every then type' = if enabled && type = .uuid then .utf8 else type
  else type' = type ∨ type = .uuid ∧ type' = .utf8

/-- A result field after rewriting: its name and nullability stay. -/
structure FieldKept (every enabled : Bool) (field field' : ResultField) : Prop where
  name : field'.name = field.name
  nullable : field'.nullable = field.nullable
  dataType : TypeKept every enabled field.dataType field'.dataType

/-- A result schema after rewriting: field by field. -/
def SchemaKept (every enabled : Bool) (schema schema' : ResultSchema) : Prop :=
  List.Forall₂ (FieldKept every enabled) schema.fields schema'.fields

/-- A query after rewriting: its result schema, those of its CTEs and those of the set operations
and selects of its body. -/
structure QueryKept (every enabled : Bool) (query query' : BoundQueryPlan) : Prop where
  result : SchemaKept every enabled query.resultSchema query'.resultSchema
  ctes : List.Forall₂ (fun cte cte' => SchemaKept every enabled cte.resultSchema cte'.resultSchema)
    query.ctes query'.ctes
  body :
    List.Forall₂ (fun body body' => SchemaKept every enabled body.resultSchema body'.resultSchema)
    (setExprs query.body) (setExprs query'.body)

/-! ## When it is kept -/

/-- The column list of a CTE renames nothing. -/
def CteStable (cte : BoundCte) : Prop :=
  cte.columns.length = cte.query.resultSchema.fields.length →
    cte.columns = cte.query.resultSchema.fields.map ResultField.name

/-- The right branch of a `UNION ALL` changes neither the types nor the nullability of the left
one. -/
def BranchesAgree (left right : ResultSchema) : Prop :=
  ∀ pair ∈ left.fields.zip right.fields,
    DataType.commonOrUnknown pair.1.dataType pair.2.dataType = pair.1.dataType ∧
      (pair.2.nullable → pair.1.nullable)

/-- The item has no UUID that the rewriter leaves: a call of `toString` that is typed as a UUID, or
a column of a wildcard that is not expanded. -/
def ItemStable (scope : SelectScope) : BoundProjectionItem → Prop
  | .expr details => ¬ (details.expr.dataType = .uuid ∧ isToStringCall details.expr)
  | .wildcard qualifier fields _ =>
    scope.targetBindingName qualifier = none → ∀ field ∈ fields, field.dataType ≠ .uuid
  | .unsupported .. => True

/-- The schema of a query body is kept by the rewriter. -/
def SetExprStable (catalog : Catalog) (every enabled : Bool) : BoundSetExpr → Prop
  | .select select => every = true → enabled = true →
      ∀ item ∈ select.projection, ItemStable (scopeFromFromClause catalog select.from_) item
  | .unionAll left right _ _ => BranchesAgree left.resultSchema right.resultSchema
  | .unsupported .. => True

/-- The schemas of a query are kept by the rewriter, without those of the queries in it. -/
structure QueryStable (catalog : Catalog) (every enabled : Bool)
    (query : BoundQueryPlan) : Prop where
  ctes : ∀ cte ∈ query.ctes, CteStable cte
  body : ∀ body ∈ setExprs query.body, SetExprStable catalog every enabled body

/-! The conditions can be checked. -/

/-- Whether a CTE is stable can be checked. -/
instance (cte : BoundCte) : Decidable (CteStable cte) := inferInstanceAs (Decidable (_ → _))

/-- Whether branches agree can be checked. -/
instance (left right : ResultSchema) : Decidable (BranchesAgree left right) :=
  inferInstanceAs (Decidable (∀ pair ∈ left.fields.zip right.fields, _ ∧ _))

/-- Whether an item is stable can be checked. -/
instance decidableItemStable (scope : SelectScope) : ∀ item, Decidable (ItemStable scope item)
  | .expr _ => inferInstanceAs (Decidable ¬ (_ ∧ _))
  | .wildcard _ fields _ =>
    inferInstanceAs (Decidable (_ → ∀ field ∈ fields, field.dataType ≠ .uuid))
  | .unsupported .. => .isTrue trivial

/-- Whether a query body is stable can be checked. -/
instance decidableSetExprStable (catalog : Catalog) (every enabled : Bool) :
    ∀ body, Decidable (SetExprStable catalog every enabled body)
  | .select select => inferInstanceAs (Decidable (_ → _ → ∀ item ∈ select.projection, _))
  | .unionAll _ _ _ _ => inferInstanceAs (Decidable (BranchesAgree _ _))
  | .unsupported .. => .isTrue trivial

/-- Whether a query is stable can be checked. -/
instance (catalog : Catalog) (every enabled : Bool) (query : BoundQueryPlan) :
    Decidable (QueryStable catalog every enabled query) :=
  decidable_of_iff ((∀ cte ∈ query.ctes, CteStable cte) ∧
      ∀ body ∈ setExprs query.body, SetExprStable catalog every enabled body)
    ⟨fun h => ⟨h.1, h.2⟩, fun h => ⟨h.ctes, h.body⟩⟩

/-! ## The schemas of a bound query -/

/-- How binding computes the result schema of a select or a set operation. -/
def SetExprConsistent : BoundSetExpr → Prop
  | .select select => select.resultSchema = .new (select.projection.flatMap itemFields) ∧
      ∀ details, .expr details ∈ select.projection → details.field.dataType = details.expr.dataType
  | .unionAll left right _ schema =>
    left.resultSchema.fields.length = right.resultSchema.fields.length ∧
      schema = unionSchema left.resultSchema right.resultSchema
  | .unsupported .. => False

/-- How binding computes the result schemas of a query and of its CTEs. -/
structure QueryConsistent (query : BoundQueryPlan) : Prop where
  result : query.resultSchema = query.body.resultSchema
  ctes : ∀ cte ∈ query.ctes, cte.resultSchema = cteSchema cte.columns cte.query.resultSchema
  body : ∀ body ∈ setExprs query.body, SetExprConsistent body

/-- The properties of the parts of a plan that `QueryConsistent` comes from. -/
def consistentMotive : BindMotive where
  expr _ _ := True
  query := QueryConsistent
  setExpr body := ∀ b ∈ setExprs body, SetExprConsistent b
  relation _ _ := True
  joins _ _ := True
  table _ _ := True

/-- Binding computes every schema as `QueryConsistent` says. -/
theorem consistentCases : UseCases consistentMotive fun _ _ => True where
  expr_iff _ _ := iff_of_true trivial fun _ _ => trivial
  column _ _ _ _ _ := trivial
  membership _ _ _ _ := trivial
  query _ hctes hbody _ hschema := ⟨hschema, fun c hc => (hctes c hc).2, hbody⟩
  unionAll l r nd hl hr hlength := by
    simp only [consistentMotive, setExprs]
    exact List.forall_mem_cons.mpr ⟨⟨hlength, rfl⟩, List.forall_mem_append.mpr ⟨hl, hr⟩⟩
  select s _ _ hitems hschema := by
    refine List.forall_mem_singleton.mpr ⟨hschema, fun details hdetails => ?_⟩
    cases hitems _ hdetails with
    | expr _ _ htype _ _ => exact htype
  table _ _ _ := trivial
  derived _ _ _ _ _ := trivial
  nestedJoin _ _ _ _ _ := trivial
  startJoins _ _ _ := trivial
  addJoin _ _ _ _ _ _ _ _ _ := trivial
  endJoins _ _ _ _ := trivial

/-! ## Selects -/

/-- Two lists are related part by part. -/
theorem forall₂_append_iff {α β : Type} {R : α → β → Prop} : ∀ {as as' : List α} {bs bs' : List β},
    as.length = bs.length →
      (List.Forall₂ R (as ++ as') (bs ++ bs') ↔ List.Forall₂ R as bs ∧ List.Forall₂ R as' bs')
  | [], _, [], _, _ => by simp
  | a :: as, as', b :: bs, bs', h => by
    have ih := @forall₂_append_iff α β R as as' bs bs' (by simpa using h)
    simp only [List.cons_append, List.forall₂_cons, ih, and_assoc]

section Selects

variable {every enabled : Bool} {scope : SelectScope}

/-- A type is kept as it is when it need not change. -/
theorem typeKept_self {type : DataType} : TypeKept every enabled type type ↔
    (every = true → enabled = true → type ≠ .uuid) := by
  unfold TypeKept
  cases every with
  | false => simp
  | true =>
    cases enabled with
    | false => simp
    | true =>
      by_cases h : type = .uuid
      · simp [h]
      · simp [h]

/-- A UUID is kept as a text. -/
theorem typeKept_utf8 : TypeKept every true .uuid .utf8 := by
  cases every <;> simp [TypeKept]

/-- A field is kept as it is when its type need not change. -/
theorem fieldKept_self {field : ResultField} : FieldKept every enabled field field ↔
    (every = true → enabled = true → field.dataType ≠ .uuid) :=
  ⟨fun h => typeKept_self.mp h.dataType, fun h => ⟨rfl, rfl, typeKept_self.mpr h⟩⟩

/-- The fields of an item and those that it is rewritten to. -/
def rewrittenFields (catalog : Catalog) (enabled : Bool) (scope : SelectScope)
    (item : BoundProjectionItem) : List ResultField :=
  (rewriteProjections catalog enabled scope [item]).1.flatMap projectionFields

/-- The fields of a rewritten projection, item by item. -/
theorem fields_rewriteProjections (catalog : Catalog) (items : List BoundProjectionItem) :
    (rewriteProjections catalog enabled scope items).1.flatMap projectionFields =
      items.flatMap (rewrittenFields catalog enabled scope) :=
  flatMap_rewriteProjections catalog enabled scope (fun _ => rfl) items

/-- What a projected expression is rewritten to: its field becomes a text when it is a UUID. -/
theorem rewrittenFields_expr (catalog : Catalog) (details : BoundProjectionExpr) :
    rewrittenFields catalog enabled scope (.expr details) =
      [if enabled && details.expr.dataType = .uuid && !isToStringCall details.expr then
        stringResultField details.field else details.field] := by
  obtain ⟨expr, alias_, field, node⟩ := details
  have hcall := isToStringCall_rewriteExpr catalog enabled (some scope) true expr
  cases enabled with
  | false =>
    simp [rewrittenFields, rewriteProjections, rewriteProjectionExpr, projectionFields,
      rewriteUuidArrowExpr]
  | true =>
    by_cases huuid : expr.dataType = .uuid
    · cases htoString : isToStringCall expr <;>
        simp [rewrittenFields, rewriteProjections, rewriteProjectionExpr, projectionFields,
          rewriteUuidArrowExpr, hcall, huuid, htoString]
    · simp [rewrittenFields, rewriteProjections, rewriteProjectionExpr, projectionFields,
        rewriteUuidArrowExpr, huuid]

/-- What a wildcard is rewritten to: the UUIDs become texts when it is expanded. -/
theorem rewrittenFields_wildcard (catalog : Catalog) (qualifier : Option String)
    (fields : List ResultField) (node : SyntaxNode) :
    rewrittenFields catalog enabled scope (.wildcard qualifier fields node) =
      fields.map fun field =>
        if enabled && field.dataType = .uuid && (scope.targetBindingName qualifier).isSome then
          stringResultField field else field := by
  unfold rewrittenFields rewriteProjections expandWildcardProjection
  cases scope.targetBindingName qualifier with
  | none => simp [rewriteProjections, projectionFields]
  | some name =>
    simp only [Option.pure_def, Option.bind_eq_bind, Option.bind_some, Option.getD_some,
      rewriteProjections, List.append_nil, List.flatMap_map, Option.isSome_some, Bool.and_true]
    rw [List.map_eq_flatMap]
    refine List.flatMap_congr fun field _ => ?_
    by_cases huuid : field.dataType = .uuid
    · cases enabled <;>
        simp [expandField, rewriteUuidArrowExpr, isToStringCall, projectionFields, huuid]
    · cases enabled <;>
        simp [expandField, rewriteUuidArrowExpr, projectionFields, huuid]

/-- The fields of an item are kept when the item leaves no UUID. -/
theorem forall₂_rewrittenFields_iff (catalog : Catalog) {item : BoundProjectionItem}
    (htype : ∀ details, item = .expr details → details.field.dataType = details.expr.dataType) :
    List.Forall₂ (FieldKept every enabled) (itemFields item)
        (rewrittenFields catalog enabled scope item) ↔
      (every = true → enabled = true → ItemStable scope item) := by
  -- Item by item: the fields of both sides are compared under the same name.
  cases item with
  | expr details =>
    have htype := htype details rfl
    rw [rewrittenFields_expr, itemFields, List.forall₂_cons, and_iff_left .nil]
    split
    · rename_i hwrapped
      simp only [Bool.and_eq_true, decide_eq_true_eq, Bool.not_eq_true'] at hwrapped
      obtain ⟨⟨rfl, huuid⟩, hcall⟩ := hwrapped
      -- `toString` was put around a UUID: the field keeps its name and becomes text.
      refine iff_of_true ⟨rfl, rfl, ?_⟩ fun _ _ => ?_
      · rw [htype, huuid]
        exact typeKept_utf8
      · simp [ItemStable, hcall]
    · rename_i hkept
      rw [fieldKept_self]
      refine imp_congr_right fun _ => imp_congr_right fun henabled => ?_
      simp only [henabled, Bool.true_and, Bool.and_eq_true, decide_eq_true_eq, Bool.not_eq_true',
        not_and, Bool.not_eq_false] at hkept
      rw [htype, ItemStable]
      exact ⟨fun hne h => hne h.1, fun hnot huuid => hnot ⟨huuid, hkept huuid⟩⟩
  | wildcard qualifier fields node =>
    rw [rewrittenFields_wildcard, itemFields, List.forall₂_map_right_iff, List.forall₂_same,
      ItemStable]
    -- A wildcard without a target is left as it is, and one with a target is expanded.
    cases htarget : scope.targetBindingName qualifier with
    | none =>
      simp only [Option.isSome_none, Bool.and_false, Bool.false_eq_true, if_false, fieldKept_self]
      exact ⟨fun h hevery henabled _ field hfield => h field hfield hevery henabled,
        fun h field hfield hevery henabled => h hevery henabled trivial field hfield⟩
    | some name =>
      refine iff_of_true (fun field _ => ?_) fun _ _ h => by cases h
      simp only [Option.isSome_some, Bool.and_true, Bool.and_eq_true, decide_eq_true_eq]
      split
      · rename_i hwrapped
        obtain ⟨rfl, huuid⟩ := hwrapped
        refine ⟨rfl, rfl, ?_⟩
        rw [huuid]
        exact typeKept_utf8
      · rename_i hkept
        exact fieldKept_self.mpr fun _ henabled huuid => hkept ⟨henabled, huuid⟩
  | unsupported description node =>
    simp [itemFields, rewrittenFields, rewriteProjections, projectionFields, ItemStable]

end Selects

/-! ## Queries -/

section Queries

variable (catalog : Catalog) {every enabled : Bool}

/-- What a query body keeps of its schema. -/
abbrev BodyKept (every enabled : Bool) (body : BoundSetExpr) : Prop :=
  SchemaKept every enabled body.resultSchema (rewriteSetExpr catalog enabled body).1.resultSchema

/-- A select is kept when its items are stable. -/
theorem selectKept_iff {select : BoundSelect} (h : SetExprConsistent (.select select)) :
    BodyKept catalog every enabled (.select select) ↔
      SetExprStable catalog every enabled (.select select) := by
  obtain ⟨distinct, projection, from_, selection, groupBy, having, schema, node⟩ := select
  obtain ⟨hschema, htypes⟩ := h
  dsimp only at hschema htypes
  subst hschema
  simp only [BodyKept, SchemaKept, BoundSetExpr.resultSchema, ResultSchema.new, rewriteSetExpr,
    rewriteSelect, scopeFromFromClause_rewriteTables, fields_rewriteProjections, SetExprStable]
  generalize scopeFromFromClause catalog from_ = scope
  -- The items are rewritten one by one in the scope of the whole select.
  induction projection with
  | nil => simp
  | cons item items ih =>
    have hitem := @forall₂_rewrittenFields_iff every enabled scope catalog item
      fun details hdetails => htypes details (hdetails ▸ List.mem_cons_self)
    -- An item gives as many fields after the rewrite as before it.
    have hlength : (itemFields item).length =
        (rewrittenFields catalog enabled scope item).length := by
      cases item with
      | expr details => rw [rewrittenFields_expr]; rfl
      | wildcard qualifier fields node => simp [rewrittenFields_wildcard, itemFields]
      | unsupported description node =>
        simp [itemFields, rewrittenFields, rewriteProjections, projectionFields]
    rw [List.flatMap_cons, List.flatMap_cons, forall₂_append_iff hlength, hitem,
      ih fun details hdetails => htypes details (List.mem_cons_of_mem _ hdetails)]
    simp only [List.forall_mem_cons]
    grind

/-- A kept type is the same, or the text of a UUID. -/
theorem TypeKept.cases {type type' : DataType} (h : TypeKept every enabled type type') :
    type' = type ∨ type = .uuid ∧ type' = .utf8 := by
  unfold TypeKept at h
  split at h
  · split at h
    · rename_i huuid
      exact .inr ⟨by simpa using (Bool.and_eq_true_iff.mp huuid).2, h⟩
    · exact .inl h
  · exact h

/-- A UUID has no common type with another one, and neither has a text. -/
theorem commonOrUnknown_eq {type other : DataType} (h : type = .uuid ∨ type = .utf8) :
    DataType.commonOrUnknown type other = type ∨
      DataType.commonOrUnknown type other = .unknown := by
  unfold DataType.commonOrUnknown
  rw [DataType.commonType.eq_def]
  dsimp only
  by_cases heq : type = other
  · simp [heq]
  · rw [if_neg heq]
    obtain rfl | rfl := h <;> cases other <;> simp

/-- A merged type is kept, where that of the left branch is, when the two are the same. -/
theorem typeKept_commonOrUnknown_iff {type type' other : DataType}
    (h : TypeKept every enabled type type') :
    TypeKept every enabled (DataType.commonOrUnknown type other) type' ↔
      DataType.commonOrUnknown type other = type := by
  constructor
  · intro hmerged
    obtain rfl | ⟨rfl, rfl⟩ := h.cases
    · obtain heq | ⟨huuid, rfl⟩ := hmerged.cases
      · exact heq.symm
      · obtain heq | hunknown := @commonOrUnknown_eq .utf8 other (.inr rfl)
        · exact heq
        · rw [huuid] at hunknown
          cases hunknown
    · obtain heq | ⟨huuid, -⟩ := hmerged.cases
      · obtain hsame | hunknown := @commonOrUnknown_eq .uuid other (.inl rfl)
        · exact hsame
        · rw [← heq] at hunknown
          cases hunknown
      · exact huuid
  · intro heq
    rw [heq]
    exact h

/-- A `UNION ALL` keeps its schema, where its left branch does, when the branches agree. -/
theorem unionKept_iff {left right : ResultSchema} {left' : ResultSchema}
    (hlength : left.fields.length = right.fields.length)
    (hleft : SchemaKept every enabled left left') :
    SchemaKept every enabled (unionSchema left right) left' ↔ BranchesAgree left right := by
  obtain ⟨fields, _⟩ := left
  obtain ⟨fields', _⟩ := right
  obtain ⟨rewrittenFields, _⟩ := left'
  simp only [SchemaKept, unionSchema, ResultSchema.new, BranchesAgree] at hlength hleft ⊢
  -- The branches are merged column by column, and so are kept column by column.
  induction hleft generalizing fields' with
  | nil => simp
  | @cons field rewrittenField fields rewrittenFields hfield hrest ih =>
    cases fields' with
    | nil => simp at hlength
    | cons other fields' =>
      have ih := ih fields' (by simpa using hlength)
      simp only [List.zip_cons_cons, List.map_cons, List.forall₂_cons, ih, List.forall_mem_cons]
      -- The name is kept anyway: what is left is the type and the nullability.
      refine and_congr_left fun _ => ⟨fun hmerged => ?_, fun ⟨htype, hnullable⟩ => ?_⟩
      · refine ⟨(typeKept_commonOrUnknown_iff hfield.dataType).mp hmerged.dataType,
          fun hother => ?_⟩
        have hnullable := hmerged.nullable
        rw [hfield.nullable] at hnullable
        simpa [hother] using hnullable
      · refine ⟨hfield.name, ?_, (typeKept_commonOrUnknown_iff hfield.dataType).mpr htype⟩
        rw [hfield.nullable]
        cases hother : other.nullable with
        | false => simp
        | true => simp [hnullable hother]

/-- The parts of a rewritten body are the rewritten parts. -/
theorem setExprs_rewriteSetExpr : ∀ body : BoundSetExpr,
    setExprs (rewriteSetExpr catalog enabled body).1 =
      (setExprs body).map fun body => (rewriteSetExpr catalog enabled body).1
  | .unionAll left right _ _ => by
    simp [rewriteSetExpr, setExprs, setExprs_rewriteSetExpr left, setExprs_rewriteSetExpr right]
  | .select _ => by simp [rewriteSetExpr, setExprs]
  | .unsupported .. => by simp [rewriteSetExpr, setExprs]

/-- A body is one of its parts. -/
theorem mem_setExprs_self (body : BoundSetExpr) : body ∈ setExprs body := by
  cases body <;> simp [setExprs]

/-- The selects and set operations of a body keep their schemas when each is stable. -/
theorem bodyKept_iff : ∀ body : BoundSetExpr, (∀ b ∈ setExprs body, SetExprConsistent b) →
    ((∀ b ∈ setExprs body, BodyKept catalog every enabled b) ↔
      ∀ b ∈ setExprs body, SetExprStable catalog every enabled b)
  | .select select, h => by
    simpa [setExprs] using selectKept_iff catalog (h _ (mem_setExprs_self _))
  | .unionAll left right node schema, h => by
    simp only [setExprs, List.forall_mem_cons, List.forall_mem_append] at h ⊢
    obtain ⟨⟨hlength, hschema⟩, hleft, hright⟩ := h
    rw [← bodyKept_iff left hleft, ← bodyKept_iff right hright]
    refine and_congr_left fun ⟨hkept, _⟩ => ?_
    have hunion := unionKept_iff hlength (hkept left (mem_setExprs_self left))
    rw [← hschema] at hunion
    simp only [BodyKept, rewriteSetExpr]
    exact hunion
  | .unsupported description node schema, h => absurd (h _ (mem_setExprs_self _)) id

/-- A CTE keeps its schema, where its query does, when its column list renames nothing. -/
theorem cteKept_iff {columns : List String} {schema schema' : ResultSchema}
    (hkept : SchemaKept every enabled schema schema') :
    SchemaKept every enabled (cteSchema columns schema) schema' ↔
      (columns.length = schema.fields.length → columns = schema.fields.map ResultField.name) := by
  unfold cteSchema
  -- The columns of a CTE rename its fields just when there are as many of them.
  split
  · rename_i hrenames
    simp only [Bool.and_eq_true, beq_iff_eq] at hrenames
    obtain ⟨-, hlength⟩ := hrenames
    rw [imp_iff_right hlength]
    obtain ⟨fields, _⟩ := schema
    obtain ⟨fields', _⟩ := schema'
    simp only [SchemaKept] at hkept hlength ⊢
    -- Field by field, along the two schemas.
    induction hkept generalizing columns with
    | nil => simpa using hlength
    | @cons field field' fields fields' hfield _ ih =>
      cases columns with
      | nil => simp at hlength
      | cons column columns =>
        have ih := ih (by simpa using hlength)
        simp only [List.zip_cons_cons, List.map_cons, List.forall₂_cons, ih, List.cons.injEq]
        refine and_congr_left fun _ => ⟨fun h => ?_, fun h => ?_⟩
        · exact h.name.symm.trans hfield.name
        · exact ⟨hfield.name.trans h.symm, hfield.nullable, hfield.dataType⟩
  · rename_i hnone
    refine iff_of_true hkept fun hlength => ?_
    simp only [hlength, beq_self_eq_true, Bool.and_true, Bool.not_eq_true', List.isEmpty_iff,
      Bool.not_eq_false] at hnone
    rw [hnone] at hlength ⊢
    exact (List.map_eq_nil_iff.mpr (List.length_eq_zero_iff.mp hlength.symm)).symm

/-- The schema of a rewritten query is that of its rewritten body. -/
theorem resultSchema_rewritten (query : BoundQueryPlan) :
    (rewritten catalog enabled query).resultSchema =
      (rewriteSetExpr catalog enabled query.body).1.resultSchema := by
  cases query
  simp [rewritten, rewriteQueryPlan]

/-- What a query keeps, in terms of the query itself. -/
theorem queryKept_iff {query : BoundQueryPlan} (h : QueryConsistent query) :
    QueryKept every enabled query (rewritten catalog enabled query) ↔
      (∀ cte ∈ query.ctes, SchemaKept every enabled cte.resultSchema
        (rewritten catalog enabled cte.query).resultSchema) ∧
      ∀ body ∈ setExprs query.body, BodyKept catalog every enabled body := by
  -- The CTEs and the body are rewritten by themselves.
  have hctes : (rewritten catalog enabled query).ctes =
      (rewriteCtes catalog enabled query.ctes).1 := by
    cases query
    simp [rewritten, rewriteQueryPlan]
  have hbody : (rewritten catalog enabled query).body =
      (rewriteSetExpr catalog enabled query.body).1 := by
    cases query
    simp [rewritten, rewriteQueryPlan]
  constructor
  · rintro ⟨-, hc, hb⟩
    rw [hctes, ctes_rewriteCtes, List.forall₂_map_right_iff, List.forall₂_same] at hc
    rw [hbody, setExprs_rewriteSetExpr, List.forall₂_map_right_iff, List.forall₂_same] at hb
    exact ⟨hc, hb⟩
  · rintro ⟨hc, hb⟩
    refine ⟨?_, ?_, ?_⟩
    -- The result is that of the body.
    · rw [resultSchema_rewritten, h.result]
      exact hb _ (mem_setExprs_self _)
    · rw [hctes, ctes_rewriteCtes, List.forall₂_map_right_iff, List.forall₂_same]
      exact hc
    · rw [hbody, setExprs_rewriteSetExpr, List.forall₂_map_right_iff, List.forall₂_same]
      exact hb

/-- The queries within a plan keep their schemas when each is stable. -/
theorem allWithin_queryKept_iff {plan : BoundQueryPlan} (h : AllWithin QueryConsistent plan) :
    AllWithin (fun query => QueryKept every enabled query (rewritten catalog enabled query)) plan ↔
      AllWithin (QueryStable catalog every enabled) plan := by
  -- A CTE is compared with its query, which is within the plan as well.
  have hcte : ∀ query, Within plan query → ∀ cte ∈ query.ctes, Within plan cte.query := by
    intro query hquery cte hmem
    refine hquery.tail ?_
    simp only [directQueries, List.append_assoc]
    exact List.mem_append_left _ (List.mem_map_of_mem hmem)
  constructor
  · intro hkept query hquery
    obtain ⟨hc, hb⟩ := (queryKept_iff catalog (h query hquery)).mp (hkept query hquery)
    refine ⟨fun cte hmem => ?_, (bodyKept_iff catalog _ (h query hquery).body).mp hb⟩
    have hc := hc cte hmem
    rw [(h query hquery).ctes cte hmem] at hc
    exact (cteKept_iff (hkept _ (hcte query hquery cte hmem)).result).mp hc
  · intro hstable
    have hbodies : ∀ query, Within plan query →
        ∀ body ∈ setExprs query.body, BodyKept catalog every enabled body := fun query hquery =>
      (bodyKept_iff catalog _ (h query hquery).body).mpr (hstable query hquery).body
    intro query hquery
    refine (queryKept_iff catalog (h query hquery)).mpr ⟨fun cte hmem => ?_, hbodies query hquery⟩
    have hwithin := hcte query hquery cte hmem
    have hresult : SchemaKept every enabled cte.query.resultSchema
        (rewritten catalog enabled cte.query).resultSchema := by
      rw [resultSchema_rewritten, (h cte.query hwithin).result]
      exact hbodies _ hwithin _ (mem_setExprs_self _)
    rw [(h query hquery).ctes cte hmem]
    exact (cteKept_iff hresult).mpr ((hstable query hquery).ctes cte hmem)

end Queries

/-- Rewriting keeps the result schemas of an accepted query and of everything within it, exactly
when no column list of a CTE renames a column, the branches of every `UNION ALL` agree, and, where
every UUID has to become a text, none is left in a wildcard that is not expanded or in a call of
`toString`. -/
theorem rewrite_keeps_schemas_iff (context : BinderContext) (query : SyntaxQuery)
    (catalog : Catalog) (every enabled : Bool) (h : Accepted context query) :
    AllWithin (fun query => QueryKept every enabled query (rewritten catalog enabled query))
        (boundPlan context query) ↔
      AllWithin (QueryStable catalog every enabled) (boundPlan context query) :=
  allWithin_queryKept_iff catalog (consistentCases.bindCases.allWithin context h)

/-- A binder over the relations `events (id)` and `devices (id)`, of which the second has UUIDs. -/
def devicesAndEvents : BinderContext where
  catalog := ((MemoryCatalog.registerRelation {} (idRelation "events")).registerRelation
    { namespace_ := none, name := "devices", aliases := [], kind := .table
      columns := [{ name := "id", dataType := .uuid, nullable := false }] }).toCatalog
  parameters := {}
  toLowercase c := [c.toLower]

/-- `WITH ids AS (SELECT id FROM devices) SELECT ids.id, e.id AS event FROM ids,
(SELECT id FROM events) AS e WHERE e.id IN (SELECT id FROM events) UNION ALL
SELECT devices.*, events.id FROM devices, events`. -/
def devicesUnion : SyntaxQuery :=
  let node : SyntaxNode := { span := none, nodeId := "q" }
  let column (relation name : String) : SyntaxExpr := ⟨.column (some relation) name, node⟩
  let idOfEvents : SyntaxQuery := selectId [] (plainTable "events")
  { selectId [⟨"ids", [], selectId [] (plainTable "devices"), node⟩] (plainTable "ids") with
    body := .unionAll
      (.select
        { distinct := false
          projection := [.expr ⟨column "ids" "id", none, node⟩,
            .expr ⟨column "e" "id", some "event", node⟩]
          from_ := [⟨plainTable "ids", [], node⟩, ⟨.derived idOfEvents (some "e") node, [], node⟩]
          selection := some ⟨.inSubquery (column "e" "id") idOfEvents false, node⟩
          groupBy := [], having := none, node })
      (.select
        { distinct := false
          projection := [.wildcard (some "devices") node, .expr ⟨column "events" "id", none, node⟩]
          from_ := [⟨plainTable "devices", [], node⟩, ⟨plainTable "events", [], node⟩]
          selection := none, groupBy := [], having := none, node }) node }

/-- The UUIDs become texts in the schemas of the query, of its CTE and of both branches, and nothing
else changes in them. -/
theorem devicesUnion_keeps_schemas :
    AllWithin (fun query => QueryKept true true query
        (rewritten devicesAndEvents.catalog true query)) (boundPlan devicesAndEvents devicesUnion) ∧
      (boundPlan devicesAndEvents devicesUnion).resultSchema.fields.map ResultField.dataType =
        [.uuid, .int64] ∧
      (rewritten devicesAndEvents.catalog true
        (boundPlan devicesAndEvents devicesUnion)).resultSchema.fields.map ResultField.dataType =
          [.utf8, .int64] := by
  refine ⟨(rewrite_keeps_schemas_iff devicesAndEvents devicesUnion
    devicesAndEvents.catalog true true
    (by decide)).mpr (@allWithin_of_plansWithin _ 1 _ ?_ ?_), by decide, by decide⟩
  · decide
  · decide

/-- `WITH c (x) AS (SELECT id FROM events) SELECT id FROM events`. -/
def renamedCte : SyntaxQuery :=
  selectId [{ name := "c", columns := ["x"], query := selectId [] (plainTable "events")
              node := { span := none, nodeId := "c" } }] (plainTable "events")

/-- The rewritten CTE has the column `id` of its query and no column `x`. -/
theorem renamedCte_loses_column : Accepted usersAndEvents renamedCte ∧
    ¬ AllWithin
      (fun query => QueryKept false true query (rewritten usersAndEvents.catalog true query))
      (boundPlan usersAndEvents renamedCte) := by
  refine ⟨by decide, fun h => ?_⟩
  have hctes := (h _ .refl).ctes
  obtain ⟨hcte, -⟩ := List.forall₂_cons.mp hctes
  obtain ⟨hfield, -⟩ := List.forall₂_cons.mp hcte
  exact absurd hfield.name (by decide)

end QueryFabric.ClickHouse
