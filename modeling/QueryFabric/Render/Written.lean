import QueryFabric.Lib.Outcome
import QueryFabric.Render.Parameters
import QueryFabric.Render.Tokens

/-!
# What is written for a plan

`Written` relates the nodes of a plan to the pieces that are written for them, one after the other:
fixed pieces, names of types, the nodes' own texts, and for each parameter a placeholder of its
position among the parameters of the artifact. `writes_query` says that rendering writes just that,
and that it does not fail for an unknown parameter.
-/

set_option linter.unusedSectionVars false

namespace QueryFabric.Render

open Lib

/-- The pieces that a statement is put together with. -/
def fixedPieces : List String := "." :: "EXPLAIN " :: (gluePieces ++ wordPieces)

/-- The placeholder of the parameter at a position, which ClickHouse wants the type of. -/
def placeholder (backend : SqlBackend) (position : Nat) (typeName : String) : String :=
  match backend with
  | .postgres => "$" ++ toString position
  | .clickHouse => "\x7bp" ++ toString position ++ ":" ++ typeName ++ "\x7d"

/-- Whether nothing is written for an expression itself: its parts are nodes of their own. -/
def isCompound : BoundExpr → Bool
  | ⟨.literal _, _, _, _⟩ => false
  | ⟨.parameter _, _, _, _⟩ => false
  | _ => true

/-- Pieces that are written for some nodes. -/
inductive Written (r : SqlRenderer) : List PlanNode → Pieces → Prop
  | nil : Written r [] []
  | piece {p : String} (hp : p ∈ fixedPieces) : Written r [] [p]
  | typeName {type : DataType} {name : String} (hname : backendTypeName r.backend type = .ok name) :
      Written r [] [name]
  | identifier {value text : String} (htext : renderIdentifier r.backend value = .ok text) :
      Written r [.identifier value] [text]
  | qualifiedName {value : String} {ps : Pieces}
    (hps : renderQualifiedName r.backend value = .ok ps) :
      Written r [.qualifiedName value] ps
  | function {function mapped : FunctionRef} {ps : Pieces}
    (hmapped : r.mappedFunction function = .ok mapped)
      (hps : renderFunctionRef r.backend mapped = .ok ps) : Written r [.function function] ps
  | clause (clause : BackendClause) : Written r [.clause clause] (r.renderBackendClause clause)
  | literal (value : LiteralValue) (type : DataType) (nullable : Bool) (node : SyntaxNode) :
      Written r [.expr ⟨.literal value, type, nullable, node⟩] [renderLiteral value]
  /-- A parameter: the placeholder of its position, counted from one. -/
  | parameter {i : Nat} {schema : ParameterSchema} (hschema : r.parameterOrder[i]? = some schema)
    (typeName : String)
      (htype : r.backend = .clickHouse → backendTypeName r.backend schema.dataType = .ok typeName)
      (type : DataType) (nullable : Bool) (node : SyntaxNode) :
      Written r [.expr ⟨.parameter schema.reference, type, nullable, node⟩]
        [placeholder r.backend (i + 1) typeName]
  | compound (e : BoundExpr) (he : isCompound e = true) : Written r [.expr e] []
  | append {ns ms : List PlanNode} {ps qs : Pieces} (hns : Written r ns ps)
    (hms : Written r ms qs) :
      Written r (ns ++ ms) (ps ++ qs)

namespace Written

variable {r : SqlRenderer} {ns ms : List PlanNode} {ps qs : Pieces} {p : String}

/-- A fixed piece in front writes no further node. -/
theorem fixed_append (hp : p ∈ fixedPieces) (h : Written r ns ps) : Written r ns ([p] ++ ps) :=
  .append (.piece hp) h

/-- A fixed piece at the end writes no further node. -/
theorem append_fixed (h : Written r ns ps) (hp : p ∈ fixedPieces) : Written r ns (ps ++ [p]) := by
  have := h.append (.piece hp)
  rwa [List.append_nil] at this

/-- A compound expression is written by its parts. -/
theorem cons {e : BoundExpr} (h : Written r ns ps) (he : isCompound e = true) :
    Written r (.expr e :: ns) ps :=
  .append (.compound e he) h

/-- Two parts with a fixed piece between them. -/
theorem between (h : Written r ns ps) (hp : p ∈ fixedPieces) (h' : Written r ms qs) :
    Written r (ns ++ ms) (ps ++ ([p] ++ qs)) :=
  h.append (fixed_append hp h')

/-- A part between two fixed pieces. -/
theorem enclosed {o c : String} (ho : o ∈ fixedPieces) (h : Written r ns ps)
    (hc : c ∈ fixedPieces) :
    Written r ns ([o] ++ (ps ++ [c])) :=
  fixed_append ho (h.append_fixed hc)

/-- The `NOT` of a negated form is a fixed piece. -/
theorem negation (negated : Bool) (h : Written r ns ps) :
    Written r ns (negation negated ++ ps) := by
  cases negated
  · exact h
  · exact fixed_append (by decide) h

/-- One part more, with a separator when it is not the last. -/
theorem join_cons {l : List Pieces} (hp : p ∈ fixedPieces) (h : Written r ns ps)
    (h' : Written r ms (Pieces.join p l)) : Written r (ns ++ ms) (Pieces.join p (ps :: l)) := by
  cases l with
  | nil => exact h.append h'
  | cons q parts => exact h.between hp h'

/-- A clause writes its keyword and then its parts. -/
theorem clauses {k : String} {parts : List Pieces} (hk : k ∈ fixedPieces)
    (h : Written r ns (Pieces.join ", " parts)) : Written r ns (Render.clause k parts) := by
  cases parts with
  | nil => exact h
  | cons q parts => exact fixed_append hk h

end Written

/-! ## Errors -/

/-- The error of a parameter that has no schema. -/
def UnknownParameter (e : QueryFabricError) : Prop :=
  ∃ reference : ParameterRef, e =
    unsupported "render" ("unknown parameter `" ++ reference.display ++ "`")

/-- Two texts are different when they start differently. -/
theorem append_ne {p q : String} (n : Nat) (hn : p.toList[n]? ≠ q.toList[n]?)
    (hp : n < p.toList.length) (hq : n < q.toList.length) (a b : String) : p ++ a ≠ q ++ b := by
  intro h
  have hlist := congrArg (fun s => s.toList[n]?) h
  simp only [String.toList_append, List.getElem?_append_left hp, List.getElem?_append_left hq]
    at hlist
  exact hn hlist

/-- A feature that is not supported is no unknown parameter. -/
theorem not_unknownParameter_feature {feature detail : String} (h : feature ≠ "render") :
    ¬ UnknownParameter (unsupported feature detail) := by
  rintro ⟨reference, heq⟩
  simp only [unsupported, QueryFabricError.unsupportedFeature.injEq] at heq
  exact h heq.1

/-- A text of another form is no unknown parameter. -/
theorem not_unknownParameter_detail {detail : String}
    (h : ∀ rest, detail ≠ "unknown parameter `" ++ rest) :
    ¬ UnknownParameter (unsupported "render" detail) := by
  rintro ⟨reference, heq⟩
  simp only [unsupported, QueryFabricError.unsupportedFeature.injEq, String.append_assoc] at heq
  exact h _ heq.2

/-- Rendering does not fail for an unknown parameter. -/
abbrev Renderable {α : Type} (x : Except QueryFabricError α) (Q : α → Prop) : Prop :=
  Outcome (fun e => ¬ UnknownParameter e) x Q

/-- What rendering returns is what is written for some nodes. -/
abbrev Writes (r : SqlRenderer) (x : Except QueryFabricError Pieces)
    (nodes : List PlanNode) : Prop :=
  Renderable x (Written r nodes)

section Leaves

variable {r : SqlRenderer}

/-- A construct that is not supported is refused, but for no unknown parameter. -/
theorem renderable_unsupported {α : Type} {Q : α → Prop} {construct : String}
    (h : construct.toList[0]? = some 'c')
    (hlength : 0 < construct.toList.length) (description : String) :
    Renderable (.error (unsupported "render" (construct ++ description)) :
      Except QueryFabricError α) Q :=
  .throw (not_unknownParameter_detail fun rest =>
    append_ne 0 (by rw [h]; decide) hlength (by decide) _ _)

/-- An identifier is not refused for an unknown parameter. -/
theorem renderable_identifier (backend : SqlBackend) (value : String) :
    Renderable (renderIdentifier backend value) fun text =>
      renderIdentifier backend value = .ok text := by
  refine .of_error fun e he => ?_
  unfold renderIdentifier at he
  split at he
  · cases he
    exact not_unknownParameter_feature (by decide)
  · split at he <;> cases he

/-- A qualified name is not refused for an unknown parameter. -/
theorem renderable_qualifiedName (backend : SqlBackend) (value : String) :
    Renderable (renderQualifiedName backend value) fun ps => renderQualifiedName backend value =
      .ok ps := by
  refine .of_error (Outcome.error (Q := fun _ => True) ?_)
  unfold renderQualifiedName
  dsimp only
  split
  · exact .throw (not_unknownParameter_feature (by decide))
  · exact (Outcome.mapM fun segment _ => (renderable_identifier backend segment).mono fun _ _ =>
      trivial).bind fun _ _ => .pure trivial

/-- A type name is not refused for an unknown parameter. -/
theorem renderable_typeName (backend : SqlBackend) : ∀ type : DataType,
    Renderable (backendTypeName backend type) fun name => backendTypeName backend type = .ok name
  | .list inner => by
    refine .of_error (Outcome.error (Q := fun _ => True) ?_)
    have ih := renderable_typeName backend inner
    cases backend <;> exact ih.bind fun _ _ => .pure trivial
  | .timestamp (some timezone) => by
    refine .of_error fun e he => ?_
    cases backend
    · rw [backendTypeName] at he
      split at he
      · cases he
        exact not_unknownParameter_feature (by decide)
      · cases he
    · cases he
  | .struct _ => .of_error fun e he => by
    cases backend <;> cases he <;> exact not_unknownParameter_feature (by decide)
  | .unknown => .of_error fun e he => by
    cases backend <;> cases he <;> exact not_unknownParameter_feature (by decide)
  | .boolean | .int32 | .int64 | .float64 | .utf8 | .uuid | .json | .date | .decimal _ _
  | .timestamp none =>
    .of_error fun e he => by cases backend <;> cases he

/-- A function's name is not refused for an unknown parameter. -/
theorem renderable_functionRef (backend : SqlBackend) (function : FunctionRef) :
    Renderable (renderFunctionRef backend function) fun ps => renderFunctionRef backend function =
      .ok ps := by
  refine .of_error (Outcome.error (Q := fun _ => True) ?_)
  have hnamespace : Renderable (renderNamespace backend function.namespace_) fun _ => True := by
    cases function.namespace_ with
    | none => exact .pure trivial
    | some value => exact (renderable_identifier backend value).bind fun _ _ => .pure trivial
  unfold renderFunctionRef
  split
  · exact Outcome.bind (.pure trivial : Renderable _ fun _ => True) fun _ _ =>
      hnamespace.bind fun _ _ => .pure trivial
  · exact (renderable_identifier backend _).bind fun _ _ => hnamespace.bind fun _ _ => .pure trivial

/-- Mapping a function is not refused for an unknown parameter. -/
theorem renderable_mappedFunction (r : SqlRenderer) (function : FunctionRef) :
    Renderable (r.mappedFunction function) fun mapped =>
      r.mappedFunction function = .ok mapped := by
  -- The message of an unknown function differs at its ninth character.
  have hunknown (rest : String) :
      ¬ UnknownParameter (unsupported "render" ("unknown function `" ++ rest ++ "`")) :=
    not_unknownParameter_detail fun _ => by
      rw [String.append_assoc]
      exact append_ne 8 (by decide) (by decide) (by decide) _ _
  -- That of an unmapped one differs at the first.
  have hunmapped (rest : String) :
      ¬ UnknownParameter
        (unsupported "render" ("function `" ++ rest ++ "` has no backend mapping")) :=
    not_unknownParameter_detail fun _ => by
      rw [String.append_assoc]
      exact append_ne 0 (by decide) (by decide) (by decide) _ _
  refine .of_error fun e he => ?_
  unfold SqlRenderer.mappedFunction at he
  split at he
  · cases he
    exact hunknown _
  · split at he
    · cases he
      exact hunmapped _
    · cases he

/-- A parameter that has a schema is written as the placeholder of its position. -/
theorem writes_parameter (hnodup : (r.parameterOrder.map ParameterSchema.reference).Nodup)
    {reference : ParameterRef}
    (hmem : reference ∈ r.parameterOrder.map ParameterSchema.reference) (type : DataType)
    (nullable : Bool) (node : SyntaxNode) :
    Writes r (r.renderParameter reference)
      [.expr ⟨.parameter reference, type, nullable, node⟩] := by
  obtain ⟨schema, hschema, rfl⟩ := List.mem_map.mp hmem
  obtain ⟨i, hi⟩ := List.mem_iff_getElem?.mp hschema
  -- The references are distinct, so the schema that is found is this one.
  have hfind : r.parameterSchema schema.reference = .ok schema := by
    unfold SqlRenderer.parameterSchema
    cases hfound : r.parameterOrder.find? fun other => other.reference == schema.reference with
    | none =>
      have hne := List.find?_eq_none.mp hfound schema hschema
      simp at hne
    | some found =>
      have hreference : found.reference = schema.reference := by simpa using List.find?_some hfound
      rw [List.inj_on_of_nodup_map hnodup (List.mem_of_find?_eq_some hfound) hschema hreference]
  -- Its position is its place in the order, counted from one.
  have hposition : r.parameterPositions.lookup schema.reference = some (i + 1) := by
    have hsorted : KeysSorted parameterLt r.parameterPositions :=
      keysSorted_foldl_mapInsert isKeyOrder_parameterLt _ _ _ List.Pairwise.nil
    have hkeys : (r.parameterOrder.zipIdx.map fun p => p.1.reference) =
        r.parameterOrder.map ParameterSchema.reference := by
      rw [← List.zipIdx_map_fst 0 r.parameterOrder, List.map_map, List.zipIdx_map_fst]
      rfl
    refine (lookup_eq_some_iff isKeyOrder_parameterLt _ _ hsorted).mpr ?_
    refine (mem_foldl_mapInsert_iff isKeyOrder_parameterLt _ _ List.Pairwise.nil ?_).mpr
      (.inr ⟨(schema, i), List.mem_zipIdx_iff_getElem?.mpr hi, rfl⟩)
    rw [hkeys]
    exact hnodup
  unfold SqlRenderer.renderParameter
  rw [hfind]
  refine Outcome.bind (.pure rfl : Renderable (pure schema) (· = schema)) fun found hfound => ?_
  subst hfound
  rw [hposition]
  cases hbackend : r.backend with
  | postgres =>
    have hwritten :=
      Written.parameter hi "" (fun h => by rw [hbackend] at h; cases h) type nullable node
    rw [hbackend] at hwritten
    exact .pure hwritten
  | clickHouse =>
    refine (renderable_typeName .clickHouse found.dataType).bind fun name hname => ?_
    have hwritten :=
      Written.parameter hi name (fun _ => by rw [hbackend]; exact hname) type nullable node
    rw [hbackend] at hwritten
    exact .pure hwritten

/-- An identifier writes its node. -/
theorem writes_identifier (value : String) :
    Renderable (renderIdentifier r.backend value) fun text =>
      Written r [.identifier value] [text] :=
  (renderable_identifier r.backend value).mono fun _ htext => .identifier htext

/-- A list of identifiers writes their nodes. -/
theorem writes_identifiers : ∀ values : List String,
    Renderable (values.mapM (renderIdentifier r.backend)) fun texts =>
      Written r (values.map .identifier) (Pieces.join ", " (texts.map fun text => [text]))
  | [] => .pure .nil
  | value :: values => by
    rw [List.mapM_cons]
    refine (writes_identifier value).bind fun text htext => ?_
    refine (writes_identifiers values).bind fun texts htexts => .pure ?_
    exact .join_cons (by decide) htext htexts

/-- The columns of a CTE write their nodes. -/
theorem writes_cteColumns (columns : List String) :
    Writes r (renderCteColumns r columns) (columns.map .identifier) := by
  unfold renderCteColumns
  split
  · rename_i hempty
    rw [List.isEmpty_iff.mp hempty]
    exact .pure .nil
  · refine (writes_identifiers columns).bind fun texts htexts => .pure ?_
    rw [List.append_assoc, intersperse_eq_join]
    exact .enclosed (by decide) htexts (by decide)

/-- An alias writes its node. -/
theorem writes_alias (alias_ : Option String) :
    Writes r (renderAlias r alias_) (alias_.toList.map .identifier) := by
  cases alias_ with
  | none => exact .pure .nil
  | some value =>
    exact (writes_identifier value).bind fun text htext => .pure (.fixed_append (by decide) htext)

/-- A qualified name writes its node. -/
theorem writes_qualifiedName (value : String) :
    Writes r (renderQualifiedName r.backend value) [.qualifiedName value] :=
  (renderable_qualifiedName r.backend value).mono fun _ hps => .qualifiedName hps

/-- A wildcard writes the node of its qualifier. -/
theorem writes_wildcard (qualifier : Option String) :
    Writes r (renderWildcard r qualifier) (qualifier.toList.map .qualifiedName) := by
  cases qualifier with
  | none => exact .pure (.piece (by decide))
  | some value =>
    refine (writes_qualifiedName value).bind fun name hname => .pure ?_
    have hstar : Written r [] ["*"] := .piece (by decide)
    exact hname.between (by decide) hstar

/-- A column writes the nodes of its relation and its name. -/
theorem writes_column (column : BoundColumnRef) :
    Writes r (renderColumn r column)
      (column.relation.toList.map .qualifiedName ++ [.identifier column.name]) := by
  unfold renderColumn
  cases column.relation with
  | none => exact (writes_identifier column.name).bind fun name hname => .pure hname
  | some relation =>
    refine (writes_qualifiedName relation).bind fun qualifier hqualifier => ?_
    exact (writes_identifier column.name).bind fun name hname =>
      .pure (hqualifier.between (by decide) hname)

/-- A name reference writes the nodes of its namespace and its name. -/
theorem writes_nameRef (name : NameRef) :
    Writes r (renderNameRef r.backend name)
      (name.namespace_.toList.map .identifier ++ [.identifier name.name]) := by
  unfold renderNameRef
  refine (writes_identifier name.name).bind fun text htext => ?_
  cases name.namespace_ with
  | none =>
    exact Outcome.bind (.pure .nil : Writes r (pure []) []) fun ps hps =>
      .pure (hps.append htext)
  | some namespace_ =>
    have hnamespace : Writes r (renderNamespace r.backend (some namespace_))
        [.identifier namespace_] :=
      (writes_identifier namespace_).bind fun ns hns => .pure (hns.append_fixed (by decide))
    exact hnamespace.bind fun ps hps => .pure (hps.append htext)

/-- A table writes its nodes. -/
theorem writes_table (binding : BoundRelationBinding) :
    Writes r (r.renderTable binding) (tableNodes binding) := by
  unfold SqlRenderer.renderTable tableNodes
  cases binding.relationName with
  | none => exact (writes_identifier binding.bindingName).bind fun text htext => .pure htext
  | some name =>
    have hname := writes_nameRef (r := r) name
    cases hcase : eqIgnoreAsciiCase name.name binding.bindingName with
    | true =>
      refine hname.bind fun sql hsql => ?_
      rw [hcase]
      exact .pure (by simpa [hcase] using hsql)
    | false =>
      refine hname.bind fun sql hsql => ?_
      rw [hcase]
      refine (writes_identifier binding.bindingName).bind fun text htext => .pure ?_
      simpa [hcase] using hsql.between (p := " AS ") (by decide) htext

/-- The backend clauses write their nodes. -/
theorem written_clauses (clauses : List BackendClause) :
    Written r (clauses.map .clause) (clauses.flatMap r.renderBackendClause) := by
  induction clauses with
  | nil => exact .nil
  | cons clause clauses ih => exact (Written.clause clause).append ih

/-- The suffix of an order is fixed. -/
theorem written_orderSuffix (asc nullsFirst : Option Bool) :
    Written r [] (orderSuffix asc nullsFirst) := by
  have hwords : ∀ ps : Pieces, (∀ p ∈ ps, p ∈ fixedPieces) → Written r [] ps := by
    intro ps hps
    induction ps with
    | nil => exact .nil
    | cons p ps ih =>
      obtain ⟨hp, hrest⟩ := List.forall_mem_cons.mp hps
      exact .fixed_append hp (ih hrest)
  refine hwords _ ?_
  rcases asc with _ | _ | _ <;> rcases nullsFirst with _ | _ | _ <;> decide

end Leaves

/-! ## Plans -/

/-- Whether the parameters of some nodes have a schema. -/
def HasSchemas (r : SqlRenderer) (nodes : List PlanNode) : Prop :=
  ∀ reference ∈ parameters nodes, reference ∈ r.parameterOrder.map ParameterSchema.reference

/-- Two lists of nodes have their schemas where both have. -/
@[simp]
theorem hasSchemas_append {r : SqlRenderer} {ns ms : List PlanNode} :
    HasSchemas r (ns ++ ms) ↔ HasSchemas r ns ∧ HasSchemas r ms := by
  rw [HasSchemas, parameters_append, List.forall_mem_append]
  exact Iff.rfl

/-- The later nodes of a list have their schemas where the list has. -/
theorem hasSchemas_cons {r : SqlRenderer} {n : PlanNode} {ns : List PlanNode}
    (h : HasSchemas r (n :: ns)) : HasSchemas r ns := by
  intro reference hreference
  rw [HasSchemas, parameters_cons] at h
  exact h reference (List.mem_append_right _ hreference)

/-- The CTEs before a body. -/
theorem Written.with_ {r : SqlRenderer} {ns ms : List PlanNode} {ctes : List Pieces} {body : Pieces}
    (h : Written r ns (Pieces.join ", " ctes)) (h' : Written r ms body) :
    Written r (ns ++ ms)
      ((if ctes.isEmpty then [] else Render.clause "WITH " ctes ++ [" "]) ++ body) := by
  cases ctes with
  | nil => exact h.append h'
  | cons c cs =>
    rw [if_neg (by simp), List.append_assoc]
    exact (h.clauses (by decide)).between (by decide) h'

/-- A list-typed parameter that stands for the members of an `IN` list. -/
theorem writes_listParameter {r : SqlRenderer}
    (hnodup : (r.parameterOrder.map ParameterSchema.reference).Nodup)
    {list : List BoundExpr} (hschemas : HasSchemas r (exprsNodes list)) :
    Renderable (r.listParameter list) fun parameter => ∀ reference ∈ parameter,
      Writes r (r.renderParameter reference) (exprsNodes list) := by
  unfold SqlRenderer.listParameter
  split
  · rename_i reference type nullable node
    have hmem : reference ∈ r.parameterOrder.map ParameterSchema.reference :=
      hschemas reference (by simp [exprsNodes, exprNodes, parameters_cons, parameter?])
    have hwrites := writes_parameter hnodup hmem type nullable node
    obtain ⟨schema, hschema, rfl⟩ := List.mem_map.mp hmem
    have hfind : Renderable (r.parameterSchema schema.reference) fun _ => True := by
      refine ⟨fun e he => hwrites.error e ?_, fun _ _ => trivial⟩
      rw [SqlRenderer.renderParameter, he]
      rfl
    refine hfind.bind fun found _ => .pure fun reference hreference => ?_
    split at hreference
    · cases hreference
      simpa only [exprsNodes, exprNodes, List.append_nil] using hwrites
    · cases hreference
  · exact .pure fun reference hreference => by cases hreference

section Plans

variable {r : SqlRenderer} (hnodup : (r.parameterOrder.map ParameterSchema.reference).Nodup)

include hnodup

mutual

/-- A rendered query writes its nodes, each once and in order. -/
theorem writes_query : ∀ {q : BoundQueryPlan}, HasSchemas r (queryNodes q) →
    Writes r (renderQueryInner r q) (queryNodes q)
  | ⟨_, ctes, body, orderBy, limit, offset, clauses, _⟩, h => by
    rw [queryNodes] at h ⊢
    simp only [hasSchemas_append] at h
    obtain ⟨⟨⟨⟨⟨hctes, hbody⟩, horder⟩, hlimit⟩, hoffset⟩, -⟩ := h
    rw [renderQueryInner]
    refine (writes_ctes hctes).bind fun ctePieces hctes => ?_
    refine (writes_setExpr hbody).bind fun bodyPieces hbody => ?_
    refine (writes_orderBys horder).bind fun orderPieces horder => ?_
    refine (writes_exprOption hlimit).bind fun limitPieces hlimit => ?_
    refine (writes_exprOption hoffset).bind fun offsetPieces hoffset => .pure ?_
    exact ((((hctes.with_ hbody).append (horder.clauses (by decide))).append
      (hlimit _ (by decide))).append (hoffset _ (by decide))).append (written_clauses clauses)

/-- The rendered CTEs write their nodes. -/
theorem writes_ctes : ∀ {ctes : List BoundCte}, HasSchemas r (cteNodes ctes) →
    Renderable (renderCtes r ctes) fun parts => Written r (cteNodes ctes) (Pieces.join ", " parts)
  | [], _ => by
    rw [renderCtes, cteNodes]
    exact .pure .nil
  | ⟨name, columns, query, _, _⟩ :: ctes, h => by
    rw [cteNodes] at h ⊢
    simp only [hasSchemas_append] at h
    obtain ⟨⟨-, hquery⟩, hrest⟩ := h
    rw [renderCtes]
    refine (writes_identifier name).bind fun namePiece hname => ?_
    refine (writes_cteColumns columns).bind fun columnPieces hcolumns => ?_
    refine (writes_query hquery).bind fun queryPieces hquery => ?_
    refine (writes_ctes hrest).bind fun rest hrest => .pure ?_
    have hcte := (hname.append hcolumns).between (p := " AS (") (by decide)
      (hquery.append_fixed (p := ")") (by decide))
    simpa using hcte.join_cons (p := ", ") (by decide) hrest

/-- A rendered set expression writes its nodes. -/
theorem writes_setExpr : ∀ {s : BoundSetExpr}, HasSchemas r (setExprNodes s) →
    Writes r (renderSetExpr r s) (setExprNodes s)
  | .select s, h => by
    rw [setExprNodes] at h ⊢
    rw [renderSetExpr]
    exact writes_select h
  | .unionAll left right _ _, h => by
    rw [setExprNodes, hasSchemas_append] at h
    rw [setExprNodes, renderSetExpr]
    refine (writes_wrapped h.1).bind fun leftPieces hleft => ?_
    refine (writes_wrapped h.2).bind fun rightPieces hright => .pure ?_
    rw [List.append_assoc]
    exact hleft.between (by decide) hright
  | .unsupported .., _ => by
    rw [renderSetExpr]
    exact renderable_unsupported (by decide) (by decide) _

/-- A wrapped set expression writes its nodes. -/
theorem writes_wrapped : ∀ {s : BoundSetExpr}, HasSchemas r (setExprNodes s) →
    Writes r (wrapSetExpr r s) (setExprNodes s)
  | .select s, h => by
    rw [setExprNodes] at h ⊢
    rw [wrapSetExpr]
    exact writes_select h
  | .unionAll left right _ _, h => by
    rw [setExprNodes, hasSchemas_append] at h
    rw [setExprNodes, wrapSetExpr]
    refine (writes_wrapped h.1).bind fun leftPieces hleft => ?_
    refine (writes_wrapped h.2).bind fun rightPieces hright => .pure ?_
    rw [List.append_assoc, List.append_assoc leftPieces]
    exact .enclosed (by decide) (hleft.between (by decide) hright) (by decide)
  | .unsupported .., _ => by
    rw [wrapSetExpr]
    exact renderable_unsupported (by decide) (by decide) _

/-- A rendered select writes its nodes. -/
theorem writes_select : ∀ {s : BoundSelect},
    HasSchemas r (selectNodes s) → Writes r (renderSelect r s) (selectNodes s)
  | ⟨distinct, projection, from_, selection, groupBy, having, _, _⟩, h => by
    rw [selectNodes] at h ⊢
    simp only [hasSchemas_append] at h
    obtain ⟨⟨⟨⟨hprojection, hfrom⟩, hselection⟩, hgroup⟩, hhaving⟩ := h
    rw [renderSelect]
    refine (writes_projections hprojection).bind fun projectionPieces hprojection => ?_
    refine (writes_tables hfrom).bind fun fromPieces hfrom => ?_
    refine (writes_exprOption hselection).bind fun selectionPieces hselection => ?_
    refine (writes_exprs hgroup).bind fun groupPieces hgroup => ?_
    refine (writes_exprOption hhaving).bind fun havingPieces hhaving => .pure ?_
    have hstart : Written r (projectionNodes projection)
        (["SELECT "] ++ (if distinct then ["DISTINCT "] else []) ++
            Pieces.join ", " projectionPieces) := by
      rw [List.append_assoc]
      refine .fixed_append (by decide) ?_
      cases distinct
      · exact hprojection
      · exact .fixed_append (by decide) hprojection
    exact (((hstart.append (hfrom.clauses (by decide))).append (hselection _ (by decide))).append
      (hgroup.clauses (by decide))).append (hhaving _ (by decide))

/-- The rendered projection writes its nodes. -/
theorem writes_projections : ∀ {items : List BoundProjectionItem},
    HasSchemas r (projectionNodes items) →
    Renderable (renderProjections r items) fun parts =>
      Written r (projectionNodes items) (Pieces.join ", " parts)
  | [], _ => by
    rw [renderProjections, projectionNodes]
    exact .pure .nil
  | .expr ⟨expr, alias_, field, node⟩ :: items, h => by
    rw [projectionNodes] at h ⊢
    simp only [hasSchemas_append] at h
    obtain ⟨⟨hexpr, -⟩, hrest⟩ := h
    -- An item is its expression followed by its alias.
    have hitem : Writes r (renderProjection r (.expr ⟨expr, alias_, field, node⟩))
        (exprNodes expr ++ alias_.toList.map .identifier) := by
      rw [renderProjection]
      refine (writes_expr hexpr).bind fun exprPieces hexpr => ?_
      exact (writes_alias alias_).bind fun aliasPieces halias => .pure (hexpr.append halias)
    rw [renderProjections]
    refine hitem.bind fun item hitem => ?_
    exact (writes_projections hrest).bind fun rest hrest =>
      .pure (hitem.join_cons (by decide) hrest)
  | .wildcard qualifier _ _ :: items, h => by
    rw [projectionNodes] at h ⊢
    rw [renderProjections, renderProjection]
    refine (writes_wildcard qualifier).bind fun item hitem => ?_
    exact (writes_projections (hasSchemas_append.mp h).2).bind fun rest hrest =>
      .pure (hitem.join_cons (by decide) hrest)
  -- An unsupported item renders to an error, which the outcome allows.
  | .unsupported .. :: items, _ => by
    rw [renderProjections, renderProjection]
    exact Outcome.bind (renderable_unsupported (Q := fun _ => False) (by decide) (by decide) _)
      fun _ hfalse => hfalse.elim

/-- The rendered tables of a `FROM` write their nodes. -/
theorem writes_tables : ∀ {tables : List BoundTableWithJoins}, HasSchemas r (tablesNodes tables) →
    Renderable (renderTables r tables) fun parts =>
      Written r (tablesNodes tables) (Pieces.join ", " parts)
  | [], _ => by
    rw [renderTables, tablesNodes]
    exact .pure .nil
  | table :: tables, h => by
    rw [tablesNodes, hasSchemas_append] at h
    rw [tablesNodes, renderTables]
    refine (writes_tableWithJoins h.1).bind fun tablePieces htable => ?_
    exact (writes_tables h.2).bind fun rest hrest => .pure (htable.join_cons (by decide) hrest)

/-- A rendered table with its joins writes their nodes. -/
theorem writes_tableWithJoins : ∀ {table : BoundTableWithJoins},
    HasSchemas r (tableWithJoinsNodes table) →
    Writes r (renderTableWithJoins r table) (tableWithJoinsNodes table)
  | ⟨relation, joins, _⟩, h => by
    rw [tableWithJoinsNodes, hasSchemas_append] at h
    rw [tableWithJoinsNodes, renderTableWithJoins]
    refine (writes_relation h.1).bind fun relationPieces hrelation => ?_
    exact (writes_joins h.2).bind fun joinPieces hjoins => .pure (hrelation.append hjoins)

/-- The rendered joins write their nodes. -/
theorem writes_joins : ∀ {joins : List BoundJoin}, HasSchemas r (joinNodes joins) →
    Writes r (renderJoins r joins) (joinNodes joins)
  | [], _ => by
    rw [renderJoins, joinNodes]
    exact .pure .nil
  | ⟨kind, relation, on, _⟩ :: joins, h => by
    rw [joinNodes] at h ⊢
    simp only [hasSchemas_append] at h
    obtain ⟨⟨hrelation, hon⟩, hrest⟩ := h
    rw [renderJoins]
    refine (writes_relation hrelation).bind fun relationPieces hrelation => ?_
    refine (writes_exprOption hon).bind fun onPieces hon => ?_
    refine (writes_joins hrest).bind fun rest hrest => .pure ?_
    have hkeyword : joinKeyword kind ∈ fixedPieces := by cases kind <;> decide
    have hjoin := (hrelation.append (hon " ON " (by decide))).append hrest
    simpa using Written.fixed_append (p := " ") (by decide) (Written.fixed_append hkeyword hjoin)

/-- A rendered relation writes its nodes. -/
theorem writes_relation : ∀ {relation : BoundRelation}, HasSchemas r (relationNodes relation) →
    Writes r (renderRelation r relation) (relationNodes relation)
  | .table binding _, _ => by
    rw [relationNodes, renderRelation]
    exact writes_table binding
  | .derived binding query _, h => by
    rw [relationNodes, hasSchemas_append] at h
    rw [relationNodes, renderRelation]
    refine (writes_query h.1).bind fun queryPieces hquery => ?_
    refine (writes_identifier binding.bindingName).bind fun name hname => .pure ?_
    simpa using (Written.enclosed (o := "(") (c := ")") (by decide) hquery (by decide)).between
      (p := " AS ") (by decide) hname
  | .nestedJoin binding table _, h => by
    rw [relationNodes, hasSchemas_append] at h
    rw [relationNodes, renderRelation]
    refine (writes_tableWithJoins h.1).bind fun tablePieces htable => ?_
    refine (writes_identifier binding.bindingName).bind fun name hname => .pure ?_
    simpa using (Written.enclosed (o := "(") (c := ")") (by decide) htable (by decide)).between
      (p := " AS ") (by decide) hname
  | .unsupported .., _ => by
    rw [renderRelation]
    exact renderable_unsupported (by decide) (by decide) _

/-- The rendered `ORDER BY` writes its nodes. -/
theorem writes_orderBys : ∀ {orders : List BoundOrderByExpr}, HasSchemas r (orderByNodes orders) →
    Renderable (renderOrderBys r orders) fun parts =>
      Written r (orderByNodes orders) (Pieces.join ", " parts)
  | [], _ => by
    rw [renderOrderBys, orderByNodes]
    exact .pure .nil
  | ⟨expr, asc, nullsFirst, node⟩ :: orders, h => by
    rw [orderByNodes, hasSchemas_append] at h
    have horder : Writes r (renderOrderBy r ⟨expr, asc, nullsFirst, node⟩) (exprNodes expr) := by
      rw [renderOrderBy]
      refine (writes_expr h.1).bind fun exprPieces hexpr => .pure ?_
      simpa using hexpr.append (written_orderSuffix asc nullsFirst)
    rw [orderByNodes, renderOrderBys]
    refine horder.bind fun order horder => ?_
    exact (writes_orderBys h.2).bind fun rest hrest => .pure (horder.join_cons (by decide) hrest)

/-- The rendered expressions of a list write their nodes. -/
theorem writes_exprs : ∀ {exprs : List BoundExpr}, HasSchemas r (exprsNodes exprs) →
    Renderable (renderExprs r exprs) fun parts =>
      Written r (exprsNodes exprs) (Pieces.join ", " parts)
  | [], _ => by
    rw [renderExprs, exprsNodes]
    exact .pure .nil
  | expr :: exprs, h => by
    rw [exprsNodes, hasSchemas_append] at h
    rw [exprsNodes, renderExprs]
    refine (writes_expr h.1).bind fun exprPieces hexpr => ?_
    exact (writes_exprs h.2).bind fun rest hrest => .pure (hexpr.join_cons (by decide) hrest)

/-- A rendered optional expression writes its nodes behind its keyword. -/
theorem writes_exprOption : ∀ {o : Option BoundExpr}, HasSchemas r (exprOptionNodes o) →
    Renderable (renderExprOption r o) fun part => ∀ keyword, keyword ∈ fixedPieces →
      Written r (exprOptionNodes o) (optionClause keyword part)
  | none, _ => by
    rw [renderExprOption, exprOptionNodes]
    exact .pure fun _ _ => .nil
  | some expr, h => by
    rw [exprOptionNodes] at h ⊢
    rw [renderExprOption]
    exact (writes_expr h).bind fun exprPieces hexpr => .pure fun _ hkeyword =>
      .fixed_append hkeyword hexpr

/-- The rendered branches of a `CASE` write their nodes. -/
theorem writes_whenThens : ∀ {pairs : List BoundWhenThen}, HasSchemas r (whenThenNodes pairs) →
    Writes r (renderWhenThens r pairs) (whenThenNodes pairs)
  | [], _ => by
    rw [renderWhenThens, whenThenNodes]
    exact .pure .nil
  | ⟨condition, result⟩ :: pairs, h => by
    rw [whenThenNodes] at h ⊢
    simp only [hasSchemas_append] at h
    obtain ⟨⟨hcondition, hresult⟩, hrest⟩ := h
    rw [renderWhenThens]
    refine (writes_expr hcondition).bind fun conditionPieces hcondition => ?_
    refine (writes_expr hresult).bind fun resultPieces hresult => ?_
    refine (writes_whenThens hrest).bind fun rest hrest => .pure ?_
    have hpair := Written.fixed_append (p := " WHEN ") (by decide)
      (hcondition.between (p := " THEN ") (by decide) hresult)
    simpa using hpair.append hrest

/-- A rendered window writes its nodes. -/
theorem writes_window : ∀ {over_ : Option BoundWindowSpec}, HasSchemas r (windowNodes over_) →
    Writes r (renderWindow r over_) (windowNodes over_)
  | none, _ => by
    rw [renderWindow, windowNodes]
    exact .pure .nil
  | some ⟨partitionBy, orderBy, _⟩, h => by
    rw [windowNodes, hasSchemas_append] at h
    rw [windowNodes, renderWindow]
    refine (writes_exprs h.1).bind fun partitionPieces hpartition => ?_
    refine (writes_orderBys h.2).bind fun orderPieces horder => .pure ?_
    rw [List.append_assoc]
    refine .enclosed (by decide) ?_ (by decide)
    -- Each of the two parts is left out when it is empty.
    have horderPart : Written r (orderByNodes orderBy) (Pieces.join " "
        (if orderPieces.isEmpty then [] else [clause "ORDER BY " orderPieces])) := by
      cases orderPieces with
      | nil => exact horder
      | cons p parts =>
        have := Written.join_cons (p := " ") (l := []) (by decide)
          (horder.clauses (k := "ORDER BY ") (by decide)) .nil
        rwa [List.append_nil] at this
    cases partitionPieces with
    | nil => exact hpartition.append horderPart
    | cons p parts => exact .join_cons (by decide) (hpartition.clauses (by decide)) horderPart

/-- A rendered function call writes its nodes. -/
theorem writes_function : ∀ {call : BoundFunctionCall}, HasSchemas r (exprsNodes call.args ++
      exprOptionNodes call.filter ++ windowNodes call.over_) →
    Writes r (renderFunction r call) (.function call.function :: (exprsNodes call.args ++
      exprOptionNodes call.filter ++ windowNodes call.over_))
  | ⟨function, _, args, distinct, filter, over_, _⟩, h => by
    simp only [hasSchemas_append] at h
    obtain ⟨⟨hargs, hfilter⟩, hover⟩ := h
    rw [renderFunction]
    refine (renderable_mappedFunction r function).bind fun mapped hmapped => ?_
    refine (writes_exprs hargs).bind fun argPieces hargs => ?_
    refine (renderable_functionRef r.backend mapped).bind fun name hname => ?_
    refine (writes_exprOption hfilter).bind fun filterPieces hfilter => ?_
    refine (writes_window hover).bind fun overPieces hover => .pure ?_
    have hname' : Written r [.function function] name := .function hmapped hname
    -- `count` without arguments is written with a star.
    have hargs' : Written r (exprsNodes args)
        (if eqIgnoreAsciiCase function.name "count" && args.isEmpty then ["*"]
          else Pieces.join ", " argPieces) := by
      split_ifs with hcount
      · rw [Bool.and_eq_true, List.isEmpty_iff] at hcount
        rw [hcount.2, exprsNodes]
        exact .piece (by decide)
      · exact hargs
    have hfilter' : Written r (exprOptionNodes filter) (filterClause filterPieces) := by
      have hpart := hfilter " FILTER (WHERE " (by decide)
      cases filterPieces with
      | none => exact hpart
      | some part => exact hpart.append_fixed (by decide)
    -- What stands in the brackets of the call.
    have hcall : Written r (exprsNodes args) ((if distinct then ["DISTINCT "] else []) ++
        ((if eqIgnoreAsciiCase function.name "count" && args.isEmpty then ["*"]
          else Pieces.join ", " argPieces) ++ [")"])) := by
      have := hargs'.append_fixed (p := ")") (by decide)
      cases distinct
      · exact this
      · exact .fixed_append (by decide) this
    simpa using ((hname'.between (p := "(") (by decide) hcall).append hfilter').append hover

/-- A rendered expression writes its nodes. -/
theorem writes_expr : ∀ {e : BoundExpr},
    HasSchemas r (exprNodes e) → Writes r (renderExpr r e) (exprNodes e)
  -- One case per constructor: the parts are written in order, with fixed pieces between them.
  | ⟨.column column, ty, nu, nd⟩, _ => by
    rw [exprNodes, renderExpr]
    exact (writes_column column).mono fun ps hps => hps.cons rfl
  | ⟨.literal value, ty, nu, nd⟩, _ => by
    rw [exprNodes, renderExpr]
    exact .pure (.literal value ty nu nd)
  | ⟨.parameter reference, ty, nu, nd⟩, h => by
    rw [exprNodes] at h ⊢
    rw [renderExpr]
    exact writes_parameter hnodup (h reference (by simp [parameters_cons, parameter?])) ty nu nd
  | ⟨.unary op operand, ty, nu, nd⟩, h => by
    rw [exprNodes] at h ⊢
    rw [renderExpr]
    refine (writes_expr (hasSchemas_cons h)).bind fun operandPieces hoperand => .pure ?_
    have hop : unaryPrefix op ∈ fixedPieces := by cases op <;> decide
    exact (Written.fixed_append hop hoperand).cons rfl
  | ⟨.binary op left right, ty, nu, nd⟩, h => by
    rw [exprNodes] at h ⊢
    have h := hasSchemas_append.mp (hasSchemas_cons h)
    rw [renderExpr]
    refine (writes_expr h.1).bind fun leftPieces hleft => ?_
    refine (writes_expr h.2).bind fun rightPieces hright => .pure ?_
    have hop : renderBinaryOperator op ∈ fixedPieces := by cases op <;> decide
    have hmiddle : Written r [] [renderBinaryOperator op] := .piece hop
    have hboth := hleft.between (p := " ") (by decide)
      (hmiddle.between (p := " ") (by decide) hright)
    have := Written.enclosed (o := "(") (c := ")") (by decide) hboth (by decide)
    exact .cons (by simpa using this) rfl
  | ⟨.function ⟨function, backendName, args, distinct, filter, over_, signatureName⟩, ty, nu, nd⟩,
      h => by
    rw [exprNodes] at h ⊢
    rw [renderExpr]
    exact (writes_function (hasSchemas_cons (hasSchemas_cons h))).mono fun ps hps => hps.cons rfl
  | ⟨.case operand whenThen elseResult, ty, nu, nd⟩, h => by
    rw [exprNodes] at h ⊢
    have h := hasSchemas_cons h
    simp only [hasSchemas_append] at h
    obtain ⟨⟨hoperand, hwhen⟩, helse⟩ := h
    rw [renderExpr]
    refine (writes_exprOption hoperand).bind fun operandPieces hoperand => ?_
    refine (writes_whenThens hwhen).bind fun whenPieces hwhen => ?_
    refine (writes_exprOption helse).bind fun elsePieces helse => .pure ?_
    have hcase : Written r [] ["CASE"] := .piece (by decide)
    have hend : Written r [] [" END"] := .piece (by decide)
    have := (((hcase.append (hoperand " " (by decide))).append hwhen).append
      (helse " ELSE " (by decide))).append hend
    exact .cons (by simpa using this) rfl
  | ⟨.cast x type, ty, nu, nd⟩, h => by
    rw [exprNodes] at h ⊢
    rw [renderExpr]
    refine (writes_expr (hasSchemas_cons h)).bind fun xPieces hx => ?_
    refine (renderable_typeName r.backend type).bind fun name hname => .pure ?_
    have htype : Written r [] [name] := .typeName hname
    have := Written.enclosed (o := "CAST(") (c := ")") (by decide)
      (hx.between (p := " AS ") (by decide) htype)
      (by decide)
    exact .cons (by simpa using this) rfl
  | ⟨.between x low high negated, ty, nu, nd⟩, h => by
    rw [exprNodes] at h ⊢
    have h := hasSchemas_cons h
    simp only [hasSchemas_append] at h
    obtain ⟨⟨hx, hlow⟩, hhigh⟩ := h
    rw [renderExpr]
    refine (writes_expr hx).bind fun xPieces hx => ?_
    refine (writes_expr hlow).bind fun lowPieces hlow => ?_
    refine (writes_expr hhigh).bind fun highPieces hhigh => .pure ?_
    have hbounds := hlow.between (p := " AND ") (by decide) hhigh
    have := hx.between (p := " ") (by decide)
      (Written.negation negated (Written.fixed_append (p := "BETWEEN ") (by decide) hbounds))
    exact .cons (by simpa using this) rfl
  -- A list that is one array parameter is written as that parameter, in each backend's words.
  | ⟨.inList x list negated, ty, nu, nd⟩, h => by
    rw [exprNodes] at h ⊢
    have h := hasSchemas_append.mp (hasSchemas_cons h)
    rw [renderExpr]
    refine (writes_listParameter hnodup h.2).bind fun parameter hparameter => ?_
    cases parameter with
    | some reference =>
      refine (writes_expr h.1).bind fun xPieces hx => ?_
      refine (hparameter reference rfl).bind fun parameterPieces hpieces => ?_
      cases hb : r.backend with
      | postgres =>
        have hword : Written r [] [if negated then "<> ALL" else "= ANY"] := by
          cases negated <;> exact .piece (by decide)
        have := hx.between (p := " ") (by decide) (hword.between (p := "(") (by decide)
          (hpieces.append_fixed (p := ")") (by decide)))
        exact .pure (.cons (by simpa using this) rfl)
      | clickHouse =>
        have := hx.between (p := " ") (by decide)
          (Written.negation negated (Written.fixed_append (p := "IN ") (by decide) hpieces))
        exact .pure (.cons (by simpa using this) rfl)
    | none =>
      refine (writes_expr h.1).bind fun xPieces hx => ?_
      refine (writes_exprs h.2).bind fun listPieces hlist => .pure ?_
      have := hx.between (p := " ") (by decide)
        (Written.negation negated
          (Written.enclosed (o := "IN (") (c := ")") (by decide) hlist (by decide)))
      exact .cons (by simpa using this) rfl
  | ⟨.inSubquery x query negated, ty, nu, nd⟩, h => by
    rw [exprNodes] at h ⊢
    have h := hasSchemas_append.mp (hasSchemas_cons h)
    rw [renderExpr]
    refine (writes_expr h.1).bind fun xPieces hx => ?_
    refine (writes_query h.2).bind fun queryPieces hquery => .pure ?_
    have := hx.between (p := " ") (by decide)
      (Written.negation negated
        (Written.enclosed (o := "IN (") (c := ")") (by decide) hquery (by decide)))
    exact .cons (by simpa using this) rfl
  | ⟨.scalarSubquery query, ty, nu, nd⟩, h => by
    rw [exprNodes] at h ⊢
    rw [renderExpr]
    refine (writes_query (hasSchemas_cons h)).bind fun queryPieces hquery => .pure ?_
    rw [List.append_assoc]
    exact .cons (.enclosed (by decide) hquery (by decide)) rfl
  | ⟨.exists query, ty, nu, nd⟩, h => by
    rw [exprNodes] at h ⊢
    rw [renderExpr]
    refine (writes_query (hasSchemas_cons h)).bind fun queryPieces hquery => .pure ?_
    rw [List.append_assoc]
    exact .cons (.enclosed (by decide) hquery (by decide)) rfl
  | ⟨.like x pattern negated caseInsensitive, ty, nu, nd⟩, h => by
    rw [exprNodes] at h ⊢
    have h := hasSchemas_append.mp (hasSchemas_cons h)
    rw [renderExpr]
    refine (writes_expr h.1).bind fun xPieces hx => ?_
    refine (writes_expr h.2).bind fun patternPieces hpattern => .pure ?_
    have hword : Written r [] [if caseInsensitive then "ILIKE" else "LIKE"] := by
      cases caseInsensitive <;> exact .piece (by decide)
    have := hx.between (p := " ") (by decide)
      (Written.negation negated (hword.between (p := " ") (by decide) hpattern))
    exact .cons (by simpa using this) rfl
  | ⟨.isNull x negated, ty, nu, nd⟩, h => by
    rw [exprNodes] at h ⊢
    rw [renderExpr]
    refine (writes_expr (hasSchemas_cons h)).bind fun xPieces hx => .pure ?_
    have hnull : Written r [] ["NULL"] := .piece (by decide)
    have := hx.between (p := " IS ") (by decide) (Written.negation negated hnull)
    exact .cons (by simpa using this) rfl
  | ⟨.tuple items, ty, nu, nd⟩, h => by
    rw [exprNodes] at h ⊢
    rw [renderExpr]
    refine (writes_exprs (hasSchemas_cons h)).bind fun itemPieces hitems => .pure ?_
    rw [List.append_assoc]
    exact .cons (.enclosed (by decide) hitems (by decide)) rfl
  | ⟨.array items, ty, nu, nd⟩, h => by
    rw [exprNodes] at h ⊢
    rw [renderExpr]
    refine (writes_exprs (hasSchemas_cons h)).bind fun itemPieces hitems => .pure ?_
    have hopen : (match r.backend with | .clickHouse => "[" | .postgres => "ARRAY[") ∈
        fixedPieces := by
      cases r.backend <;> decide
    rw [List.append_assoc]
    exact .cons (.enclosed hopen hitems (by decide)) rfl
  | ⟨.unsupported description, ty, nu, nd⟩, _ => by
    rw [renderExpr]
    exact renderable_unsupported (by decide) (by decide) _

end

end Plans

end QueryFabric.Render
