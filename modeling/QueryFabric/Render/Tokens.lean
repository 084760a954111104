import QueryFabric.Render.Emission
import QueryFabric.Render.Leaves

/-!
# The tokens of an expression

`render_expr` puts pieces together without looking at their last and first characters. A backend
reads the tokens that were written, except that the minus of a negated operand that starts with a
minus opens a comment, and that a quoted text does not end where it should
(`lexesAsWritten_renderExpr_iff`).
-/

namespace QueryFabric.Render

open Sql Lib

/-- The fixed pieces that end in a boundary. -/
def gluePieces : List String :=
  [" ", "(", ")", ", ", "[", "]", "ARRAY[", " (", " AS (", " AS ", "WITH ", "SELECT ", "DISTINCT ",
   " FROM ", " WHERE ", " GROUP BY ", " HAVING ", " ORDER BY ", " LIMIT ", " OFFSET ", " SETTINGS ",
   " UNION ALL ", "INNER JOIN ", "LEFT JOIN ", "RIGHT JOIN ", "FULL JOIN ", "CROSS JOIN ", " ON ",
   "NOT ", " ELSE ", " WHEN ", " THEN ", "CAST(", "BETWEEN ", " AND ", "IN ", "IN (", "EXISTS (",
   " IS ", " FILTER (WHERE ", " OVER (", "PARTITION BY ", "ORDER BY "]

/-- The other fixed pieces. -/
def wordPieces : List String :=
  ["+", "-", "*", "/", "=", "<>", "<", "<=", ">", ">=", "AND", "OR", "CASE", " END", "NULL", "LIKE",
   "ILIKE", "= ANY", "<> ALL", " ASC", " DESC", " NULLS FIRST", " NULLS LAST"]

/-- Every piece of glue glues. -/
theorem glues_piece (b : SqlBackend) {p : String} (h : p ∈ gluePieces) : Glues b.rules [p] := by
  have hall :
      gluePieces.all (fun p => glue b.rules p.toList && !p.toList.contains '\\') = true := by
    unfold gluePieces
    simp only [List.all_cons, List.all_nil]
    repeat rw [String.toList_ofList]
    cases b <;> decide +kernel
  have := List.all_eq_true.mp hall p h
  simp only [Bool.and_eq_true, Bool.not_eq_true', List.contains_eq_mem, decide_eq_false_iff_not]
    at this
  exact .of_glue this.1 this.2

/-- Every word is read. -/
theorem reads_piece (b : SqlBackend) {p : String} (h : p ∈ wordPieces) :
    Reads b.rules Safe True [p] := by
  have hall :
      wordPieces.all (fun p => closed b.rules p.toList && !p.toList.contains '\\') = true := by
    unfold wordPieces
    simp only [List.all_cons, List.all_nil]
    repeat rw [String.toList_ofList]
    cases b <;> decide +kernel
  have := List.all_eq_true.mp hall p h
  simp only [Bool.and_eq_true, Bool.not_eq_true', List.contains_eq_mem, decide_eq_false_iff_not]
    at this
  exact .of_closed this.1 this.2

/-- Whether a piece starts with a boundary. -/
def startsBoundary (p : String) : Bool := p.toList.head?.any isBoundary

/-- A piece that starts with a boundary is safe. -/
theorem safe_cons {p : String} (h : startsBoundary p = true) (ps : Pieces) :
    Safe (chars (p :: ps)) := by
  unfold startsBoundary at h
  cases hp : p.toList with
  | nil => simp [hp] at h
  | cons c cs =>
    rw [chars_cons, hp]
    exact Safe.cons (by simpa [hp] using h) _

/-! ## Conditions on the nodes -/

/-- Whether the text of an expression starts with a minus. -/
def leadingMinus : BoundExpr → Bool
  | ⟨.literal value, _, _, _⟩ => isNegative value
  | ⟨.unary .minus _, _, _, _⟩ => true
  | ⟨.between expr _ _ _, _, _, _⟩ => leadingMinus expr
  | ⟨.inList expr _ _, _, _, _⟩ => leadingMinus expr
  | ⟨.inSubquery expr _ _, _, _, _⟩ => leadingMinus expr
  | ⟨.like expr _ _ _, _, _, _⟩ => leadingMinus expr
  | ⟨.isNull expr _, _, _, _⟩ => leadingMinus expr
  | _ => false

/-- Whether a node is read as it is written: no minus stands before a minus, and what is quoted
closes where it was written. -/
def SqlRenderer.lexes (r : SqlRenderer) : PlanNode → Bool
  | .expr ⟨.unary .minus operand, _, _, _⟩ => !leadingMinus operand
  | .expr ⟨.literal value, _, _, _⟩ => literalLexes r.backend value
  | .expr _ => true
  | .identifier value => closesAtEnd r.backend '"' value
  | .qualifiedName value => segmentsClose r.backend value
  | .function function =>
    match r.mappedFunction function with
    | .ok mapped => functionNameLexes r.backend mapped
    | .error _ => true
  | .clause _ => true

/-- The texts that are copied as they are: those of number literals are numerals, and those of
`SETTINGS` and `FORMAT` have no comment, no open quote and no backslash. -/
def SqlRenderer.Copies (r : SqlRenderer) : PlanNode → Prop
  | .expr ⟨.literal (.float64 text), _, _, _⟩ => isNumeral text = true
  | .clause (.clickHouseSettings text _) => Plain r.backend.rules text.toList
  | .clause (.clickHouseFormat text _) => Plain r.backend.rules text.toList
  | _ => True

/-- The pieces of some nodes are read as written exactly when the nodes are. -/
def ReadsAs (r : SqlRenderer) (nodes : List PlanNode) (ps : Pieces) : Prop :=
  (∀ n ∈ nodes, r.Copies n) →
    Reads r.backend.rules Safe (∀ n ∈ nodes, r.lexes n = true) ps

namespace ReadsAs

variable {r : SqlRenderer} {ns ms : List PlanNode} {ps qs : Pieces} {p : String}

/-- No nodes are read as nothing. -/
theorem nil : ReadsAs r [] [] := fun _ => Reads.nil.congr (by simp)

/-- Nodes that are always read as written may be added. -/
theorem of_reads {ok : Prop} (h : Reads r.backend.rules Safe ok ps)
    (hok : ok ↔ ∀ n ∈ ns, r.lexes n = true) : ReadsAs r ns ps :=
  fun _ => h.congr hok

/-- A node that lexes is read with the others. -/
theorem cons {n : PlanNode} (h : ReadsAs r ns ps) (hn : r.lexes n = true) :
    ReadsAs r (n :: ns) ps := fun hraw =>
  (h fun m hm => hraw m (List.mem_cons_of_mem _ hm)).congr (by simp [hn])

/-- Two lists of pieces, the second safe to follow. -/
theorem append (h : ReadsAs r ns ps) (h' : ReadsAs r ms qs) (hsafe : Safe (chars qs)) :
    ReadsAs r (ns ++ ms) (ps ++ qs) := by
  intro hraw
  rw [List.forall_mem_append] at hraw
  exact ((h hraw.1).append_safe (h' hraw.2) hsafe).congr (by rw [List.forall_mem_append])

/-- A word is read as no node. -/
theorem piece (hp : p ∈ wordPieces) : ReadsAs r [] [p] :=
  of_reads (reads_piece _ hp) (by simp)

/-- Glue before pieces that are read. -/
theorem glue_append (hp : p ∈ gluePieces) (h : ReadsAs r ns ps) : ReadsAs r ns ([p] ++ ps) :=
  fun hraw => Reads.glue_append (glues_piece _ hp) (h hraw)

/-- Glue behind pieces that are read. -/
theorem append_glue (h : ReadsAs r ns ps) (hp : p ∈ gluePieces) (hb : startsBoundary p = true) :
    ReadsAs r ns (ps ++ [p]) :=
  fun hraw => (h hraw).append_glue (glues_piece _ hp) (safe_cons hb [])

/-- Two parts with a piece of glue between them. -/
theorem between (h : ReadsAs r ns ps) (hp : p ∈ gluePieces) (hb : startsBoundary p = true)
    (h' : ReadsAs r ms qs) : ReadsAs r (ns ++ ms) (ps ++ ([p] ++ qs)) :=
  h.append (glue_append hp h') (safe_cons hb qs)

/-- A part between two pieces of glue. -/
theorem enclosed {o c : String} (ho : o ∈ gluePieces) (h : ReadsAs r ns ps)
    (hc : c ∈ gluePieces) (hb : startsBoundary c = true) : ReadsAs r ns ([o] ++ (ps ++ [c])) :=
  glue_append ho (h.append_glue hc hb)

/-- A negation before pieces that are read. -/
theorem negation (negated : Bool) (h : ReadsAs r ns ps) :
    ReadsAs r ns (negation negated ++ ps) := by
  cases negated
  · exact h
  · exact glue_append (by decide) h

/-- One part more, with a separator when it is not the last. -/
theorem join_cons {l : List Pieces} (hp : p ∈ gluePieces) (hb : startsBoundary p = true)
    (h : ReadsAs r ns ps) (h' : ReadsAs r ms (Pieces.join p l)) :
    ReadsAs r (ns ++ ms) (Pieces.join p (ps :: l)) := by
  cases l with
  | nil => exact h.append h' Safe.nil
  | cons q parts => exact h.between hp hb h'

/-- Nodes of which nothing is written. -/
theorem of_nil_append (h : ReadsAs r ns []) (h' : ReadsAs r ms qs) : ReadsAs r (ns ++ ms) qs := by
  intro hraw
  rw [List.forall_mem_append] at hraw
  have hns := Reads.ok_of_nil (h hraw.1) Safe.nil
  refine Reads.congr (h' hraw.2) ?_
  rw [List.forall_mem_append]
  exact (and_iff_right hns).symm

/-- A clause of parts that are read. -/
theorem clause {k : String} {parts : List Pieces} (hk : k ∈ gluePieces)
    (h : ReadsAs r ns (Pieces.join ", " parts)) : ReadsAs r ns (clause k parts) := by
  cases parts with
  | nil => exact h
  | cons q parts => exact glue_append hk h

end ReadsAs

/-! ## The parts of a statement -/

section Parts

variable {r : SqlRenderer} {ps : Pieces}

/-- An identifier is read as itself. -/
theorem readsAs_identifier {value text : String} (h : renderIdentifier r.backend value = .ok text) :
    ReadsAs r [.identifier value] [text] :=
  .of_reads ((reads_identifier h).1.mono fun _ hrest => hrest.endsName)
    (by simp [SqlRenderer.lexes])

/-- Texts with a piece between them are joined. -/
theorem intersperse_eq_join (p : String) : ∀ texts : List String,
    texts.intersperse p = Pieces.join p (texts.map fun text => [text])
  | [] => rfl
  | [_] => rfl
  | text :: next :: texts => by
    have ih := intersperse_eq_join p (next :: texts)
    rw [List.intersperse_cons_cons, ih]
    rfl

/-- Identifiers are read as themselves. -/
theorem readsAs_identifiers : ∀ {values texts : List String},
    values.mapM (renderIdentifier r.backend) = .ok texts →
    ReadsAs r (values.map .identifier) (Pieces.join ", " (texts.map fun text => [text]))
  | [], texts, h => by
    cases h
    exact .nil
  | value :: values, texts, h => by
    rw [List.mapM_cons] at h
    obtain ⟨text, htext, h⟩ := bind_eq_ok.mp h
    obtain ⟨rest, hrest, h⟩ := bind_eq_ok.mp h
    rw [pure_eq_ok] at h
    subst h
    exact .join_cons (by decide) (by decide) (readsAs_identifier htext) (readsAs_identifiers hrest)

/-- The columns of a CTE are read. -/
theorem readsAs_cteColumns {columns : List String} (h : renderCteColumns r columns = .ok ps) :
    ReadsAs r (columns.map .identifier) ps := by
  unfold renderCteColumns at h
  split_ifs at h with hempty
  · rw [pure_eq_ok] at h
    subst h
    rw [List.isEmpty_iff.mp hempty]
    exact .nil
  · obtain ⟨texts, htexts, h⟩ := bind_eq_ok.mp h
    rw [pure_eq_ok] at h
    subst h
    rw [List.append_assoc, intersperse_eq_join]
    exact .enclosed (by decide) (readsAs_identifiers htexts) (by decide) (by decide)

/-- The columns of a CTE are safe to follow. -/
theorem safe_cteColumns {columns : List String} (h : renderCteColumns r columns = .ok ps) :
    Safe (chars ps) := by
  unfold renderCteColumns at h
  split_ifs at h
  · rw [pure_eq_ok] at h
    subst h
    exact Safe.nil
  · obtain ⟨texts, htexts, h⟩ := bind_eq_ok.mp h
    rw [pure_eq_ok] at h
    subst h
    exact safe_cons (by decide) _

/-- An alias is read, and safe to follow. -/
theorem readsAs_alias {alias_ : Option String} (h : renderAlias r alias_ = .ok ps) :
    ReadsAs r (alias_.toList.map .identifier) ps ∧ Safe (chars ps) := by
  cases alias_ with
  | none =>
    cases h
    exact ⟨.nil, Safe.nil⟩
  | some value =>
    obtain ⟨text, htext, h⟩ := bind_eq_ok.mp h
    cases h
    exact ⟨.glue_append (by decide) (readsAs_identifier htext), safe_cons (by decide) _⟩

/-- A wildcard is read. -/
theorem readsAs_wildcard {qualifier : Option String} (h : renderWildcard r qualifier = .ok ps) :
    ReadsAs r (qualifier.toList.map .qualifiedName) ps := by
  cases qualifier with
  | none =>
    cases h
    exact .piece (by decide)
  | some value =>
    obtain ⟨name, hname, h⟩ := bind_eq_ok.mp h
    cases h
    have hstar := reads_piece r.backend (p := "*") (by decide)
    refine .of_reads (reads_dotted (reads_qualifiedName hname).1 hstar fun rest c hc => ?_)
      (by simp [SqlRenderer.lexes])
    have hhead : c = '*' := by simpa [eq_comm] using hc
    exact hhead ▸ (by decide)

/-- A table is read. -/
theorem readsAs_table {binding : BoundRelationBinding} (h : r.renderTable binding = .ok ps) :
    ReadsAs r (tableNodes binding) ps := by
  unfold SqlRenderer.renderTable at h
  unfold tableNodes
  split at h
  · rename_i hname
    obtain ⟨text, htext, h⟩ := bind_eq_ok.mp h
    cases h
    simpa [hname] using readsAs_identifier htext
  · rename_i name hname
    obtain ⟨sql, hsql, h⟩ := bind_eq_ok.mp h
    -- The name and its namespace, with a dot between them.
    have hnodes : ReadsAs r (name.namespace_.toList.map .identifier ++ [.identifier name.name])
        sql := by
      refine .of_reads ((reads_nameRef hsql).mono fun rest (hrest : Safe rest) => hrest.endsName) ?_
      cases name.namespace_ <;> simp [SqlRenderer.lexes]
    -- A table under its own name has no alias.
    cases hcase : eqIgnoreAsciiCase name.name binding.bindingName with
    | true =>
      rw [hcase] at h
      cases h
      simpa [hname, hcase] using hnodes
    | false =>
      rw [hcase] at h
      obtain ⟨text, htext, h⟩ := bind_eq_ok.mp h
      cases h
      have := hnodes.between (p := " AS ") (by decide) (by decide) (readsAs_identifier htext)
      simpa [hname, hcase] using this

/-- The clauses of a backend are read, and safe to follow. -/
theorem readsAs_backendClauses : ∀ clauses : List BackendClause,
    ReadsAs r (clauses.map .clause) (clauses.flatMap r.renderBackendClause) ∧
      Safe (chars (clauses.flatMap r.renderBackendClause))
  | [] => ⟨.nil, Safe.nil⟩
  | clause :: clauses => by
    obtain ⟨ih, hsafe⟩ := readsAs_backendClauses clauses
    have hone : ReadsAs r [.clause clause] (r.renderBackendClause clause) ∧
        Safe (chars (r.renderBackendClause clause)) := by
      cases clause <;> simp only [SqlRenderer.renderBackendClause] <;> split_ifs
      · refine ⟨fun hraw => ?_, safe_cons (by decide) _⟩
        have htext := (hraw _ (List.mem_singleton_self _)).reads
        exact Reads.glue_append (glues_piece _ (by decide))
          (htext.congr (by simp [SqlRenderer.lexes]))
      · exact ⟨.cons .nil rfl, Safe.nil⟩
      · refine ⟨fun hraw => ?_, safe_cons (by decide) _⟩
        have htext := (hraw _ (List.mem_singleton_self _)).reads
        exact Reads.glue_append (glues_piece _ (by decide))
          (htext.congr (by simp [SqlRenderer.lexes]))
      · exact ⟨.cons .nil rfl, Safe.nil⟩
    rw [List.flatMap_cons, chars_append]
    exact ⟨hone.1.append ih hsafe, hone.2.append hsafe⟩

/-- A clause is safe to follow. -/
theorem safe_clause {keyword : String} {parts : List Pieces} (h : startsBoundary keyword = true) :
    Safe (chars (clause keyword parts)) := by
  unfold clause
  split_ifs
  · exact Safe.nil
  · exact safe_cons h _

/-- An optional clause is safe to follow. -/
theorem safe_optionClause {keyword : String} {part : Option Pieces}
    (h : startsBoundary keyword = true) : Safe (chars (optionClause keyword part)) := by
  cases part
  · exact Safe.nil
  · exact safe_cons h _

/-- The suffix of a sort key is read, and safe to follow. -/
theorem readsAs_orderSuffix (asc nullsFirst : Option Bool) :
    ReadsAs r [] (orderSuffix asc nullsFirst) ∧ Safe (chars (orderSuffix asc nullsFirst)) := by
  have hwords : ∀ ps : Pieces, (∀ p ∈ ps, p ∈ wordPieces ∧ startsBoundary p = true) →
      ReadsAs r [] ps ∧ Safe (chars ps) := by
    intro ps hps
    induction ps with
    | nil => exact ⟨.nil, Safe.nil⟩
    | cons p ps ih =>
      obtain ⟨⟨hword, hstarts⟩, hrest⟩ := List.forall_mem_cons.mp hps
      obtain ⟨hreads, hsafe⟩ := ih hrest
      exact ⟨(ReadsAs.piece hword).append hreads hsafe, safe_cons hstarts ps⟩
  refine hwords _ ?_
  rcases asc with _ | _ | _ <;> rcases nullsFirst with _ | _ | _ <;> decide

end Parts

/-! ## Expressions -/

/-- What the pieces of an expression are: read as its nodes are, and with signs only at their
start. -/
structure Renders (r : SqlRenderer) (e : BoundExpr) (ps : Pieces) : Prop where
  reads : ReadsAs r (exprNodes e) ps
  leads : (∀ n ∈ exprNodes e, r.Copies n) → Leads r.backend.rules ps
  minus : (∀ n ∈ exprNodes e, r.Copies n) →
    ((chars ps).head? = some '-' ↔ leadingMinus e = true)

section Renders

variable {r : SqlRenderer} {e x : BoundExpr} {ps qs : Pieces}

/-- An expression that starts with a fixed piece or a name. -/
theorem Renders.of_starts (hreads : ReadsAs r (exprNodes e) ps)
    (hstarts : Starts r.backend.rules ps) (hminus : leadingMinus e = false) : Renders r e ps :=
  ⟨hreads, fun _ => hstarts.leads, fun _ => iff_of_false hstarts.head?_ne (by simp [hminus])⟩

/-- An expression that starts with another. -/
theorem Renders.of_renders (hx : Renders r x ps) (hnodes : ∀ n ∈ exprNodes x, n ∈ exprNodes e)
    (hreads : ReadsAs r (exprNodes e) (ps ++ qs)) (hminus : leadingMinus e = leadingMinus x) :
    Renders r e (ps ++ qs) := by
  refine ⟨hreads, fun hraw => (hx.leads fun n hn => hraw n (hnodes n hn)).append qs, fun hraw => ?_⟩
  have hraw' : ∀ n ∈ exprNodes x, r.Copies n := fun n hn => hraw n (hnodes n hn)
  obtain ⟨signs, c, tail, heq, -, -⟩ := hx.leads hraw'
  have hhead : (chars (ps ++ qs)).head? = (chars ps).head? := by
    rw [chars_append, heq]
    cases signs <;> rfl
  rw [hhead, hx.minus hraw', hminus]

/-- A sign before its operand. -/
theorem Renders.sign {op : UnaryOperator} {ty : DataType} {nu : Bool} {nd : SyntaxNode} (c : Char)
    (hx : Renders r x ps) (hp : (unaryPrefix op).toList = [c]) (hc : isSign c = true)
    (hminus : leadingMinus ⟨.unary op x, ty, nu, nd⟩ = true ↔ c = '-')
    (hlexes : r.lexes (.expr ⟨.unary op x, ty, nu, nd⟩) = true ↔
      ¬ (c = '-' ∧ leadingMinus x = true)) :
    Renders r ⟨.unary op x, ty, nu, nd⟩ ([unaryPrefix op] ++ ps) := by
  have hraw' (hraw : ∀ n ∈ exprNodes ⟨.unary op x, ty, nu, nd⟩, r.Copies n) :
      ∀ n ∈ exprNodes x, r.Copies n := fun n hn => hraw n (by simp [exprNodes, hn])
  refine ⟨fun hraw => ?_, fun hraw => ?_, fun _ => ?_⟩
  · refine (Reads.sign hp hc (hx.leads (hraw' hraw)) (hx.reads (hraw' hraw))).congr ?_
    rw [hx.minus (hraw' hraw), ← hlexes, exprNodes, List.forall_mem_cons, and_comm]
  · obtain ⟨signs, d, tail, heq, hsigns, hd⟩ := hx.leads (hraw' hraw)
    exact ⟨c :: signs, d, tail, by simp [hp, heq], by simp [hc, hsigns], hd⟩
  · rw [hminus]
    simp [hp]

/-- A fixed piece that starts with no operator. -/
theorem starts_piece {p : String} (b : SqlBackend) (h : p ∈ gluePieces ++ ["CASE"]) (qs : Pieces) :
    Starts b.rules ([p] ++ qs) := by
  have hall : (gluePieces ++ ["CASE"]).all (fun p => p.toList.head?.any (!b.rules.isOperator ·)) =
      true := by
    unfold gluePieces
    simp only [List.cons_append, List.nil_append, List.all_cons, List.all_nil]
    repeat rw [String.toList_ofList]
    cases b <;> decide +kernel
  have hp := List.all_eq_true.mp hall p h
  cases hcons : p.toList with
  | nil => simp [hcons] at hp
  | cons c cs => exact ⟨c, cs ++ chars qs, by simp [hcons], by simpa [hcons] using hp⟩

end Renders

/-- A list-typed parameter that stands for the members of an `IN` list. -/
theorem readsAs_listParameter {r : SqlRenderer} {list : List BoundExpr} {reference : ParameterRef}
    {ps : Pieces} (h : r.listParameter list = .ok (some reference))
    (hps : r.renderParameter reference = .ok ps) : ReadsAs r (exprsNodes list) ps := by
  unfold SqlRenderer.listParameter at h
  split at h
  · simp only [exprsNodes, exprNodes, List.append_nil]
    exact .of_reads (reads_parameter hps).1 (by simp [SqlRenderer.lexes])
  · cases h

/-- The CTEs before a body. -/
theorem readsAs_with {r : SqlRenderer} {ns ms : List PlanNode} {ctes : List Pieces} {body : Pieces}
    (h : ReadsAs r ns (Pieces.join ", " ctes)) (h' : ReadsAs r ms body) :
    ReadsAs r (ns ++ ms) ((if ctes.isEmpty then [] else clause "WITH " ctes ++ [" "]) ++ body) := by
  cases ctes with
  | nil => exact h.of_nil_append h'
  | cons c cs =>
    rw [if_neg (by simp), List.append_assoc]
    exact (h.clause (by decide)).between (by decide) (by decide) h'

mutual

/-- A rendered query is read as its nodes. -/
theorem readsAs_query {r : SqlRenderer} : ∀ {q : BoundQueryPlan} {ps : Pieces},
    renderQueryInner r q = .ok ps → ReadsAs r (queryNodes q) ps
  | ⟨_, ctes, body, orderBy, limit, offset, clauses, _⟩, ps, h => by
    rw [renderQueryInner] at h
    obtain ⟨ctePieces, hctes, h⟩ := bind_eq_ok.mp h
    obtain ⟨bodyPieces, hbody, h⟩ := bind_eq_ok.mp h
    obtain ⟨orderPieces, horder, h⟩ := bind_eq_ok.mp h
    obtain ⟨limitPieces, hlimit, h⟩ := bind_eq_ok.mp h
    obtain ⟨offsetPieces, hoffset, h⟩ := bind_eq_ok.mp h
    rw [pure_eq_ok] at h
    subst h
    rw [queryNodes]
    exact ((((readsAs_with (readsAs_ctes hctes) (readsAs_setExpr hbody)).append
      ((readsAs_orderBys horder).clause (by decide)) (safe_clause (by decide))).append
      (readsAs_exprOption _ hlimit (by decide)) (safe_optionClause (by decide))).append
      (readsAs_exprOption _ hoffset (by decide)) (safe_optionClause (by decide))).append
      (readsAs_backendClauses clauses).1 (readsAs_backendClauses clauses).2

/-- Rendered CTEs are read as their nodes. -/
theorem readsAs_ctes {r : SqlRenderer} : ∀ {ctes : List BoundCte} {parts : List Pieces},
    renderCtes r ctes = .ok parts → ReadsAs r (cteNodes ctes) (Pieces.join ", " parts)
  | [], parts, h => by
    rw [renderCtes, pure_eq_ok] at h
    subst h
    rw [cteNodes]
    exact .nil
  | ⟨name, columns, query, _, _⟩ :: ctes, parts, h => by
    rw [renderCtes] at h
    obtain ⟨namePiece, hname, h⟩ := bind_eq_ok.mp h
    obtain ⟨columnPieces, hcolumns, h⟩ := bind_eq_ok.mp h
    obtain ⟨queryPieces, hquery, h⟩ := bind_eq_ok.mp h
    obtain ⟨rest, hrest, h⟩ := bind_eq_ok.mp h
    rw [pure_eq_ok] at h
    subst h
    rw [cteNodes]
    have hhead := (readsAs_identifier hname).append (readsAs_cteColumns hcolumns)
      (safe_cteColumns hcolumns)
    have hcte := hhead.between (p := " AS (") (by decide) (by decide)
      ((readsAs_query hquery).append_glue (p := ")") (by decide) (by decide))
    have := hcte.join_cons (p := ", ") (by decide) (by decide) (readsAs_ctes hrest)
    simpa using this

/-- A rendered query body is read as its nodes. -/
theorem readsAs_setExpr {r : SqlRenderer} : ∀ {s : BoundSetExpr} {ps : Pieces},
    renderSetExpr r s = .ok ps → ReadsAs r (setExprNodes s) ps
  | .select s, ps, h => by
    rw [renderSetExpr] at h
    rw [setExprNodes]
    exact readsAs_select h
  | .unionAll left right _ _, ps, h => by
    rw [renderSetExpr] at h
    obtain ⟨leftPieces, hleft, h⟩ := bind_eq_ok.mp h
    obtain ⟨rightPieces, hright, h⟩ := bind_eq_ok.mp h
    rw [pure_eq_ok] at h
    subst h
    rw [setExprNodes, List.append_assoc]
    exact (readsAs_wrapped hleft).between (by decide) (by decide) (readsAs_wrapped hright)
  | .unsupported .., ps, h => by
    rw [renderSetExpr] at h
    cases h

/-- A rendered branch is read as its nodes. -/
theorem readsAs_wrapped {r : SqlRenderer} : ∀ {s : BoundSetExpr} {ps : Pieces},
    wrapSetExpr r s = .ok ps → ReadsAs r (setExprNodes s) ps
  | .select s, ps, h => by
    rw [wrapSetExpr] at h
    rw [setExprNodes]
    exact readsAs_select h
  | .unionAll left right _ _, ps, h => by
    rw [wrapSetExpr] at h
    obtain ⟨leftPieces, hleft, h⟩ := bind_eq_ok.mp h
    obtain ⟨rightPieces, hright, h⟩ := bind_eq_ok.mp h
    rw [pure_eq_ok] at h
    subst h
    have := (readsAs_wrapped hleft).between (p := " UNION ALL ") (by decide) (by decide)
      (readsAs_wrapped hright)
    rw [setExprNodes, List.append_assoc, List.append_assoc leftPieces]
    exact .enclosed (by decide) this (by decide) (by decide)
  | .unsupported .., ps, h => by
    rw [wrapSetExpr] at h
    cases h

/-- A rendered select is read as its nodes. -/
theorem readsAs_select {r : SqlRenderer} : ∀ {s : BoundSelect} {ps : Pieces},
    renderSelect r s = .ok ps → ReadsAs r (selectNodes s) ps
  | ⟨distinct, projection, from_, selection, groupBy, having, _, _⟩, ps, h => by
    rw [renderSelect] at h
    obtain ⟨projectionPieces, hprojection, h⟩ := bind_eq_ok.mp h
    obtain ⟨fromPieces, hfrom, h⟩ := bind_eq_ok.mp h
    obtain ⟨selectionPieces, hselection, h⟩ := bind_eq_ok.mp h
    obtain ⟨groupPieces, hgroup, h⟩ := bind_eq_ok.mp h
    obtain ⟨havingPieces, hhaving, h⟩ := bind_eq_ok.mp h
    rw [pure_eq_ok] at h
    subst h
    rw [selectNodes]
    -- The projection, and then the clauses in the order of the text.
    have hstart : ReadsAs r (projectionNodes projection)
        (["SELECT "] ++ (if distinct then ["DISTINCT "] else []) ++
          Pieces.join ", " projectionPieces) := by
      rw [List.append_assoc]
      refine .glue_append (by decide) ?_
      cases distinct
      · exact readsAs_projections hprojection
      · exact .glue_append (by decide) (readsAs_projections hprojection)
    exact (((hstart.append ((readsAs_tables hfrom).clause (by decide))
      (safe_clause (by decide))).append
      (readsAs_exprOption _ hselection (by decide)) (safe_optionClause (by decide))).append
      ((readsAs_exprs hgroup).clause (by decide)) (safe_clause (by decide))).append
      (readsAs_exprOption _ hhaving (by decide)) (safe_optionClause (by decide))

/-- A rendered projection is read as its nodes. -/
theorem readsAs_projections {r : SqlRenderer} : ∀ {items : List BoundProjectionItem}
    {parts : List Pieces}, renderProjections r items = .ok parts →
    ReadsAs r (projectionNodes items) (Pieces.join ", " parts)
  | [], parts, h => by
    rw [renderProjections, pure_eq_ok] at h
    subst h
    rw [projectionNodes]
    exact .nil
  -- An expression with its alias, then the rest behind a comma.
  | .expr ⟨expr, alias_, _, _⟩ :: items, parts, h => by
    rw [renderProjections] at h
    obtain ⟨item, hitem, h⟩ := bind_eq_ok.mp h
    obtain ⟨rest, hrest, h⟩ := bind_eq_ok.mp h
    rw [pure_eq_ok] at h
    subst h
    rw [renderProjection] at hitem
    obtain ⟨exprPieces, hexpr, h⟩ := bind_eq_ok.mp hitem
    obtain ⟨aliasPieces, halias, h⟩ := bind_eq_ok.mp h
    rw [pure_eq_ok] at h
    subst h
    obtain ⟨halias, hsafe⟩ := readsAs_alias halias
    rw [projectionNodes]
    exact .join_cons (by decide) (by decide) ((renders_expr hexpr).reads.append halias hsafe)
      (readsAs_projections hrest)
  | .wildcard qualifier _ _ :: items, parts, h => by
    rw [renderProjections] at h
    obtain ⟨item, hitem, h⟩ := bind_eq_ok.mp h
    obtain ⟨rest, hrest, h⟩ := bind_eq_ok.mp h
    rw [pure_eq_ok] at h
    subst h
    rw [renderProjection] at hitem
    rw [projectionNodes]
    exact .join_cons (by decide) (by decide) (readsAs_wildcard hitem) (readsAs_projections hrest)
  | .unsupported .. :: items, parts, h => by
    rw [renderProjections, renderProjection] at h
    cases h

/-- A rendered `FROM` clause is read as its nodes. -/
theorem readsAs_tables {r : SqlRenderer} : ∀ {tables : List BoundTableWithJoins}
    {parts : List Pieces}, renderTables r tables = .ok parts →
    ReadsAs r (tablesNodes tables) (Pieces.join ", " parts)
  | [], parts, h => by
    rw [renderTables, pure_eq_ok] at h
    subst h
    rw [tablesNodes]
    exact .nil
  | table :: tables, parts, h => by
    rw [renderTables] at h
    obtain ⟨tablePieces, htable, h⟩ := bind_eq_ok.mp h
    obtain ⟨rest, hrest, h⟩ := bind_eq_ok.mp h
    rw [pure_eq_ok] at h
    subst h
    rw [tablesNodes]
    exact .join_cons (by decide) (by decide) (readsAs_tableWithJoins htable) (readsAs_tables hrest)

/-- A rendered table with joins is read as its nodes. -/
theorem readsAs_tableWithJoins {r : SqlRenderer} : ∀ {table : BoundTableWithJoins} {ps : Pieces},
    renderTableWithJoins r table = .ok ps → ReadsAs r (tableWithJoinsNodes table) ps
  | ⟨relation, joins, _⟩, ps, h => by
    rw [renderTableWithJoins] at h
    obtain ⟨relationPieces, hrelation, h⟩ := bind_eq_ok.mp h
    obtain ⟨joinPieces, hjoins, h⟩ := bind_eq_ok.mp h
    rw [pure_eq_ok] at h
    subst h
    rw [tableWithJoinsNodes]
    exact (readsAs_relation hrelation).append (readsAs_joins hjoins).1 (readsAs_joins hjoins).2

/-- Rendered joins are read as their nodes, and safe to follow. -/
theorem readsAs_joins {r : SqlRenderer} : ∀ {joins : List BoundJoin} {ps : Pieces},
    renderJoins r joins = .ok ps → ReadsAs r (joinNodes joins) ps ∧ Safe (chars ps)
  | [], ps, h => by
    rw [renderJoins, pure_eq_ok] at h
    subst h
    rw [joinNodes]
    exact ⟨.nil, Safe.nil⟩
  | ⟨kind, relation, on, _⟩ :: joins, ps, h => by
    rw [renderJoins] at h
    obtain ⟨relationPieces, hrelation, h⟩ := bind_eq_ok.mp h
    obtain ⟨onPieces, hon, h⟩ := bind_eq_ok.mp h
    obtain ⟨rest, hrest, h⟩ := bind_eq_ok.mp h
    rw [pure_eq_ok] at h
    subst h
    rw [joinNodes]
    obtain ⟨ih, hsafe⟩ := readsAs_joins hrest
    have hkeyword : joinKeyword kind ∈ gluePieces := by cases kind <;> decide
    have hjoin := ((readsAs_relation hrelation).append (readsAs_exprOption " ON " hon
      (by decide)) (safe_optionClause (by decide))).append ih hsafe
    refine ⟨?_, safe_cons (by decide) _⟩
    have := ReadsAs.glue_append (p := " ") (by decide) (ReadsAs.glue_append hkeyword hjoin)
    simpa using this

/-- A rendered relation is read as its nodes. -/
theorem readsAs_relation {r : SqlRenderer} : ∀ {relation : BoundRelation} {ps : Pieces},
    renderRelation r relation = .ok ps → ReadsAs r (relationNodes relation) ps
  | .table binding _, ps, h => by
    rw [renderRelation] at h
    rw [relationNodes]
    exact readsAs_table h
  -- A derived table and a nested join are enclosed and named alike.
  | .derived binding query _, ps, h => by
    rw [renderRelation] at h
    obtain ⟨queryPieces, hquery, h⟩ := bind_eq_ok.mp h
    obtain ⟨name, hname, h⟩ := bind_eq_ok.mp h
    rw [pure_eq_ok] at h
    subst h
    rw [relationNodes]
    have := (ReadsAs.enclosed (o := "(") (c := ")") (by decide) (readsAs_query hquery)
      (by decide) (by decide)).between (p := " AS ") (by decide) (by decide)
        (readsAs_identifier hname)
    simpa using this
  | .nestedJoin binding table _, ps, h => by
    rw [renderRelation] at h
    obtain ⟨tablePieces, htable, h⟩ := bind_eq_ok.mp h
    obtain ⟨name, hname, h⟩ := bind_eq_ok.mp h
    rw [pure_eq_ok] at h
    subst h
    rw [relationNodes]
    have := (ReadsAs.enclosed (o := "(") (c := ")") (by decide) (readsAs_tableWithJoins htable)
      (by decide) (by decide)).between (p := " AS ") (by decide) (by decide)
        (readsAs_identifier hname)
    simpa using this
  | .unsupported .., ps, h => by
    rw [renderRelation] at h
    cases h

/-- A rendered `ORDER BY` is read as its nodes. -/
theorem readsAs_orderBys {r : SqlRenderer} :
    ∀ {orders : List BoundOrderByExpr} {parts : List Pieces},
    renderOrderBys r orders = .ok parts → ReadsAs r (orderByNodes orders) (Pieces.join ", " parts)
  | [], parts, h => by
    rw [renderOrderBys, pure_eq_ok] at h
    subst h
    rw [orderByNodes]
    exact .nil
  | ⟨expr, asc, nullsFirst, _⟩ :: orders, parts, h => by
    rw [renderOrderBys] at h
    obtain ⟨order, horder, h⟩ := bind_eq_ok.mp h
    obtain ⟨rest, hrest, h⟩ := bind_eq_ok.mp h
    rw [pure_eq_ok] at h
    subst h
    rw [renderOrderBy] at horder
    obtain ⟨exprPieces, hexpr, h⟩ := bind_eq_ok.mp horder
    rw [pure_eq_ok] at h
    subst h
    rw [orderByNodes]
    obtain ⟨hsuffix, hsafe⟩ := readsAs_orderSuffix (r := r) asc nullsFirst
    -- The expression is followed by its direction, which starts with a blank.
    have hone := (renders_expr hexpr).reads.append hsuffix hsafe
    rw [List.append_nil] at hone
    exact .join_cons (by decide) (by decide) hone (readsAs_orderBys hrest)

/-- A rendered list of expressions is read as its nodes. -/
theorem readsAs_exprs {r : SqlRenderer} : ∀ {exprs : List BoundExpr} {parts : List Pieces},
    renderExprs r exprs = .ok parts → ReadsAs r (exprsNodes exprs) (Pieces.join ", " parts)
  | [], parts, h => by
    rw [renderExprs, pure_eq_ok] at h
    subst h
    rw [exprsNodes]
    exact .nil
  | expr :: exprs, parts, h => by
    rw [renderExprs] at h
    obtain ⟨exprPieces, hexpr, h⟩ := bind_eq_ok.mp h
    obtain ⟨rest, hrest, h⟩ := bind_eq_ok.mp h
    rw [pure_eq_ok] at h
    subst h
    rw [exprsNodes]
    exact .join_cons (by decide) (by decide) (renders_expr hexpr).reads (readsAs_exprs hrest)

/-- A rendered optional expression is read as its nodes. -/
theorem readsAs_exprOption {r : SqlRenderer} (keyword : String) : ∀ {o : Option BoundExpr}
    {part : Option Pieces}, renderExprOption r o = .ok part → keyword ∈ gluePieces →
    ReadsAs r (exprOptionNodes o) (optionClause keyword part)
  | none, part, h, _ => by
    rw [renderExprOption, pure_eq_ok] at h
    subst h
    rw [exprOptionNodes]
    exact .nil
  | some expr, part, h, hkeyword => by
    rw [renderExprOption] at h
    obtain ⟨exprPieces, hexpr, h⟩ := bind_eq_ok.mp h
    rw [pure_eq_ok] at h
    subst h
    rw [exprOptionNodes]
    exact .glue_append hkeyword (renders_expr hexpr).reads

/-- Rendered branches of a `CASE` are read as their nodes, and safe to follow. -/
theorem readsAs_whenThens {r : SqlRenderer} : ∀ {pairs : List BoundWhenThen} {ps : Pieces},
    renderWhenThens r pairs = .ok ps → ReadsAs r (whenThenNodes pairs) ps ∧ Safe (chars ps)
  | [], ps, h => by
    rw [renderWhenThens, pure_eq_ok] at h
    subst h
    rw [whenThenNodes]
    exact ⟨.nil, Safe.nil⟩
  | ⟨condition, result⟩ :: pairs, ps, h => by
    rw [renderWhenThens] at h
    obtain ⟨conditionPieces, hcondition, h⟩ := bind_eq_ok.mp h
    obtain ⟨resultPieces, hresult, h⟩ := bind_eq_ok.mp h
    obtain ⟨rest, hrest, h⟩ := bind_eq_ok.mp h
    rw [pure_eq_ok] at h
    subst h
    rw [whenThenNodes]
    obtain ⟨ih, hsafe⟩ := readsAs_whenThens hrest
    refine ⟨?_, safe_cons (by decide) _⟩
    have hpair := ReadsAs.glue_append (p := " WHEN ") (by decide)
      ((renders_expr hcondition).reads.between (p := " THEN ") (by decide) (by decide)
        (renders_expr hresult).reads)
    have := hpair.append ih hsafe
    simpa using this

/-- A rendered window is read as its nodes, and safe to follow. -/
theorem readsAs_window {r : SqlRenderer} : ∀ {over_ : Option BoundWindowSpec} {ps : Pieces},
    renderWindow r over_ = .ok ps → ReadsAs r (windowNodes over_) ps ∧ Safe (chars ps)
  | none, ps, h => by
    rw [renderWindow, pure_eq_ok] at h
    subst h
    rw [windowNodes]
    exact ⟨.nil, Safe.nil⟩
  | some ⟨partitionBy, orderBy, _⟩, ps, h => by
    rw [renderWindow] at h
    obtain ⟨partitionPieces, hpartition, h⟩ := bind_eq_ok.mp h
    obtain ⟨orderPieces, horder, h⟩ := bind_eq_ok.mp h
    rw [pure_eq_ok] at h
    subst h
    rw [windowNodes, List.append_assoc]
    refine ⟨?_, safe_cons (by decide) _⟩
    have hpartition := readsAs_exprs hpartition
    have horder := readsAs_orderBys horder
    refine .enclosed (by decide) ?_ (by decide) (by decide)
    -- Each of the two parts is left out when it is empty.
    have horderPart : ReadsAs r (orderByNodes orderBy) (Pieces.join " "
        (if orderPieces.isEmpty then [] else [clause "ORDER BY " orderPieces])) := by
      cases orderPieces with
      | nil => exact horder
      | cons p parts =>
        have := ReadsAs.join_cons (p := " ") (l := []) (by decide) (by decide)
          (horder.clause (k := "ORDER BY ") (by decide)) .nil
        rwa [List.append_nil] at this
    cases partitionPieces with
    | nil => exact hpartition.of_nil_append horderPart
    | cons p parts =>
      exact .join_cons (by decide) (by decide) (hpartition.clause (by decide)) horderPart

/-- A rendered call is read as its function and the nodes of its parts. -/
theorem readsAs_function {r : SqlRenderer} : ∀ {call : BoundFunctionCall} {ps : Pieces},
    renderFunction r call = .ok ps →
    ReadsAs r (.function call.function :: (exprsNodes call.args ++ exprOptionNodes call.filter ++
      windowNodes call.over_)) ps ∧ Starts r.backend.rules ps
  | ⟨function, _, args, distinct, filter, over_, _⟩, ps, h => by
    rw [renderFunction] at h
    obtain ⟨mapped, hmapped, h⟩ := bind_eq_ok.mp h
    obtain ⟨argPieces, hargs, h⟩ := bind_eq_ok.mp h
    obtain ⟨name, hname, h⟩ := bind_eq_ok.mp h
    obtain ⟨filterPieces, hfilter, h⟩ := bind_eq_ok.mp h
    obtain ⟨overPieces, hover, h⟩ := bind_eq_ok.mp h
    rw [pure_eq_ok] at h
    subst h
    obtain ⟨hnameReads, hstarts⟩ := reads_functionRef hname
    have hname' : ReadsAs r [.function function] name :=
      .of_reads hnameReads (by simp [SqlRenderer.lexes, hmapped])
    -- `count` without arguments is written with a star.
    have hargs' : ReadsAs r (exprsNodes args)
        (if eqIgnoreAsciiCase function.name "count" && args.isEmpty then ["*"]
          else Pieces.join ", " argPieces) := by
      split_ifs with hcount
      · rw [Bool.and_eq_true, List.isEmpty_iff] at hcount
        rw [hcount.2, exprsNodes]
        exact .piece (by decide)
      · exact readsAs_exprs hargs
    -- The filter clause starts with a space, so it does not touch the call.
    have hfilter' : ReadsAs r (exprOptionNodes filter) (filterClause filterPieces) ∧
        Safe (chars (filterClause filterPieces)) := by
      have hpart := readsAs_exprOption " FILTER (WHERE " hfilter (by decide)
      cases filterPieces with
      | none => exact ⟨hpart, Safe.nil⟩
      | some part => exact ⟨hpart.append_glue (by decide) (by decide), safe_cons (by decide) _⟩
    obtain ⟨hover', hsafe⟩ := readsAs_window hover
    -- What stands in the brackets of the call.
    have hcall : ReadsAs r (exprsNodes args) ((if distinct then ["DISTINCT "] else []) ++
        ((if eqIgnoreAsciiCase function.name "count" && args.isEmpty then ["*"]
          else Pieces.join ", " argPieces) ++ [")"])) := by
      have := hargs'.append_glue (p := ")") (by decide) (by decide)
      cases distinct
      · exact this
      · exact .glue_append (by decide) this
    have := ((hname'.between (p := "(") (by decide) (by decide) hcall).append hfilter'.1
      hfilter'.2).append hover' hsafe
    refine ⟨by simpa using this, ?_⟩
    simp only [List.append_assoc]
    exact hstarts.append _

/-- A rendered expression is read as its nodes, and as one that starts. -/
theorem renders_expr {r : SqlRenderer} : ∀ {e : BoundExpr} {ps : Pieces},
    renderExpr r e = .ok ps → Renders r e ps
  | ⟨.column column, ty, nu, nd⟩, ps, h => by
    rw [renderExpr] at h
    obtain ⟨hreads, hstart⟩ := reads_column h
    refine .of_starts ?_ hstart.starts rfl
    rw [exprNodes]
    refine .cons (.of_reads hreads ?_) rfl
    cases column.relation <;> simp [SqlRenderer.lexes]
  | ⟨.literal value, ty, nu, nd⟩, ps, h => by
    rw [renderExpr, pure_eq_ok] at h
    subst h
    have hcopies (hraw : ∀ n ∈ exprNodes ⟨.literal value, ty, nu, nd⟩, r.Copies n) :
        ∀ text, value = .float64 text → isNumeral text = true := by
      rintro text rfl
      exact hraw (.expr ⟨.literal (.float64 text), ty, nu, nd⟩) (by simp [exprNodes])
    refine ⟨fun hraw => (reads_literal (hcopies hraw)).congr ?_,
      fun hraw => (leads_literal (hcopies hraw)).1, fun hraw => ?_⟩
    · simp [exprNodes, SqlRenderer.lexes]
    · rw [leadingMinus]
      exact (leads_literal (b := r.backend) (hcopies hraw)).2
  | ⟨.parameter reference, ty, nu, nd⟩, ps, h => by
    rw [renderExpr] at h
    obtain ⟨hreads, hstarts⟩ := reads_parameter h
    refine .of_starts ?_ hstarts rfl
    rw [exprNodes]
    exact .of_reads hreads (by simp [SqlRenderer.lexes])
  | ⟨.unary op operand, ty, nu, nd⟩, ps, h => by
    rw [renderExpr] at h
    obtain ⟨operandPieces, hoperand, h⟩ := bind_eq_ok.mp h
    rw [pure_eq_ok] at h
    subst h
    have hx := renders_expr hoperand
    cases op with
    | plus =>
      exact hx.sign '+' rfl (by decide) (by simp [leadingMinus]) (by simp [SqlRenderer.lexes])
    | minus =>
      exact hx.sign '-' rfl (by decide) (by simp [leadingMinus]) (by simp [SqlRenderer.lexes])
    | not =>
      refine .of_starts ?_ (starts_piece _ (by decide) _) rfl
      rw [exprNodes]
      exact .cons (.glue_append (by decide) hx.reads) rfl
  | ⟨.binary op left right, ty, nu, nd⟩, ps, h => by
    rw [renderExpr] at h
    obtain ⟨leftPieces, hleft, h⟩ := bind_eq_ok.mp h
    obtain ⟨rightPieces, hright, h⟩ := bind_eq_ok.mp h
    rw [pure_eq_ok] at h
    subst h
    have hop : renderBinaryOperator op ∈ wordPieces := by cases op <;> decide
    have hmiddle : ReadsAs r [] [renderBinaryOperator op] := .piece hop
    have := (renders_expr hleft).reads.between (p := " ") (by decide) (by decide)
      (hmiddle.between (p := " ") (by decide) (by decide) (renders_expr hright).reads)
    have hreads := ReadsAs.enclosed (o := "(") (c := ")") (by decide) this (by decide)
      (by decide)
    refine .of_starts ?_ (starts_piece _ (by decide) _) rfl
    rw [exprNodes]
    exact .cons (by simpa using hreads) rfl
  | ⟨.function ⟨function, backendName, args, distinct, filter, over_, signatureName⟩, ty, nu, nd⟩,
  ps,
      h => by
    rw [renderExpr] at h
    obtain ⟨hreads, hstarts⟩ := readsAs_function h
    refine .of_starts ?_ hstarts rfl
    rw [exprNodes]
    exact .cons hreads rfl
  | ⟨.case operand whenThen elseResult, ty, nu, nd⟩, ps, h => by
    rw [renderExpr] at h
    obtain ⟨operandPieces, hoperand, h⟩ := bind_eq_ok.mp h
    obtain ⟨whenPieces, hwhen, h⟩ := bind_eq_ok.mp h
    obtain ⟨elsePieces, helse, h⟩ := bind_eq_ok.mp h
    rw [pure_eq_ok] at h
    subst h
    obtain ⟨hwhen', hsafe⟩ := readsAs_whenThens hwhen
    have hcase : ReadsAs r [] ["CASE"] := .piece (by decide)
    have hend : ReadsAs r [] [" END"] := .piece (by decide)
    have := (((hcase.append (readsAs_exprOption " " hoperand (by decide))
      (safe_optionClause (by decide))).append hwhen' hsafe).append
      (readsAs_exprOption " ELSE " helse (by decide)) (safe_optionClause (by decide))).append
      hend (safe_cons (by decide) _)
    refine .of_starts ?_ ?_ rfl
    · rw [exprNodes]
      exact .cons (by simpa using this) rfl
    · simp only [List.append_assoc]
      exact starts_piece _ (by decide) _
  | ⟨.cast x type, ty, nu, nd⟩, ps, h => by
    rw [renderExpr] at h
    obtain ⟨xPieces, hx, h⟩ := bind_eq_ok.mp h
    obtain ⟨name, hname, h⟩ := bind_eq_ok.mp h
    rw [pure_eq_ok] at h
    subst h
    have htype : ReadsAs r [] [name] := .of_reads (plain_typeName hname).reads (by simp)
    have := ReadsAs.enclosed (o := "CAST(") (c := ")") (by decide)
      ((renders_expr hx).reads.between (p := " AS ") (by decide) (by decide) htype) (by decide)
      (by decide)
    refine .of_starts ?_ ?_ rfl
    · rw [exprNodes]
      exact .cons (by simpa using this) rfl
    · simp only [List.append_assoc]
      exact starts_piece _ (by decide) _
  | ⟨.between x low high negated, ty, nu, nd⟩, ps, h => by
    rw [renderExpr] at h
    obtain ⟨xPieces, hx, h⟩ := bind_eq_ok.mp h
    obtain ⟨lowPieces, hlow, h⟩ := bind_eq_ok.mp h
    obtain ⟨highPieces, hhigh, h⟩ := bind_eq_ok.mp h
    rw [pure_eq_ok] at h
    subst h
    have hbounds := (renders_expr hlow).reads.between (p := " AND ") (by decide) (by decide)
      (renders_expr hhigh).reads
    have htail :=
      ReadsAs.negation negated (ReadsAs.glue_append (p := "BETWEEN ") (by decide) hbounds)
    have := (renders_expr hx).reads.between (p := " ") (by decide) (by decide) htail
    simp only [List.append_assoc]
    refine (renders_expr hx).of_renders (fun n hn => by simp [exprNodes, hn]) ?_
      (by rw [leadingMinus])
    rw [exprNodes]
    exact .cons (by simpa using this) rfl
  | ⟨.inList x list negated, ty, nu, nd⟩, ps, h => by
    rw [renderExpr] at h
    obtain ⟨parameter, hparameter, h⟩ := bind_eq_ok.mp h
    -- Either way the text is the operand, a space and what the members are written as.
    obtain ⟨xPieces, tail, hx, rfl, htail⟩ : ∃ xPieces tail, renderExpr r x = .ok xPieces ∧
        ps = xPieces ++ ([" "] ++ tail) ∧ ReadsAs r (exprsNodes list) tail := by
      cases parameter with
      | some reference =>
        obtain ⟨xPieces, hx, h⟩ := bind_eq_ok.mp h
        obtain ⟨parameterPieces, hpieces, h⟩ := bind_eq_ok.mp h
        have hlist := readsAs_listParameter hparameter hpieces
        cases hb : r.backend with
        | postgres =>
          rw [hb, pure_eq_ok] at h
          have hword : ReadsAs r [] [if negated then "<> ALL" else "= ANY"] := by
            cases negated <;> exact .piece (by decide)
          have := hword.between (p := "(") (by decide) (by decide)
            (hlist.append_glue (p := ")") (by decide) (by decide))
          exact ⟨xPieces, _, hx, by simp [← h], this⟩
        | clickHouse =>
          rw [hb, pure_eq_ok] at h
          exact ⟨xPieces, _, hx, by simp [← h],
            .negation negated (.glue_append (p := "IN ") (by decide) hlist)⟩
      | none =>
        obtain ⟨xPieces, hx, h⟩ := bind_eq_ok.mp h
        obtain ⟨listPieces, hlist, h⟩ := bind_eq_ok.mp h
        rw [pure_eq_ok] at h
        exact ⟨xPieces, _, hx, by simp [← h], .negation negated (.enclosed (o := "IN (")
          (c := ")") (by decide) (readsAs_exprs hlist) (by decide) (by decide))⟩
    have := (renders_expr hx).reads.between (p := " ") (by decide) (by decide) htail
    refine (renders_expr hx).of_renders (fun n hn => by simp [exprNodes, hn]) ?_
      (by rw [leadingMinus])
    rw [exprNodes]
    exact .cons this rfl
  | ⟨.inSubquery x query negated, ty, nu, nd⟩, ps, h => by
    rw [renderExpr] at h
    obtain ⟨xPieces, hx, h⟩ := bind_eq_ok.mp h
    obtain ⟨queryPieces, hquery, h⟩ := bind_eq_ok.mp h
    rw [pure_eq_ok] at h
    subst h
    have htail := ReadsAs.negation negated (ReadsAs.enclosed (o := "IN (") (c := ")")
      (by decide) (readsAs_query hquery) (by decide) (by decide))
    have := (renders_expr hx).reads.between (p := " ") (by decide) (by decide) htail
    simp only [List.append_assoc]
    refine (renders_expr hx).of_renders (fun n hn => by simp [exprNodes, hn]) ?_
      (by rw [leadingMinus])
    rw [exprNodes]
    exact .cons (by simpa using this) rfl
  | ⟨.scalarSubquery query, ty, nu, nd⟩, ps, h => by
    rw [renderExpr] at h
    obtain ⟨queryPieces, hquery, h⟩ := bind_eq_ok.mp h
    rw [pure_eq_ok] at h
    subst h
    rw [List.append_assoc]
    refine .of_starts ?_ (starts_piece _ (by decide) _) rfl
    rw [exprNodes]
    exact .cons (.enclosed (by decide) (readsAs_query hquery) (by decide) (by decide)) rfl
  | ⟨.exists query, ty, nu, nd⟩, ps, h => by
    rw [renderExpr] at h
    obtain ⟨queryPieces, hquery, h⟩ := bind_eq_ok.mp h
    rw [pure_eq_ok] at h
    subst h
    rw [List.append_assoc]
    refine .of_starts ?_ (starts_piece _ (by decide) _) rfl
    rw [exprNodes]
    exact .cons (.enclosed (by decide) (readsAs_query hquery) (by decide) (by decide)) rfl
  | ⟨.like x pattern negated caseInsensitive, ty, nu, nd⟩, ps, h => by
    rw [renderExpr] at h
    obtain ⟨xPieces, hx, h⟩ := bind_eq_ok.mp h
    obtain ⟨patternPieces, hpattern, h⟩ := bind_eq_ok.mp h
    rw [pure_eq_ok] at h
    subst h
    have hword : ReadsAs r [] [if caseInsensitive then "ILIKE" else "LIKE"] := by
      cases caseInsensitive <;> exact .piece (by decide)
    have htail := ReadsAs.negation negated (hword.between (p := " ") (by decide) (by decide)
      (renders_expr hpattern).reads)
    have := (renders_expr hx).reads.between (p := " ") (by decide) (by decide) htail
    simp only [List.append_assoc]
    refine (renders_expr hx).of_renders (fun n hn => by simp [exprNodes, hn]) ?_
      (by rw [leadingMinus])
    rw [exprNodes]
    exact .cons (by simpa using this) rfl
  | ⟨.isNull x negated, ty, nu, nd⟩, ps, h => by
    rw [renderExpr] at h
    obtain ⟨xPieces, hx, h⟩ := bind_eq_ok.mp h
    rw [pure_eq_ok] at h
    subst h
    have hnull : ReadsAs r [] ["NULL"] := .piece (by decide)
    have := (renders_expr hx).reads.between (p := " IS ") (by decide) (by decide)
      (ReadsAs.negation negated hnull)
    simp only [List.append_assoc]
    refine (renders_expr hx).of_renders (fun n hn => by simp [exprNodes, hn]) ?_
      (by rw [leadingMinus])
    rw [exprNodes]
    exact .cons (by simpa using this) rfl
  | ⟨.tuple items, ty, nu, nd⟩, ps, h => by
    rw [renderExpr] at h
    obtain ⟨itemPieces, hitems, h⟩ := bind_eq_ok.mp h
    rw [pure_eq_ok] at h
    subst h
    rw [List.append_assoc]
    refine .of_starts ?_ (starts_piece _ (by decide) _) rfl
    rw [exprNodes]
    exact .cons (.enclosed (by decide) (readsAs_exprs hitems) (by decide) (by decide)) rfl
  | ⟨.array items, ty, nu, nd⟩, ps, h => by
    rw [renderExpr] at h
    obtain ⟨itemPieces, hitems, h⟩ := bind_eq_ok.mp h
    rw [pure_eq_ok] at h
    subst h
    rw [List.append_assoc]
    have hopen : (match r.backend with | .clickHouse => "[" | .postgres => "ARRAY[") ∈
        gluePieces := by
      cases r.backend <;> decide
    refine .of_starts ?_ (starts_piece _ (List.mem_append_left _ hopen) _) rfl
    rw [exprNodes]
    exact .cons (.enclosed hopen (readsAs_exprs hitems) (by decide) (by decide)) rfl
  | ⟨.unsupported description, ty, nu, nd⟩, ps, h => by
    rw [renderExpr] at h
    cases h

end

/-- A backend reads the tokens that were written, and no comment between them. -/
def lexesAsWritten (backend : SqlBackend) (ps : Pieces) : Bool :=
  lex backend.rules ps.text.toList == writtenTokens backend.rules ps &&
    !meetsComment backend.rules ps.text.toList

/-- The characters of a text are those of its pieces. -/
theorem toList_text (ps : Pieces) : ps.text.toList = chars ps := by
  rw [Pieces.text, String.toList_join]
  rfl

/-- `render_expr` writes what the backend reads exactly when no minus stands before a minus and each
quoted text closes where it was written. -/
theorem lexesAsWritten_renderExpr_iff {r : SqlRenderer} {e : BoundExpr} {ps : Pieces}
    (h : renderExpr r e = .ok ps) (hcopies : ∀ n ∈ exprNodes e, r.Copies n) :
    lexesAsWritten r.backend ps = true ↔ ∀ n ∈ exprNodes e, r.lexes n = true := by
  have hreads := (renders_expr h).reads hcopies
  rw [lexesAsWritten, toList_text, Bool.and_eq_true, beq_iff_eq, Bool.not_eq_true',
    hreads.lex_eq_iff Safe.nil]
  constructor
  · exact fun hlex => hlex.1
  · exact fun hok => ⟨hok, hreads.meetsComment_eq_false ((hreads.lex_eq_iff Safe.nil).mpr hok)⟩

/-- A renderer over the sample catalog, without parameters. -/
def eventsRenderer (backend : SqlBackend) : SqlRenderer :=
  { backend, catalog := eventsCatalog, parameterOrder := [] }

/-- An integer expression of the sample queries. -/
def integerExpr (kind : BoundExprKind) : BoundExpr :=
  { kind, dataType := .int64, nullable := false, node := sampleNode "e" }

/-- `-id`. -/
def negatedId : BoundExpr :=
  integerExpr (.unary .minus (integerExpr (.column { relation := none, name := "id" })))

/-- `-id NOT BETWEEN 1.5 AND 'it''s'`. -/
def idOutside : BoundExpr :=
  integerExpr (.between negatedId (integerExpr (.literal (.float64 "1.5")))
    (integerExpr (.literal (.utf8 "it's"))) true)

/-- A sign, a number and a quoted text are read as they were written. -/
theorem lexesAsWritten_idOutside :
    ∃ ps, renderExpr (eventsRenderer .clickHouse) idOutside = .ok ps ∧
    lexesAsWritten .clickHouse ps = true := by
  refine ⟨["-", "id", " ", "NOT ", "BETWEEN ", "1.5", " AND ", "'it''s'"], by decide +kernel, ?_⟩
  refine (lexesAsWritten_renderExpr_iff (r := eventsRenderer .clickHouse) (e := idOutside)
    (by decide +kernel) ?_).mpr (by decide +kernel)
  simp [idOutside, negatedId, integerExpr, exprNodes, SqlRenderer.Copies,
    show isNumeral "1.5" = true by decide +kernel]

/-- The negation of a negation opens a comment: nothing is read of it. -/
theorem negated_negatedId_not_lexesAsWritten :
    ∃ ps, renderExpr (eventsRenderer .postgres) (integerExpr (.unary .minus negatedId)) = .ok ps ∧
      ps.text = "--id" ∧ lex SqlBackend.postgres.rules ps.text.toList = [] ∧
      lexesAsWritten .postgres ps = false :=
  ⟨["-", "-", "id"], by decide +kernel, by decide +kernel, by decide +kernel, by decide +kernel⟩

end QueryFabric.Render
