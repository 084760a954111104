import QueryFabric.Lib.Outcome
import QueryFabric.Render.Tokens
import QueryFabric.Sql.Nesting

/-!
# Parentheses in emitted text

What the renderer writes for Postgres closes the parentheses that it opens, and no others, whatever
the plan is (`nests_renderQuery`). So a statement that has it in parentheses has all of it there, if
it is read as it was written.
-/

set_option linter.unusedSectionVars false

namespace QueryFabric.Render

open Sql Lib

/-- From one depth in parentheses to another, each piece read by itself. -/
def Moves (d : Nat) (ps : Pieces) (e : Nat) : Prop :=
  depthAfter d (writtenTokens postgresRules ps) = some e

/-- The pieces close the parentheses that they open, and no others. -/
abbrev Nests (ps : Pieces) : Prop := ∀ d, Moves d ps d

/-- The pieces that open a parenthesis. -/
def openingPieces : List String :=
  ["(", " (", " AS (", "CAST(", "IN (", "EXISTS (", " FILTER (WHERE ", " OVER ("]

/-- The pieces without a parenthesis. -/
def flatPieces : List String :=
  "." :: "EXPLAIN " ::
    ((gluePieces ++ wordPieces).filter fun p => !p.toList.contains '(' && !p.toList.contains ')')

/-- The pieces without a parenthesis, one by one. -/
theorem flatPieces_eq : flatPieces =
    [".", "EXPLAIN ", " ", ", ", "[", "]", "ARRAY[", " AS ", "WITH ", "SELECT ",
      "DISTINCT ", " FROM ",
      " WHERE ", " GROUP BY ", " HAVING ", " ORDER BY ", " LIMIT ", " OFFSET ", " SETTINGS ",
      " UNION ALL ", "INNER JOIN ", "LEFT JOIN ", "RIGHT JOIN ", "FULL JOIN ",
      "CROSS JOIN ", " ON ",
      "NOT ", " ELSE ", " WHEN ", " THEN ", "BETWEEN ", " AND ", "IN ", " IS ", "PARTITION BY ",
      "ORDER BY ", "+", "-", "*", "/", "=", "<>", "<", "<=", ">", ">=", "AND", "OR", "CASE", " END",
      "NULL", "LIKE", "ILIKE", "= ANY", "<> ALL", " ASC", " DESC", " NULLS FIRST",
      " NULLS LAST"] := by
  decide +kernel

/-- A piece is among those without a parenthesis if it is one of them. -/
@[simp]
theorem mem_flatPieces {p : String} : p ∈ flatPieces ↔ p ∈
    [".", "EXPLAIN ", " ", ", ", "[", "]", "ARRAY[", " AS ", "WITH ", "SELECT ",
      "DISTINCT ", " FROM ",
      " WHERE ", " GROUP BY ", " HAVING ", " ORDER BY ", " LIMIT ", " OFFSET ", " SETTINGS ",
      " UNION ALL ", "INNER JOIN ", "LEFT JOIN ", "RIGHT JOIN ", "FULL JOIN ",
      "CROSS JOIN ", " ON ",
      "NOT ", " ELSE ", " WHEN ", " THEN ", "BETWEEN ", " AND ", "IN ", " IS ", "PARTITION BY ",
      "ORDER BY ", "+", "-", "*", "/", "=", "<>", "<", "<=", ">", ">=", "AND", "OR", "CASE", " END",
      "NULL", "LIKE", "ILIKE", "= ANY", "<> ALL", " ASC", " DESC", " NULLS FIRST",
      " NULLS LAST"] := by
  rw [flatPieces_eq]

/-- A piece opens a parenthesis if it is one of those. -/
@[simp]
theorem mem_openingPieces {p : String} :
    p ∈ openingPieces ↔ p ∈ ["(", " (", " AS (", "CAST(", "IN (",
    "EXISTS (", " FILTER (WHERE ", " OVER ("] := Iff.rfl

section Pieces

variable {d e f : Nat} {ps qs : Pieces} {p : String}

/-- Two lists of pieces move the depth one after the other. -/
theorem Moves.append (hp : Moves d ps e) (hq : Moves e qs f) : Moves d (ps ++ qs) f := by
  rw [Moves, writtenTokens_append, depthAfter_append hp]
  exact hq

/-- A piece and those behind it move the depth one after the other. -/
theorem Moves.cons (hp : Moves d [p] e) (hq : Moves e ps f) : Moves d (p :: ps) f := hp.append hq

/-- No pieces nest. -/
theorem Nests.nil : Nests [] := fun _ => rfl

/-- Two lists of pieces nest together. -/
theorem Nests.append (hp : Nests ps) (hq : Nests qs) : Nests (ps ++ qs) :=
  fun d => (hp d).append (hq d)

/-- A piece and those behind it nest together. -/
theorem Nests.cons (hp : Nests [p]) (hq : Nests ps) : Nests (p :: ps) := hp.append hq

/-- Pieces nest when their tokens are balanced. -/
theorem nests_iff : Nests ps ↔ Balanced (writtenTokens postgresRules ps) :=
  ⟨fun h => h 0, fun h d => h.depth_eq d⟩

/-- A piece is read as a text of Postgres. -/
theorem nests_singleton : Nests [p] ↔ Balanced (lex postgresRules p.toList) := by
  rw [nests_iff, writtenTokens_cons, writtenTokens_nil, List.append_nil]
  exact Iff.rfl

/-- An opening piece moves one deeper. -/
theorem opens (h : p ∈ openingPieces) (d : Nat) : Moves d [p] (d + 1) := by
  have hall : openingPieces.all
      (fun p => depthAfter 0 (writtenTokens postgresRules [p]) == some 1) = true := by
    decide +kernel
  have hp := depthAfter_add (eq_of_beq (List.all_eq_true.mp hall p h)) d
  rwa [Nat.zero_add, Nat.add_comm] at hp

/-- A closing piece moves one up. -/
theorem closes (d : Nat) : Moves (d + 1) [")"] d := by
  have hp : depthAfter 1 (writtenTokens postgresRules [")"]) = some 0 := by decide +kernel
  have := depthAfter_add hp d
  rwa [Nat.zero_add, Nat.add_comm] at this

/-- A flat piece nests. -/
theorem nests_piece (h : p ∈ flatPieces) : Nests [p] := by
  have hall :
      flatPieces.all (fun p => depthAfter 0 (lex postgresRules p.toList) == some 0) = true := by
    rw [flatPieces_eq]
    simp only [List.all_cons, List.all_nil]
    repeat rw [String.toList_ofList]
    decide +kernel
  exact nests_singleton.mpr (eq_of_beq (List.all_eq_true.mp hall p h))

/-- A part in parentheses. -/
theorem Nests.enclosed (ho : p ∈ openingPieces) (h : Nests ps) : Nests ([p] ++ ps ++ [")"]) :=
  fun d => ((opens ho d).append (h (d + 1))).append (closes d)

/-- A negation nests. -/
theorem Nests.negation (negated : Bool) : Nests (negation negated) := by
  cases negated
  · exact .nil
  · exact nests_piece (by simp)

/-- Joined parts nest. -/
theorem Nests.join (hp : p ∈ flatPieces) : ∀ {parts : List Pieces}, (∀ part ∈ parts, Nests part) →
    Nests (Pieces.join p parts)
  | [], _ => .nil
  | [part], h => by simpa [Pieces.join] using h part List.mem_cons_self
  | part :: next :: parts, h => by
    obtain ⟨hpart, hparts⟩ := List.forall_mem_cons.mp h
    exact hpart.append ((nests_piece hp).append (Nests.join hp hparts))

/-- A clause of nesting parts nests. -/
theorem Nests.clause (hp : p ∈ flatPieces) {parts : List Pieces} (h : ∀ part ∈ parts, Nests part) :
    Nests (clause p parts) := by
  unfold Render.clause
  split
  · exact .nil
  · exact .cons (nests_piece hp) (.join (by simp) h)

/-- An optional clause nests. -/
theorem Nests.optionClause (hp : p ∈ flatPieces) :
    ∀ {part : Option Pieces}, (∀ ps ∈ part, Nests ps) →
    Nests (optionClause p part)
  | none, _ => .nil
  | some _, h => .cons (nests_piece hp) (h _ rfl)

end Pieces

/-! ## Leaves -/

section Leaves

variable {b : SqlBackend} {r : SqlRenderer} {ps : Pieces} {text value : String}

/-- A text that is read as one token, and not as a parenthesis. -/
theorem nests_of_token {kind : TokenKind} {cs : List Char} (hkind : kind ≠ .symbol)
    (h : lex postgresRules text.toList = [⟨kind, cs⟩]) : Nests [text] := by
  refine nests_singleton.mpr ?_
  rw [h]
  refine .of_forall fun t ht => ?_
  obtain rfl := List.mem_singleton.mp ht
  exact ⟨fun heq => hkind (congrArg Token.kind heq), fun heq => hkind (congrArg Token.kind heq)⟩

/-- A quoted text nests. -/
theorem nests_quoted {q : Char} (hq : isQuote postgresRules q = true) (value : String) :
    Nests [quoted q value] := by
  have hscan := scanQuoted_doubleQuotes_plain (Stops.nil (· == q)) value.toList
  have hlex := lex_quoted postgresRules hq hscan
  have htext : (quoted q value).toList = q :: (doubleQuotes q value.toList ++ [q]) := by
    simp [quoted]
  rw [← htext, lex_nil] at hlex
  refine nests_of_token ?_ hlex
  unfold quotedKind
  split <;> decide

/-- A rendered identifier nests. -/
theorem nests_identifier (h : renderIdentifier b value = .ok text) : Nests [text] := by
  unfold renderIdentifier at h
  split_ifs at h with hid hsimple <;> cases h
  · simp only [isSimpleIdentifier, Bool.and_eq_true] at hsimple
    obtain ⟨c, cs, hv, -, hc, hcs, -⟩ := plainWord_facts postgresRules hsimple.2
    have hlex := lex_word postgresRules hc hcs (Stops.nil _)
    rw [List.append_nil, lex_nil, ← hv] at hlex
    exact nests_of_token (by decide) hlex
  · exact nests_quoted (by decide) value

/-- Rendered identifiers nest. -/
theorem nests_identifiers {values texts : List String}
    (h : values.mapM (renderIdentifier b) = .ok texts) :
    ∀ text ∈ texts, Nests [text] := by
  induction values generalizing texts with
  | nil =>
    cases h
    exact List.forall_mem_nil _
  | cons value values ih =>
    rw [List.mapM_cons] at h
    obtain ⟨text, htext, h⟩ := bind_eq_ok.mp h
    obtain ⟨rest, hrest, h⟩ := bind_eq_ok.mp h
    cases h
    exact List.forall_mem_cons.mpr ⟨nests_identifier htext, ih hrest⟩

/-- Texts with a flat piece between them nest. -/
theorem nests_intersperse {p : String} (hp : p ∈ flatPieces) {texts : List String}
    (h : ∀ text ∈ texts, Nests [text]) :
    Nests (texts.intersperse p) := by
  rw [intersperse_eq_join]
  refine .join hp fun part hpart => ?_
  obtain ⟨text, htext, rfl⟩ := List.mem_map.mp hpart
  exact h text htext

/-- A rendered qualified name nests. -/
theorem nests_qualifiedName (h : renderQualifiedName b value = .ok ps) : Nests ps := by
  simp only [renderQualifiedName] at h
  split_ifs at h
  obtain ⟨texts, htexts, h⟩ := bind_eq_ok.mp h
  cases h
  exact nests_intersperse (by simp) (nests_identifiers htexts)

/-- A rendered namespace nests. -/
theorem nests_namespace {namespace_ : Option String} (h : renderNamespace b namespace_ = .ok ps) :
    Nests ps := by
  cases namespace_ with
  | none =>
    cases h
    exact .nil
  | some value =>
    obtain ⟨text, htext, h⟩ := bind_eq_ok.mp h
    cases h
    exact .cons (nests_identifier htext) (nests_piece (by simp))

/-- A rendered reference nests. -/
theorem nests_nameRef {name : NameRef} (h : renderNameRef b name = .ok ps) : Nests ps := by
  obtain ⟨text, htext, h⟩ := bind_eq_ok.mp h
  obtain ⟨namespace_, hnamespace, h⟩ := bind_eq_ok.mp h
  cases h
  exact (nests_namespace hnamespace).append (nests_identifier htext)

/-- A parameterized name has its one pair of parentheses at its end. -/
theorem nests_parameterizedName (h : isParameterizedFunctionName value = true) : Nests [value] := by
  have hleaf := (parameterizedName_facts h).2
  simp only [isParameterizedFunctionName] at h
  have happ := value.toList.takeWhile_append_dropWhile (p := fun c => c != '(')
  split at h
  · cases h
  rename_i c inner hdrop
  -- The name is a word, a bracket, its parameters and the closing bracket.
  have hopen : c = '(' := by
    have := List.head_dropWhile_not (l := value.toList) (fun c => c != '(') (by simp [hdrop])
    simpa [hdrop] using this
  simp only [Bool.and_eq_true, beq_iff_eq, List.all_eq_true, Bool.or_eq_true] at h
  obtain ⟨⟨⟨hlast, -⟩, hname⟩, hinner⟩ := h
  obtain ⟨init, rfl⟩ : ∃ init, inner = init ++ [')'] := List.getLast?_eq_some_iff.mp hlast
  rw [List.dropLast_concat] at hinner
  rw [hdrop, hopen] at happ
  have hleaves : ∀ d ∈ value.toList, isLeafChar d = true := List.all_eq_true.mp hleaf
  rw [← happ] at hleaves
  -- The texts within are of leaf characters and hold no bracket.
  have hclosed (cs : List Char) (hcs : ∀ d ∈ cs, isLeafChar d = true) :
      closed postgresRules cs = true :=
    (plain_leafChars _ (List.all_eq_true.mpr hcs)).1
  refine nests_singleton.mpr ?_
  rw [← happ]
  refine balanced_lex_group (hclosed _ fun d hd => hleaves d (by simp [hd]))
    (hclosed _ fun d hd => hleaves d (by simp [hd])) (balanced_lex_of_not_mem ?_ ?_)
      (balanced_lex_of_not_mem ?_ ?_)
  · exact fun hmem => absurd (hname _ hmem) (by decide)
  · exact fun hmem => absurd (hname _ hmem) (by decide)
  · exact fun hmem => absurd (hinner _ hmem) (by decide)
  · exact fun hmem => absurd (hinner _ hmem) (by decide)

/-- A rendered function name nests. -/
theorem nests_functionRef {function : FunctionRef} (h : renderFunctionRef b function = .ok ps) :
    Nests ps := by
  unfold renderFunctionRef at h
  split_ifs at h with hparam
  · obtain ⟨name, hname, h⟩ := bind_eq_ok.mp h
    obtain ⟨namespace_, hnamespace, h⟩ := bind_eq_ok.mp h
    cases hname
    cases h
    exact (nests_namespace hnamespace).append (nests_parameterizedName hparam)
  · obtain ⟨name, hname, h⟩ := bind_eq_ok.mp h
    obtain ⟨namespace_, hnamespace, h⟩ := bind_eq_ok.mp h
    cases h
    exact (nests_namespace hnamespace).append (nests_identifier hname)

/-- A rendered column nests. -/
theorem nests_column {column : BoundColumnRef} (h : renderColumn r column = .ok ps) : Nests ps := by
  unfold renderColumn at h
  split at h
  · obtain ⟨qualifier, hqualifier, h⟩ := bind_eq_ok.mp h
    obtain ⟨name, hname, h⟩ := bind_eq_ok.mp h
    cases h
    exact (nests_qualifiedName hqualifier).append
      (.cons (nests_piece (by simp)) (nests_identifier hname))
  · obtain ⟨name, hname, h⟩ := bind_eq_ok.mp h
    cases h
    exact nests_identifier hname

/-- A rendered table nests. -/
theorem nests_table {binding : BoundRelationBinding} (h : r.renderTable binding = .ok ps) :
    Nests ps := by
  unfold SqlRenderer.renderTable at h
  split at h
  · obtain ⟨text, htext, h⟩ := bind_eq_ok.mp h
    cases h
    exact nests_identifier htext
  · obtain ⟨sql, hsql, h⟩ := bind_eq_ok.mp h
    split at h
    · obtain ⟨text, htext, h⟩ := bind_eq_ok.mp h
      cases h
      exact (nests_nameRef hsql).append (.cons (nests_piece (by simp)) (nests_identifier htext))
    · cases h
      exact nests_nameRef hsql

/-- A rendered alias nests. -/
theorem nests_alias {alias_ : Option String} (h : renderAlias r alias_ = .ok ps) : Nests ps := by
  cases alias_ with
  | none =>
    cases h
    exact .nil
  | some value =>
    obtain ⟨text, htext, h⟩ := bind_eq_ok.mp h
    cases h
    exact .cons (nests_piece (by simp)) (nests_identifier htext)

/-- A rendered wildcard nests. -/
theorem nests_wildcard {qualifier : Option String} (h : renderWildcard r qualifier = .ok ps) :
    Nests ps := by
  cases qualifier with
  | none =>
    cases h
    exact nests_piece (by simp)
  | some value =>
    obtain ⟨name, hname, h⟩ := bind_eq_ok.mp h
    cases h
    exact (nests_qualifiedName hname).append (.cons (nests_piece (by simp)) (nests_piece (by simp)))

/-- The rendered columns of a CTE nest. -/
theorem nests_cteColumns {columns : List String} (h : renderCteColumns r columns = .ok ps) :
    Nests ps := by
  unfold renderCteColumns at h
  split_ifs at h
  · cases h
    exact .nil
  · obtain ⟨texts, htexts, h⟩ := bind_eq_ok.mp h
    cases h
    exact .enclosed (by simp) (nests_intersperse (by simp) (nests_identifiers htexts))

/-- The suffix of a sort key nests. -/
theorem nests_orderSuffix (asc nullsFirst : Option Bool) : Nests (orderSuffix asc nullsFirst) := by
  have hwords : ∀ ps : Pieces, (∀ p ∈ ps, p ∈ flatPieces) → Nests ps := by
    intro ps hps
    induction ps with
    | nil => exact .nil
    | cons p ps ih =>
      obtain ⟨hp, hrest⟩ := List.forall_mem_cons.mp hps
      exact .cons (nests_piece hp) (ih hrest)
  refine hwords _ ?_
  rcases asc with _ | _ | _ <;> rcases nullsFirst with _ | _ | _ <;> simp [orderSuffix]

/-- The characters of an integer are digits, after a minus if it is negative. -/
theorem int_chars (i : Int) {c : Char} (h : c ∈ (toString i).toList) :
    c.isDigit = true ∨ c = '-' := by
  obtain ⟨d, ds, hd, hds, heq⟩ := toString_int i
  rw [heq, List.mem_append] at h
  obtain h | h := h
  · split_ifs at h
    · exact .inr (List.mem_singleton.mp h)
    · cases h
  · obtain rfl | h := List.mem_cons.mp h
    · exact .inl hd
    · exact .inl (List.all_eq_true.mp hds c h)

/-- The name of a decimal type nests. -/
theorem nests_decimal (precision : Nat) (scale : Int) :
    Nests ["NUMERIC(" ++ toString precision ++ ", " ++ toString scale ++ ")"] := by
  have hinner :
      Plain postgresRules ((toString precision).toList ++ ',' :: ' ' :: (toString scale).toList) :=
    (plain_toString _ precision).append (by decide)
      ((plain_nil _).append (by decide) (plain_int _ scale))
  -- Within the brackets are digits, a sign, a comma and a blank.
  have hchars : ∀ c ∈ (toString precision).toList ++ ',' :: ' ' :: (toString scale).toList,
      c.isDigit = true ∨ c = '-' ∨ c = ',' ∨ c = ' ' := by
    intro c hc
    rw [List.mem_append, List.mem_cons, List.mem_cons] at hc
    obtain hc | rfl | rfl | hc := hc
    · obtain ⟨d, ds, heq, hdigits⟩ := digits_toString precision
      rw [heq] at hc
      exact .inl (List.all_eq_true.mp hdigits c hc)
    · exact .inr (.inr (.inl rfl))
    · exact .inr (.inr (.inr rfl))
    · exact (int_chars scale hc).imp_right .inl
  have htext : ("NUMERIC(" ++ toString precision ++ ", " ++ toString scale ++ ")").toList =
      "NUMERIC".toList ++ '(' ::
          ((toString precision).toList ++ ',' :: ' ' :: (toString scale).toList ++ [')']) := by
    simp
  rw [nests_singleton, htext]
  refine balanced_lex_group (by decide +kernel) hinner.1
    (balanced_lex_of_not_mem (by decide) (by decide)) (balanced_lex_of_not_mem ?_ ?_)
  · exact fun hmem => absurd (hchars _ hmem) (by decide)
  · exact fun hmem => absurd (hchars _ hmem) (by decide)

/-- The name of a type nests. -/
theorem nests_typeName : ∀ {type : DataType} {text : String},
    backendTypeName .postgres type = .ok text → Nests [text]
  | .boolean, _, h | .int32, _, h | .int64, _, h | .float64, _, h | .utf8, _, h | .uuid, _, h
  | .json, _, h | .date, _, h | .timestamp none, _, h | .timestamp (some _), _, h => by
    cases h
    exact nests_singleton.mpr (balanced_lex_of_not_mem (by decide) (by decide))
  | .decimal precision scale, _, h => by
    cases h
    exact nests_decimal precision.toNat scale.toInt
  | .list inner, _, h => by
    obtain ⟨text, htext, h⟩ := bind_eq_ok.mp h
    cases h
    have hclosed : closed postgresRules text.toList = true :=
      (plain_typeName (b := .postgres) htext).1
    have hsafe : Safe "[]".toList := Safe.cons (by decide) _
    rw [nests_singleton, String.toList_append, lex_closed_append hclosed hsafe]
    exact (nests_singleton.mp (nests_typeName htext)).append
      (balanced_lex_of_not_mem (by decide) (by decide))
  | .struct _, _, h | .unknown, _, h => by cases h

/-- A rendered parameter nests. -/
theorem nests_parameter (hb : r.backend = .postgres) {reference : ParameterRef}
    (h : r.renderParameter reference = .ok ps) : Nests ps := by
  unfold SqlRenderer.renderParameter at h
  obtain ⟨schema, -, h⟩ := bind_eq_ok.mp h
  split at h
  · cases h
  rename_i position _
  rw [hb] at h
  cases h
  have hchars : ∀ c ∈ ("$" ++ toString position).toList, c = '$' ∨ c.isDigit = true := by
    intro c hc
    obtain ⟨d, ds, heq, hdigits⟩ := digits_toString position
    rw [String.toList_append, heq] at hc
    obtain hc | hc := List.mem_append.mp hc
    · exact .inl (List.mem_singleton.mp hc)
    · exact .inr (List.all_eq_true.mp hdigits c hc)
  refine nests_singleton.mpr (balanced_lex_of_not_mem ?_ ?_)
  · exact fun hmem => absurd (hchars _ hmem) (by decide)
  · exact fun hmem => absurd (hchars _ hmem) (by decide)

/-- A rendered literal nests, if its digits have no parentheses. -/
theorem nests_literal {value : LiteralValue}
    (hflat : ∀ text, value = .float64 text → '(' ∉ text.toList ∧ ')' ∉ text.toList) :
    Nests [renderLiteral value] := by
  cases value with
  | null => exact nests_piece (by simp [renderLiteral])
  | boolean value =>
    cases value <;> exact nests_singleton.mpr (balanced_lex_of_not_mem (by decide) (by decide))
  | int64 value =>
    refine nests_singleton.mpr (balanced_lex_of_not_mem ?_ ?_)
    · exact fun hmem => absurd (int_chars _ hmem) (by decide)
    · exact fun hmem => absurd (int_chars _ hmem) (by decide)
  | float64 text =>
    obtain ⟨ho, hc⟩ := hflat text rfl
    exact nests_singleton.mpr (balanced_lex_of_not_mem ho hc)
  | utf8 text => exact nests_quoted (by decide) text

/-- Postgres is given no backend clause. -/
theorem nests_backendClauses (hb : r.backend = .postgres) (clauses : List BackendClause) :
    Nests (clauses.flatMap r.renderBackendClause) := by
  have hnone : ∀ clause, r.renderBackendClause clause = [] := by
    intro clause
    cases clause <;> rw [SqlRenderer.renderBackendClause, hb, if_neg (by decide)]
  rw [List.flatMap_eq_nil_iff.mpr fun clause _ => hnone clause]
  exact .nil

end Leaves

/-! ## Plans -/

/-- The text of a number has no parenthesis. -/
def IsFlat : PlanNode → Prop
  | .expr ⟨.literal (.float64 text), _, _, _⟩ => '(' ∉ text.toList ∧ ')' ∉ text.toList
  | _ => True

/-- The texts of the numbers among some nodes have no parentheses. -/
def Flat (nodes : List PlanNode) : Prop := ∀ n ∈ nodes, IsFlat n

/-- Two lists of nodes are flat together. -/
theorem flat_append {ns ms : List PlanNode} : Flat (ns ++ ms) ↔ Flat ns ∧ Flat ms :=
  List.forall_mem_append

/-- The nodes behind a node are flat. -/
theorem Flat.tail {n : PlanNode} {ns : List PlanNode} (h : Flat (n :: ns)) : Flat ns :=
  (List.forall_mem_cons.mp h).2

/-- What is returned, if anything is, satisfies `Q`. -/
abbrev Ensures {α : Type} (x : Except QueryFabricError α) (Q : α → Prop) : Prop :=
  Outcome (fun _ => True) x Q

/-- A computation ensures what holds of its values. -/
theorem Ensures.of_ok {α : Type} {x : Except QueryFabricError α} {Q : α → Prop}
    (h : ∀ {a}, x = .ok a → Q a) :
    Ensures x Q := ⟨fun _ _ => trivial, fun _ => h⟩

/-- The pieces that are rendered nest. -/
abbrev Nesting (x : Except QueryFabricError Pieces) : Prop := Ensures x Nests

/-- The pieces of each part that is rendered nest. -/
abbrev NestingParts (x : Except QueryFabricError (List Pieces)) : Prop :=
  Ensures x fun parts => ∀ part ∈ parts, Nests part

/-- Whatever the rendering of an optional part returns nests. -/
abbrev NestingOption (x : Except QueryFabricError (Option Pieces)) : Prop :=
  Ensures x fun part => ∀ ps ∈ part, Nests ps

/-- No parts nest. -/
theorem NestingParts.nil : NestingParts (pure []) := .pure (List.forall_mem_nil _)

/-- A part and those behind it nest. -/
theorem NestingParts.cons {x : Except QueryFabricError Pieces}
    {y : Except QueryFabricError (List Pieces)}
    (hx : Nesting x) (hy : NestingParts y) : NestingParts (do return (← x) :: (← y)) :=
  hx.bind fun _ hpart => hy.bind fun _ hparts => .pure (List.forall_mem_cons.mpr ⟨hpart, hparts⟩)

section Plans

variable {r : SqlRenderer} (hb : r.backend = .postgres)

include hb

mutual

/-- A rendered query nests. -/
theorem nests_query : ∀ {q : BoundQueryPlan}, Flat (queryNodes q) → Nesting (renderQueryInner r q)
  | ⟨_, ctes, body, orderBy, limit, offset, clauses, _⟩, h => by
    rw [queryNodes] at h
    simp only [flat_append] at h
    obtain ⟨⟨⟨⟨⟨hctes, hbody⟩, horder⟩, hlimit⟩, hoffset⟩, -⟩ := h
    rw [renderQueryInner]
    refine (nests_ctes hctes).bind fun ctePieces hctes => ?_
    refine (nests_setExpr hbody).bind fun bodyPieces hbody => ?_
    refine (nests_orderBys horder).bind fun orderPieces horder => ?_
    refine (nests_exprOption hlimit).bind fun limitPieces hlimit => ?_
    refine (nests_exprOption hoffset).bind fun offsetPieces hoffset => .pure ?_
    have hwith : Nests (if ctePieces.isEmpty then [] else clause "WITH " ctePieces ++ [" "]) := by
      split
      · exact .nil
      · exact (Nests.clause (by simp) hctes).append (nests_piece (by simp))
    exact ((((hwith.append hbody).append (.clause (by simp) horder)).append
      (.optionClause (by simp) hlimit)).append
      (.optionClause (by simp) hoffset)).append (nests_backendClauses hb clauses)

/-- Rendered CTEs nest. -/
theorem nests_ctes : ∀ {ctes : List BoundCte},
    Flat (cteNodes ctes) → NestingParts (renderCtes r ctes)
  | [], _ => by
    rw [renderCtes]
    exact .nil
  | ⟨name, columns, query, _, _⟩ :: ctes, h => by
    rw [cteNodes] at h
    simp only [flat_append] at h
    rw [renderCtes]
    refine (Ensures.of_ok nests_identifier).bind fun namePiece hname => ?_
    refine (Ensures.of_ok nests_cteColumns).bind fun columnPieces hcolumns => ?_
    refine (nests_query h.1.2).bind fun queryPieces hquery => ?_
    refine (nests_ctes h.2).bind fun rest hrest =>
      .pure (List.forall_mem_cons.mpr ⟨fun d => ?_, hrest⟩)
    exact ((((hname d).append (hcolumns d)).append (opens (by simp) d)).append
      (hquery (d + 1))).append (closes d)

/-- A rendered query body nests. -/
theorem nests_setExpr : ∀ {s : BoundSetExpr}, Flat (setExprNodes s) → Nesting (renderSetExpr r s)
  | .select s, h => by
    rw [setExprNodes] at h
    rw [renderSetExpr]
    exact nests_select h
  | .unionAll left right _ _, h => by
    rw [setExprNodes, flat_append] at h
    rw [renderSetExpr]
    refine (nests_wrapped h.1).bind fun leftPieces hleft => ?_
    refine (nests_wrapped h.2).bind fun rightPieces hright => .pure ?_
    exact (hleft.append (nests_piece (by simp))).append hright
  | .unsupported .., _ => by
    rw [renderSetExpr]
    exact .throw trivial

/-- A rendered branch nests. -/
theorem nests_wrapped : ∀ {s : BoundSetExpr}, Flat (setExprNodes s) → Nesting (wrapSetExpr r s)
  | .select s, h => by
    rw [setExprNodes] at h
    rw [wrapSetExpr]
    exact nests_select h
  | .unionAll left right _ _, h => by
    rw [setExprNodes, flat_append] at h
    rw [wrapSetExpr]
    refine (nests_wrapped h.1).bind fun leftPieces hleft => ?_
    refine (nests_wrapped h.2).bind fun rightPieces hright => .pure ?_
    exact .enclosed (by simp) ((hleft.append (nests_piece (by simp))).append hright)
  | .unsupported .., _ => by
    rw [wrapSetExpr]
    exact .throw trivial

/-- A rendered select nests. -/
theorem nests_select : ∀ {s : BoundSelect}, Flat (selectNodes s) → Nesting (renderSelect r s)
  | ⟨distinct, projection, from_, selection, groupBy, having, _, _⟩, h => by
    rw [selectNodes] at h
    simp only [flat_append] at h
    obtain ⟨⟨⟨⟨hprojection, hfrom⟩, hselection⟩, hgroup⟩, hhaving⟩ := h
    rw [renderSelect]
    refine (nests_projections hprojection).bind fun projectionPieces hprojection => ?_
    refine (nests_tables hfrom).bind fun fromPieces hfrom => ?_
    refine (nests_exprOption hselection).bind fun selectionPieces hselection => ?_
    refine (nests_exprs hgroup).bind fun groupPieces hgroup => ?_
    refine (nests_exprOption hhaving).bind fun havingPieces hhaving => .pure ?_
    have hdistinct : Nests (if distinct then ["DISTINCT "] else []) := by
      split
      · exact nests_piece (by simp)
      · exact .nil
    exact ((((((nests_piece (by simp)).append hdistinct).append
      (.join (by simp) hprojection)).append
      (.clause (by simp) hfrom)).append (.optionClause (by simp) hselection)).append
      (.clause (by simp) hgroup)).append (.optionClause (by simp) hhaving)

/-- A rendered projection nests. -/
theorem nests_projections : ∀ {items : List BoundProjectionItem}, Flat (projectionNodes items) →
    NestingParts (renderProjections r items)
  | [], _ => by
    rw [renderProjections]
    exact .nil
  | .expr ⟨expr, alias_, _, _⟩ :: items, h => by
    rw [projectionNodes] at h
    simp only [flat_append] at h
    rw [renderProjections, renderProjection]
    refine .cons ?_ (nests_projections h.2)
    refine (nests_expr h.1.1).bind fun exprPieces hexpr => ?_
    exact (Ensures.of_ok nests_alias).bind fun aliasPieces halias => .pure (hexpr.append halias)
  | .wildcard qualifier _ _ :: items, h => by
    rw [projectionNodes, flat_append] at h
    rw [renderProjections, renderProjection]
    exact .cons (.of_ok nests_wildcard) (nests_projections h.2)
  | .unsupported .. :: items, _ => by
    rw [renderProjections, renderProjection]
    exact .throw trivial

/-- A rendered `FROM` clause nests. -/
theorem nests_tables : ∀ {tables : List BoundTableWithJoins}, Flat (tablesNodes tables) →
    NestingParts (renderTables r tables)
  | [], _ => by
    rw [renderTables]
    exact .nil
  | table :: tables, h => by
    rw [tablesNodes, flat_append] at h
    rw [renderTables]
    exact .cons (nests_tableWithJoins h.1) (nests_tables h.2)

/-- A rendered table with joins nests. -/
theorem nests_tableWithJoins : ∀ {table : BoundTableWithJoins}, Flat (tableWithJoinsNodes table) →
    Nesting (renderTableWithJoins r table)
  | ⟨relation, joins, _⟩, h => by
    rw [tableWithJoinsNodes, flat_append] at h
    rw [renderTableWithJoins]
    refine (nests_relation h.1).bind fun relationPieces hrelation => ?_
    exact (nests_joins h.2).bind fun joinPieces hjoins => .pure (hrelation.append hjoins)

/-- Rendered joins nest. -/
theorem nests_joins : ∀ {joins : List BoundJoin},
    Flat (joinNodes joins) → Nesting (renderJoins r joins)
  | [], _ => by
    rw [renderJoins]
    exact .pure .nil
  | ⟨kind, relation, on, _⟩ :: joins, h => by
    rw [joinNodes] at h
    simp only [flat_append] at h
    rw [renderJoins]
    refine (nests_relation h.1.1).bind fun relationPieces hrelation => ?_
    refine (nests_exprOption h.1.2).bind fun onPieces hon => ?_
    refine (nests_joins h.2).bind fun rest hrest => .pure ?_
    have hkeyword : Nests [joinKeyword kind] := by
      cases kind <;> exact nests_piece (by simp [joinKeyword])
    exact (((Nests.cons (nests_piece (by simp)) hkeyword).append hrelation).append
      (.optionClause (by simp) hon)).append hrest

/-- A rendered relation nests. -/
theorem nests_relation : ∀ {relation : BoundRelation}, Flat (relationNodes relation) →
    Nesting (renderRelation r relation)
  | .table binding _, _ => by
    rw [renderRelation]
    exact .of_ok nests_table
  | .derived binding query _, h => by
    rw [relationNodes, flat_append] at h
    rw [renderRelation]
    refine (nests_query h.1).bind fun queryPieces hquery => ?_
    refine (Ensures.of_ok nests_identifier).bind fun name hname => .pure fun d => ?_
    exact ((opens (by simp) d).append (hquery (d + 1))).append
      ((closes d).cons ((nests_piece (by simp) d).cons (hname d)))
  | .nestedJoin binding table _, h => by
    rw [relationNodes, flat_append] at h
    rw [renderRelation]
    refine (nests_tableWithJoins h.1).bind fun tablePieces htable => ?_
    refine (Ensures.of_ok nests_identifier).bind fun name hname => .pure fun d => ?_
    exact ((opens (by simp) d).append (htable (d + 1))).append
      ((closes d).cons ((nests_piece (by simp) d).cons (hname d)))
  | .unsupported .., _ => by
    rw [renderRelation]
    exact .throw trivial

/-- A rendered `ORDER BY` nests. -/
theorem nests_orderBys : ∀ {orders : List BoundOrderByExpr}, Flat (orderByNodes orders) →
    NestingParts (renderOrderBys r orders)
  | [], _ => by
    rw [renderOrderBys]
    exact .nil
  | ⟨expr, asc, nullsFirst, _⟩ :: orders, h => by
    rw [orderByNodes, flat_append] at h
    rw [renderOrderBys, renderOrderBy]
    refine .cons ?_ (nests_orderBys h.2)
    exact (nests_expr h.1).bind fun exprPieces hexpr =>
      .pure (hexpr.append (nests_orderSuffix asc nullsFirst))

/-- A rendered list of expressions nests. -/
theorem nests_exprs : ∀ {exprs : List BoundExpr},
    Flat (exprsNodes exprs) → NestingParts (renderExprs r exprs)
  | [], _ => by
    rw [renderExprs]
    exact .nil
  | expr :: exprs, h => by
    rw [exprsNodes, flat_append] at h
    rw [renderExprs]
    exact .cons (nests_expr h.1) (nests_exprs h.2)

/-- A rendered optional expression nests. -/
theorem nests_exprOption : ∀ {o : Option BoundExpr},
    Flat (exprOptionNodes o) → NestingOption (renderExprOption r o)
  | none, _ => by
    rw [renderExprOption]
    exact .pure fun _ hnone => by cases hnone
  | some expr, h => by
    rw [exprOptionNodes] at h
    rw [renderExprOption]
    refine (nests_expr h).bind fun exprPieces hexpr => .pure fun ps hps => ?_
    obtain rfl := Option.some.inj hps
    exact hexpr

/-- Rendered branches of a `CASE` nest. -/
theorem nests_whenThens : ∀ {pairs : List BoundWhenThen}, Flat (whenThenNodes pairs) →
    Nesting (renderWhenThens r pairs)
  | [], _ => by
    rw [renderWhenThens]
    exact .pure .nil
  | ⟨condition, result⟩ :: pairs, h => by
    rw [whenThenNodes] at h
    simp only [flat_append] at h
    rw [renderWhenThens]
    refine (nests_expr h.1.1).bind fun conditionPieces hcondition => ?_
    refine (nests_expr h.1.2).bind fun resultPieces hresult => ?_
    refine (nests_whenThens h.2).bind fun rest hrest => .pure ?_
    exact ((((nests_piece (by simp)).append hcondition).append (nests_piece (by simp))).append
      hresult).append hrest

/-- A rendered window nests. -/
theorem nests_window : ∀ {over_ : Option BoundWindowSpec},
    Flat (windowNodes over_) → Nesting (renderWindow r over_)
  | none, _ => by
    rw [renderWindow]
    exact .pure .nil
  | some ⟨partitionBy, orderBy, _⟩, h => by
    rw [windowNodes, flat_append] at h
    rw [renderWindow]
    refine (nests_exprs h.1).bind fun partitionPieces hpartition => ?_
    refine (nests_orderBys h.2).bind fun orderPieces horder =>
      .pure (.enclosed (by simp) (.join (by simp) ?_))
    refine List.forall_mem_append.mpr ⟨?_, ?_⟩
    · split
      · exact List.forall_mem_nil _
      · exact List.forall_mem_singleton.mpr (.clause (by simp) hpartition)
    · split
      · exact List.forall_mem_nil _
      · exact List.forall_mem_singleton.mpr (.clause (by simp) horder)

/-- A rendered call nests. -/
theorem nests_function : ∀ {call : BoundFunctionCall},
    Flat (exprsNodes call.args ++ exprOptionNodes call.filter ++
    windowNodes call.over_) → Nesting (renderFunction r call)
  | ⟨function, _, args, distinct, filter, over_, _⟩, h => by
    simp only [flat_append] at h
    obtain ⟨⟨hargs, hfilter⟩, hover⟩ := h
    rw [renderFunction]
    refine (Ensures.of_ok fun _ => trivial : Ensures _ fun _ => True).bind fun mapped _ => ?_
    refine (nests_exprs hargs).bind fun argPieces hargs => ?_
    refine (Ensures.of_ok nests_functionRef).bind fun name hname => ?_
    refine (nests_exprOption hfilter).bind fun filterPieces hfilter => ?_
    refine (nests_window hover).bind fun overPieces hover => .pure ?_
    -- The arguments stand one level deeper, the filter and the window outside.
    have hargs' : Nests (if eqIgnoreAsciiCase function.name "count" && args.isEmpty then ["*"]
        else Pieces.join ", " argPieces) := by
      split
      · exact nests_piece (by simp)
      · exact .join (by simp) hargs
    have hdistinct : Nests (if distinct then ["DISTINCT "] else []) := by
      split
      · exact nests_piece (by simp)
      · exact .nil
    have hfilter' : Nests (filterClause filterPieces) := by
      cases filterPieces with
      | none => exact .nil
      | some part => exact .enclosed (by simp) (hfilter part rfl)
    refine Nests.append (Nests.append (fun d => ?_) hfilter') hover
    exact ((((hname d).append (opens (by simp) d)).append (hdistinct (d + 1))).append
      (hargs' (d + 1))).append (closes d)

/-- A rendered expression nests. -/
theorem nests_expr : ∀ {e : BoundExpr}, Flat (exprNodes e) → Nesting (renderExpr r e)
  -- One case per constructor: the parts are nested by induction, and so is what joins them.
  | ⟨.column column, _, _, _⟩, _ => by
    rw [renderExpr]
    exact .of_ok nests_column
  | ⟨.literal value, _, _, _⟩, h => by
    rw [renderExpr]
    refine .pure (nests_literal fun text htext => ?_)
    subst htext
    exact h _ (by rw [exprNodes]; exact List.mem_cons_self)
  | ⟨.parameter reference, _, _, _⟩, _ => by
    rw [renderExpr]
    exact .of_ok (nests_parameter hb)
  | ⟨.unary op operand, _, _, _⟩, h => by
    rw [exprNodes] at h
    rw [renderExpr]
    refine (nests_expr h.tail).bind fun operandPieces hoperand => .pure ?_
    cases op <;> exact (nests_piece (by simp [unaryPrefix])).append hoperand
  | ⟨.binary op left right, _, _, _⟩, h => by
    rw [exprNodes] at h
    obtain ⟨hleft, hright⟩ := flat_append.mp h.tail
    rw [renderExpr]
    refine (nests_expr hleft).bind fun leftPieces hleft => ?_
    refine (nests_expr hright).bind fun rightPieces hright => .pure fun d => ?_
    have hop : Nests [" ", renderBinaryOperator op, " "] := by
      refine .cons (nests_piece (by simp))
        (.cons (p := renderBinaryOperator op) ?_ (nests_piece (by simp)))
      cases op <;> exact nests_piece (by simp [renderBinaryOperator])
    exact ((((opens (by simp) d).append (hleft (d + 1))).append (hop (d + 1))).append
      (hright (d + 1))).append (closes d)
  | ⟨.function ⟨function, backendName, args, distinct, filter, over_, signatureName⟩, _, _, _⟩,
      h => by
    rw [exprNodes] at h
    rw [renderExpr]
    exact nests_function h.tail.tail
  | ⟨.case operand whenThen elseResult, _, _, _⟩, h => by
    rw [exprNodes] at h
    have hparts := h.tail
    simp only [flat_append] at hparts
    obtain ⟨⟨hoperand, hwhen⟩, helse⟩ := hparts
    rw [renderExpr]
    refine (nests_exprOption hoperand).bind fun operandPieces hoperand => ?_
    refine (nests_whenThens hwhen).bind fun whenPieces hwhen => ?_
    refine (nests_exprOption helse).bind fun elsePieces helse => .pure ?_
    exact ((((nests_piece (by simp)).append (.optionClause (by simp) hoperand)).append hwhen).append
      (.optionClause (by simp) helse)).append (nests_piece (by simp))
  | ⟨.cast x type, _, _, _⟩, h => by
    rw [exprNodes] at h
    rw [renderExpr]
    refine (nests_expr h.tail).bind fun xPieces hx => ?_
    rw [hb]
    refine (Ensures.of_ok nests_typeName).bind fun name hname => .pure fun d => ?_
    exact ((opens (by simp) d).append (hx (d + 1))).append
      ((nests_piece (by simp) (d + 1)).cons ((hname (d + 1)).cons (closes d)))
  | ⟨.between x low high negated, _, _, _⟩, h => by
    rw [exprNodes] at h
    have hparts := h.tail
    simp only [flat_append] at hparts
    obtain ⟨⟨hx, hlow⟩, hhigh⟩ := hparts
    rw [renderExpr]
    refine (nests_expr hx).bind fun xPieces hx => ?_
    refine (nests_expr hlow).bind fun lowPieces hlow => ?_
    refine (nests_expr hhigh).bind fun highPieces hhigh => .pure ?_
    exact (((((hx.append (nests_piece (by simp))).append (.negation negated)).append
      (nests_piece (by simp))).append hlow).append (nests_piece (by simp))).append hhigh
  -- A list that is one array parameter is written as that parameter.
  | ⟨.inList x list negated, _, _, _⟩, h => by
    rw [exprNodes] at h
    obtain ⟨hx, hlist⟩ := flat_append.mp h.tail
    rw [renderExpr]
    refine (Ensures.of_ok fun _ => trivial : Ensures _ fun _ => True).bind fun parameter _ => ?_
    cases parameter with
    | some reference =>
      refine (nests_expr hx).bind fun xPieces hx => ?_
      refine (Ensures.of_ok (nests_parameter hb)).bind fun parameterPieces hparameter => ?_
      rw [hb]
      refine .pure fun d => ?_
      have hword : Nests [if negated then "<> ALL" else "= ANY"] := by
        cases negated <;> exact nests_piece (by simp)
      exact (((hx d).append
        ((nests_piece (by simp) d).cons ((hword d).cons (opens (by simp) d)))).append
        (hparameter (d + 1))).append (closes d)
    | none =>
      refine (nests_expr hx).bind fun xPieces hx => ?_
      refine (nests_exprs hlist).bind fun listPieces hlist => .pure fun d => ?_
      exact (((((hx d).append (nests_piece (by simp) d)).append (Nests.negation negated d)).append
        (opens (by simp) d)).append (Nests.join (by simp) hlist (d + 1))).append (closes d)
  | ⟨.inSubquery x query negated, _, _, _⟩, h => by
    rw [exprNodes] at h
    obtain ⟨hx, hquery⟩ := flat_append.mp h.tail
    rw [renderExpr]
    refine (nests_expr hx).bind fun xPieces hx => ?_
    refine (nests_query hquery).bind fun queryPieces hquery => .pure fun d => ?_
    exact (((((hx d).append (nests_piece (by simp) d)).append (Nests.negation negated d)).append
      (opens (by simp) d)).append (hquery (d + 1))).append (closes d)
  | ⟨.scalarSubquery query, _, _, _⟩, h => by
    rw [exprNodes] at h
    rw [renderExpr]
    exact (nests_query h.tail).bind fun queryPieces hquery => .pure (.enclosed (by simp) hquery)
  | ⟨.exists query, _, _, _⟩, h => by
    rw [exprNodes] at h
    rw [renderExpr]
    exact (nests_query h.tail).bind fun queryPieces hquery => .pure (.enclosed (by simp) hquery)
  | ⟨.like x pattern negated caseInsensitive, _, _, _⟩, h => by
    rw [exprNodes] at h
    obtain ⟨hx, hpattern⟩ := flat_append.mp h.tail
    rw [renderExpr]
    refine (nests_expr hx).bind fun xPieces hx => ?_
    refine (nests_expr hpattern).bind fun patternPieces hpattern => .pure ?_
    have hword : Nests [if caseInsensitive then "ILIKE" else "LIKE", " "] := by
      cases caseInsensitive <;> exact .cons (nests_piece (by simp)) (nests_piece (by simp))
    exact (((hx.append (nests_piece (by simp))).append (.negation negated)).append hword).append
      hpattern
  | ⟨.isNull x negated, _, _, _⟩, h => by
    rw [exprNodes] at h
    rw [renderExpr]
    refine (nests_expr h.tail).bind fun xPieces hx => .pure ?_
    exact ((hx.append (nests_piece (by simp))).append (.negation negated)).append
      (nests_piece (by simp))
  | ⟨.tuple items, _, _, _⟩, h => by
    rw [exprNodes] at h
    rw [renderExpr]
    exact (nests_exprs h.tail).bind fun itemPieces hitems =>
      .pure (.enclosed (by simp) (.join (by simp) hitems))
  | ⟨.array items, _, _, _⟩, h => by
    rw [exprNodes] at h
    rw [renderExpr, hb]
    refine (nests_exprs h.tail).bind fun itemPieces hitems => .pure ?_
    exact ((nests_piece (by simp)).append (.join (by simp) hitems)).append (nests_piece (by simp))
  | ⟨.unsupported description, _, _, _⟩, _ => by
    rw [renderExpr]
    exact .throw trivial

end

end Plans

/-- A statement closes the parentheses that it opens, and no others. -/
theorem nests_renderQuery {r : SqlRenderer} (hb : r.backend = .postgres) {q : BoundQueryPlan}
    {explain : Bool}
    {ps : Pieces} (hflat : Flat (queryNodes q)) (h : renderQuery r q explain = .ok ps) :
    Nests ps := by
  obtain ⟨queryPieces, hquery, h⟩ := bind_eq_ok.mp h
  cases h
  refine Nests.append ?_ ((nests_query hb hflat).ok _ hquery)
  split
  · exact nests_piece (by simp)
  · exact .nil

end QueryFabric.Render
