import QueryFabric.Compiler
import QueryFabric.Demo.Prepare
import QueryFabric.Dialect.Lower
import QueryFabric.JsonParameters
import QueryFabric.Render.Nesting
import QueryFabric.Render.Qualifiers

/-!
# The query endpoint

`query` of `crates/queryfabric-demo/src/http.rs` compiles a request to a statement for Postgres, and
`execute_query` of `db.rs` puts that in parentheses, with a `LIMIT` after them that a user query is
not to get past.

What Postgres reads is the host's query over the statement exactly when the statement is read as it
was written (`isBounded_emit_iff`). A minus before a minus is not: it opens a comment, and what a
string literal has after a line break is then read in place of the statement, whatever relations it
names, and of the host's `LIMIT` (`query_smuggled`).
-/

namespace QueryFabric.Demo

open Sql Lib Render Dialect QueryFabric.Bind

/-! ## The endpoint -/

/-- The `Display` text of a compiler's error. -/
def errorText : CompilerError → String
  | .budgetExceeded error => error.message
  | .query (.parse message) => "Parse error: " ++ message
  | .query (.bind message _ _ _) => "Bind error: " ++ message
  | .query (.unsupportedFeature feature _) => "Unsupported feature: " ++ feature

/-- The response to an error of the compiler. -/
def ApiError.ofCompiler (error : CompilerError) : ApiError := .badRequest (errorText error)

/-- `QueryRequest`. -/
structure QueryRequest (F : Type) where
  sql : String
  dialect : Option String := none
  positional : Option (List (JsonParameters.Value F)) := none
  named : Option (List (String × JsonParameters.Value F)) := none
  expectedCatalogSnapshotId : Option String := none
  requestedBackend : Option String := none

/-- What `query` uses of the server, and of the libraries. -/
structure QueryHost (F : Type) where
  parser : SqlParser
  texts : JsonParameters.Texts F
  catalog : Catalog
  toLowercase : Char → List Char

/-- `MAX_QUERY_ROWS`. -/
def maxQueryRows : Nat := 1000

/-- `query` up to the database: the statement that is emitted, and its parameters. -/
def QueryHost.query {F : Type} (host : QueryHost F) (request : QueryRequest F) :
    Except ApiError (SqlArtifact × List ParameterBinding) :=
  let dialect := request.dialect.getD "sql"
  if dialect ≠ "sql" then
    .error (.badRequest ("unsupported query dialect '" ++ dialect ++ "'; this host supports 'sql'"))
  else
    -- The snapshot is checked before the backend.
    match request.expectedCatalogSnapshotId.filter (· ≠ snapshotId),
      request.requestedBackend.filter (· ≠ "postgres") with
    | some expected, _ =>
      .error (.conflict ("catalog snapshot mismatch: expected '" ++ expected ++ "', current '" ++
        snapshotId ++ "'"))
    | none, some requested =>
      .error (.badRequest
        ("requested backend '" ++ requested ++ "' is unavailable; this host supports 'postgres'"))
    | none, none => do
      -- Parsing, parameters, binding and emission, each with its own error.
      let compiler : QueryCompiler := {}
      let parsed ← (compiler.parse (genericSqlDialect host.parser) request.sql).mapError .ofCompiler
      let parameters ← (JsonParameters.buildQueryParameters host.texts
        ⟨request.positional, request.named⟩).mapError
        fun message => .badRequest ("Emission failed: " ++ message)
      let context : BinderContext := ⟨host.catalog, parameters, host.toLowercase⟩
      let bound ← (compiler.bindAndValidate context parsed).mapError .ofCompiler
      let artifact ← (emit .postgres bound host.catalog).mapError fun error =>
        .ofCompiler (.query error)
      return (artifact, bound.parameters)

/-- `max_rows.saturating_add(1)` of a `usize`. -/
def fetchRows (maxRows : Nat) : Nat := min (maxRows + 1) (2 ^ 64 - 1)

/-- `bounded_sql` of `execute_query`. -/
def boundedSql (sql : String) (maxRows : Nat) : String :=
  "SELECT * FROM (" ++ sql ++ ") AS queryfabric_result LIMIT " ++ toString (fetchRows maxRows)

/-- `SELECT * FROM (`. -/
def hostOpening : List Token :=
  [⟨.word, "SELECT".toList⟩, ⟨.symbol, ['*']⟩, ⟨.word, "FROM".toList⟩, openParen]

/-- `AS queryfabric_result LIMIT n`. -/
def hostLimit (maxRows : Nat) : List Token :=
  [⟨.word, "AS".toList⟩, ⟨.word, "queryfabric_result".toList⟩, ⟨.word, "LIMIT".toList⟩,
   ⟨.number, (toString (fetchRows maxRows)).toList⟩]

/-- Postgres reads the host's query over a statement: the parenthesis that closes the host's is the
host's, and the `LIMIT` after it too. -/
def IsBounded (sql : String) (maxRows : Nat) (statement : List Token) : Prop :=
  ∃ group, lex postgresRules (boundedSql sql maxRows).toList = hostOpening ++ group ∧
    splitGroup 0 group = some (statement, hostLimit maxRows)

/-- The pieces of the bounded statement. -/
def boundedPieces (ps : Pieces) (maxRows : Nat) : Pieces :=
  ["SELECT * FROM ("] ++
    (ps ++ ([") AS queryfabric_result LIMIT "] ++ [toString (fetchRows maxRows)]))

section Reading

variable {ps : Pieces} {ok : Prop}

/-- The characters of pieces between texts. -/
theorem chars_enclosed (before : String) (ps : Pieces) (after last : String) :
    chars ([before] ++ (ps ++ ([after] ++ [last]))) =
      before.toList ++ (chars ps ++ (after.toList ++ last.toList)) := by
  simp only [chars_append, chars_cons, chars_nil, List.append_nil]

/-- The characters of a text between texts. -/
theorem toList_enclosed (before s after last : String) :
    (before ++ s ++ after ++ last).toList = before.toList ++
      (s.toList ++ (after.toList ++ last.toList)) := by
  simp only [String.toList_append, List.append_assoc]

/-- The characters of the bounded statement are those of its pieces. -/
theorem chars_boundedPieces (ps : Pieces) (maxRows : Nat) :
    (boundedSql ps.text maxRows).toList = chars (boundedPieces ps maxRows) := by
  rw [boundedPieces, chars_enclosed, ← toList_text]
  exact toList_enclosed ..

/-- Digits are the text of a number. -/
theorem isNumberText_digits {c : Char} {cs : List Char} (h : (c :: cs).all Char.isDigit = true) :
    isNumberText (c :: cs) = true := by
  have hc : c.isDigit = true := List.all_eq_true.mp h c List.mem_cons_self
  have hdot : c ≠ '.' := by
    rintro rfl
    revert hc
    decide
  have hstart : startsNumber (c :: cs) = true := by
    unfold startsNumber
    split
    · rename_i heq
      exact absurd (List.cons.inj heq).1 hdot
    · rename_i heq
      rwa [← (List.cons.inj heq).1]
    · rename_i heq
      cases heq
  have hdrop : (c :: cs).dropWhile Char.isDigit = [] :=
    List.dropWhile_eq_nil_iff.mpr (List.all_eq_true.mp h)
  rw [isNumberText, hstart, scanNumber, hdrop]
  rfl

/-- A number is one token. -/
theorem lex_toString (n : Nat) :
    lex postgresRules.plain (toString n).toList = [⟨.number, (toString n).toList⟩] := by
  obtain ⟨c, cs, heq, hdigits⟩ := digits_toString n
  have hlex : lex postgresRules.plain (c :: cs ++ []) = ⟨.number, c :: cs⟩ ::
      lex postgresRules.plain [] :=
    lex_numberText postgresRules.plain (isNumberText_digits hdigits) Safe.nil
  rwa [List.append_nil, lex_nil, ← heq] at hlex

/-- The tokens that the host writes around those of the statement. -/
theorem writtenTokens_boundedPieces (ps : Pieces) (maxRows : Nat) :
    writtenTokens postgresRules (boundedPieces ps maxRows) =
      hostOpening ++ (writtenTokens postgresRules ps ++ closeParen :: hostLimit maxRows) := by
  have hopening : lex postgresRules.plain "SELECT * FROM (".toList = hostOpening := by
    decide +kernel
  have hclosing : lex postgresRules.plain ") AS queryfabric_result LIMIT ".toList =
      [closeParen, ⟨.word, "AS".toList⟩, ⟨.word, "queryfabric_result".toList⟩,
          ⟨.word, "LIMIT".toList⟩] := by
    decide +kernel
  have hpiece : ∀ p, writtenTokens postgresRules [p] = lex postgresRules.plain p.toList :=
    fun p => List.append_nil _
  rw [boundedPieces, writtenTokens_append, writtenTokens_append, writtenTokens_append, hpiece,
    hpiece, hpiece, hopening, hclosing, lex_toString]
  rfl

/-- The host's texts are read as they are written around any statement that is. -/
theorem reads_boundedPieces (h : Reads postgresRules Safe ok ps) (maxRows : Nat) :
    Reads postgresRules Safe ok (boundedPieces ps maxRows) := by
  have hopening : Glues postgresRules ["SELECT * FROM ("] :=
    .of_glue (by decide +kernel) (by decide)
  have hclosing : Glues postgresRules [") AS queryfabric_result LIMIT "] :=
    .of_glue (by decide +kernel) (by decide)
  have hnumber : Reads postgresRules Safe True [toString (fetchRows maxRows)] :=
    (plain_toString postgresRules _).reads
  have hrest := hclosing.glue_append hnumber
  have hsafe :
      Safe (chars ([") AS queryfabric_result LIMIT "] ++ [toString (fetchRows maxRows)])) :=
    safe_cons (by decide) _
  exact hopening.glue_append ((h.append_safe hrest hsafe).congr (by rw [and_true]))

/-- A statement that closes its parentheses is bounded exactly when it is read as it was written. -/
theorem isBounded_iff (hnests : Nests ps) (h : Reads postgresRules Safe ok ps) (maxRows : Nat) :
    IsBounded ps.text maxRows (writtenTokens postgresRules ps) ↔ ok := by
  rw [← (reads_boundedPieces h maxRows).lex_eq_iff Safe.nil, ← chars_boundedPieces,
    writtenTokens_boundedPieces]
  have hsplit := (nests_iff.mp hnests).split_eq (hostLimit maxRows)
  constructor
  · rintro ⟨group, hlex, hgroup⟩
    rw [hlex, splitGroup_eq hgroup]
  · exact fun hlex => ⟨_, hlex, hsplit⟩

end Reading

/-- A rendered statement is read as the nodes of its query. -/
theorem readsAs_renderQuery {r : SqlRenderer} {q : BoundQueryPlan} {explain : Bool} {ps : Pieces}
    (h : renderQuery r q explain = .ok ps) : ReadsAs r (queryNodes q) ps := by
  obtain ⟨queryPieces, hquery, h⟩ := bind_eq_ok.mp h
  cases h
  cases explain with
  | false => exact readsAs_query hquery
  | true =>
    intro hcopies
    have hexplain : Glues r.backend.rules ["EXPLAIN "] := by
      cases r.backend <;> exact .of_glue (by decide +kernel) (by decide)
    exact hexplain.glue_append (readsAs_query hquery hcopies)

/-- The host bounds the statement that is emitted, as it was written, exactly when no minus stands
before a minus. -/
theorem isBounded_emit_iff {query : BoundQuery} {catalog : Catalog} {artifact : SqlArtifact}
    (h : emit .postgres query catalog = .ok artifact)
    (hcopies : ∀ n ∈ queryNodes query.plan, (emissionRenderer .postgres query catalog).Copies n)
    (hflat : Flat (queryNodes query.plan)) (maxRows : Nat) :
    ∃ ps, renderQuery (emissionRenderer .postgres query catalog) query.plan query.parsed.explain =
      .ok ps ∧
      (IsBounded artifact.text maxRows (writtenTokens postgresRules ps) ↔
        ∀ n ∈ queryNodes query.plan,
        (emissionRenderer .postgres query catalog).lexes n = true) := by
  obtain ⟨ps, hps, htext⟩ := text_of_emit h
  refine ⟨ps, hps, ?_⟩
  rw [htext]
  exact isBounded_iff (nests_renderQuery rfl hflat hps) (readsAs_renderQuery hps hcopies) maxRows

/-- A plain query is bounded. -/
theorem isBounded_plainEvents : ∃ artifact ps, emit .postgres plainEvents eventsCatalog =
    .ok artifact ∧
    IsBounded artifact.text 1000 (writtenTokens postgresRules ps) := by
  obtain ⟨artifact, hemit⟩ : ∃ artifact, emit .postgres plainEvents eventsCatalog =
      .ok artifact := by
    rw [exists_eq_ok, emit_succeeds_iff_artifact (by decide)]
    unfold Meets
    decide
  have hplain : ∀ n ∈ queryNodes plainEvents.plan,
      (emissionRenderer .postgres plainEvents eventsCatalog).Copies n ∧ IsFlat n := by
    simp [plainEvents, eventsQuery, queryNodes, cteNodes, setExprNodes, selectNodes,
      projectionNodes, tablesNodes, tableWithJoinsNodes, joinNodes, relationNodes, tableNodes,
      orderByNodes, exprNodes, exprsNodes, exprOptionNodes, SqlRenderer.Copies, IsFlat]
  obtain ⟨ps, -, hiff⟩ := isBounded_emit_iff hemit (fun n hn => (hplain n hn).1)
    (fun n hn => (hplain n hn).2) 1000
  exact ⟨artifact, ps, hemit, hiff.mpr (by decide +kernel)⟩

/-! ## A statement that is not bounded -/

/-- `SELECT - -1, '<line break><text> --'`. -/
def smuggledSql (text : String) : String := "SELECT - -1, '\n" ++ text ++ " --'"

/-- Its tree, with the spans that the parser gives the nodes. -/
def smuggledTree (spans : Nat → SqlSpan) (text : String) : Ast.Query :=
  let negative : Ast.Expr := ⟨.unaryOp .minus ⟨.value (.number "1"), spans 0⟩, spans 1⟩
  let literal : Ast.Expr := ⟨.value (.singleQuotedString ("\n" ++ text ++ " --")), spans 2⟩
  { with_ := none, orderBy := none, limitClause := none, fetch := false, locks := false,
    forClause := false
    pipeOperators := false, settings := none, formatClause := none, span := spans 3
    body := .select
      { distinct := false, from_ := [], selection := none, groupBy := .expressions [],
        having := none, span := spans 4
        projection := [.unnamedExpr ⟨.unaryOp .minus negative, spans 5⟩ (spans 6),
          .unnamedExpr literal (spans 7)] } }

/-- What is written for it. -/
def smuggledPieces (text : String) : Pieces :=
  ["SELECT ", "-", "-", "1", ", ", quoted '\'' ("\n" ++ text ++ " --")]

/-- The parsed query. -/
def smuggled (parser : SqlParser) (spans : Nat → SqlSpan) (text : String) : ParsedQuery :=
  let map := SourceMap.identity (smuggledSql text).toList 0
  { dialect := "sql", sourceSql := smuggledSql text,
    canonicalSql := parser.display (smuggledTree spans text)
    explain := false, syntaxTree := ((lowerQuery map (smuggledTree spans text) "query").run []).1
    loweringDiagnostics := [] }

/-- The statement starts with its keyword. -/
theorem head_smuggledSql (text : String) : (smuggledSql text).toList.head? = some 'S' := by
  unfold smuggledSql
  rw [String.toList_append, String.toList_append]
  rfl

/-- The tree is lowered without a diagnostic. -/
theorem lowered_smuggledTree (spans : Nat → SqlSpan) (text : String) :
    ((lowerQuery (SourceMap.identity (smuggledSql text).toList 0)
      (smuggledTree spans text) "query").run []).2 = [] := rfl

/-- The statement is parsed as the parser reads it. -/
theorem parse_smuggled {parser : SqlParser} {spans : Nat → SqlSpan} {text : String}
    (hparse : parser.parseSql (smuggledSql text).toList = .ok [.query (smuggledTree spans text)]) :
    parseSqlQuery parser (smuggledSql text).toList = .ok (smuggled parser spans text, []) := by
  have hparsed := parseSqlQuery_select (head_smuggledSql text) hparse
  rw [lowered_smuggledTree] at hparsed
  simp only [String.ofList_toList] at hparsed
  exact hparsed

/-- The smuggled query binds and is emitted. -/
theorem emit_smuggled (parser : SqlParser) (spans : Nat → SqlSpan) (text : String)
    (context : BinderContext) :
    ∃ bound artifact, Bind.bindAndValidate context (smuggled parser spans text) = .ok bound ∧
      bound.parsed = smuggled parser spans text ∧ bound.parameters = [] ∧
      emit .postgres bound context.catalog = .ok artifact ∧
      artifact.text = (smuggledPieces text).text :=
  ⟨_, _, rfl, rfl, rfl, rfl, rfl⟩

/-- What the smuggled query uses of the budget. -/
theorem usage_smuggled (parser : SqlParser) (spans : Nat → SqlSpan) (text : String) :
    QueryBudgetUsage.forParsed (smuggled parser spans text) =
      { inputBytes := (smuggledSql text).utf8ByteSize, syntaxNodes := 8, nestingDepth := 3 } := by
  rfl

/-- A smuggled query that is short enough is within the budget. -/
theorem checkBudget_smuggled (parser : SqlParser) (spans : Nat → SqlSpan) {text : String}
    (hsize : (smuggledSql text).utf8ByteSize ≤ 1024 * 1024) :
    ({} : QueryCompiler).checkBudget (.forParsed (smuggled parser spans text)) = .ok () := by
  rw [usage_smuggled, QueryCompiler.checkBudget]
  have hcheck : ({} : QueryBudget).check
      { inputBytes := (smuggledSql text).utf8ByteSize, syntaxNodes := 8, nestingDepth := 3 } =
          .ok () := by
    rw [QueryBudget.check, QueryBudget.limits, List.find?_eq_none.mpr]
    simpa using hsize
  rw [hcheck]
  rfl

/-- A statement of this form goes through the compiler, and is emitted. -/
theorem query_smuggled_eq {F : Type} (host : QueryHost F) {spans : Nat → SqlSpan} {text : String}
    (hparse : host.parser.parseSql (smuggledSql text).toList =
      .ok [.query (smuggledTree spans text)])
    (hsize : (smuggledSql text).utf8ByteSize ≤ 1024 * 1024) :
    ∃ artifact, host.query { sql := smuggledSql text } = .ok (artifact, []) ∧
      artifact.text = (smuggledPieces text).text := by
  -- The statement is small in every measure of the budget.
  have hcheck := checkBudget_smuggled host.parser spans hsize
  obtain ⟨bound, artifact, hbound, hsame, hnone, hemit, htext⟩ :=
    emit_smuggled host.parser spans text ⟨host.catalog, {}, host.toLowercase⟩
  have hdialect : (genericSqlDialect host.parser).parse (smuggledSql text) =
      .ok (smuggled host.parser spans text) :=
    congrArg (Except.map Prod.fst) (parse_smuggled hparse)
  -- The stages of the compiler in turn: parsed, bound, and checked again.
  have hparsed : ({} : QueryCompiler).parse (genericSqlDialect host.parser) (smuggledSql text) =
      .ok (smuggled host.parser spans text) :=
    bind_eq_ok.mpr ⟨_, congrArg (Except.mapError _) hdialect, bind_eq_ok.mpr ⟨_, hcheck, rfl⟩⟩
  have hafter : ({} : QueryCompiler).checkBudget
      ((QueryBudgetUsage.forParsed bound.parsed).withParameters bound.parameters.length) =
          .ok () := by
    rw [hsame, hnone]
    exact hcheck
  have hcompiled : ({} : QueryCompiler).bindAndValidate ⟨host.catalog, {}, host.toLowercase⟩
      (smuggled host.parser spans text) = .ok bound :=
    bind_eq_ok.mpr ⟨_, hcheck, bind_eq_ok.mpr ⟨_, congrArg (Except.mapError _) hbound,
      bind_eq_ok.mpr ⟨bound, rfl, bind_eq_ok.mpr ⟨_, hafter, rfl⟩⟩⟩⟩
  refine ⟨artifact, ?_, htext⟩
  -- `query` runs these stages one after the other.
  refine bind_eq_ok.mpr ⟨_, congrArg (Except.mapError _) hparsed, bind_eq_ok.mpr ⟨{}, rfl, ?_⟩⟩
  refine bind_eq_ok.mpr ⟨bound, congrArg (Except.mapError _) hcompiled, ?_⟩
  refine bind_eq_ok.mpr ⟨artifact, congrArg (Except.mapError _) hemit, ?_⟩
  rw [hnone]
  rfl

/-- Nothing follows the last line. -/
theorem afterLine_of_not_mem : ∀ {cs : List Char}, '\n' ∉ cs → afterLine cs = []
  | [], _ => rfl
  | c :: cs, h => by
    obtain ⟨hc, hcs⟩ := List.ne_and_not_mem_of_not_mem_cons h
    rw [afterLine, beq_false_of_ne hc.symm]
    exact afterLine_of_not_mem hcs

/-- Without quotes nothing is doubled. -/
theorem doubleQuotes_of_not_mem {q : Char} : ∀ {cs : List Char}, q ∉ cs → doubleQuotes q cs = cs
  | [], _ => rfl
  | c :: cs, h => by
    obtain ⟨hc, hcs⟩ := List.ne_and_not_mem_of_not_mem_cons h
    rw [doubleQuotes_cons_of_ne hc.symm, doubleQuotes_of_not_mem hcs]

/-- The characters of the statement with the smuggled text. -/
theorem chars_smuggled {text : String} (hquote : '\'' ∉ text.toList) (maxRows : Nat) :
    chars (boundedPieces (smuggledPieces text) maxRows) =
      "SELECT * FROM (SELECT ".toList ++ ("--1, '\n".toList ++ (text.toList ++
        (" --') AS queryfabric_result LIMIT ".toList ++
          (toString (fetchRows maxRows)).toList))) := by
  have hliteral : '\'' ∉ ("\n" ++ text ++ " --").toList := by simpa using hquote
  have hopening : "SELECT * FROM (SELECT ".toList = "SELECT * FROM (".toList ++
      "SELECT ".toList := by decide
  have hcomment : "--1, '\n".toList =
      "-".toList ++ ("-".toList ++ ("1".toList ++ (", ".toList ++ '\'' :: "\n".toList))) := by
    decide
  have hend : " --') AS queryfabric_result LIMIT ".toList =
      " --".toList ++ '\'' :: ") AS queryfabric_result LIMIT ".toList := by
    decide
  rw [boundedPieces, smuggledPieces, quoted, doubleQuotes_of_not_mem hliteral, hopening, hcomment,
    hend]
  simp only [chars_cons, chars_nil, String.toList_append, String.toList_ofList, List.append_assoc,
    List.cons_append, List.nil_append, List.append_nil, -String.reduceToList]

/-- A comment up to the line feed is no token. -/
theorem lex_smuggled_start (rest : List Char) :
    lex postgresRules ("--1, '\n".toList ++ rest) = lex postgresRules rest := by
  have hcomment : "--1, '\n".toList = ['-', '-', '1', ',', ' ', '\'', '\n'] := by decide
  rw [hcomment]
  exact lex_comment postgresRules rfl

/-- The host's own text is a comment there. -/
theorem lex_smuggled_end (n : Nat) :
    lex postgresRules (" --') AS queryfabric_result LIMIT ".toList ++ (toString n).toList) =
      [] := by
  obtain ⟨c, cs, heq, hdigits⟩ := digits_toString n
  have hline : '\n' ∉ "') AS queryfabric_result LIMIT ".toList ++ (toString n).toList := by
    rw [List.mem_append, heq]
    rintro (h | h)
    · revert h
      decide
    · have hdigit := List.all_eq_true.mp hdigits _ h
      revert hdigit
      decide
  have hsplit : " --') AS queryfabric_result LIMIT ".toList =
      ' ' :: '-' :: '-' :: "') AS queryfabric_result LIMIT ".toList := by
    decide
  rw [hsplit, List.cons_append, List.cons_append, List.cons_append, lex_space _ (by decide),
    lex_comment _ rfl, afterComment, afterLine_of_not_mem hline, lex_nil]

/-- Any closed text without a quote can be put there, and it is what is executed: the catalog has no
say in what it reads, and the host's parenthesis and `LIMIT` are a comment. -/
theorem query_smuggled {F : Type} (host : QueryHost F) {spans : Nat → SqlSpan} {text : String}
    (hparse : host.parser.parseSql (smuggledSql text).toList =
      .ok [.query (smuggledTree spans text)])
    (hsize : (smuggledSql text).utf8ByteSize ≤ 1024 * 1024)
    (hclosed : closed postgresRules text.toList = true) (hquote : '\'' ∉ text.toList) :
    ∃ artifact parameters, host.query { sql := smuggledSql text } = .ok (artifact, parameters) ∧
      lex postgresRules (boundedSql artifact.text maxQueryRows).toList =
        hostOpening ++ ⟨.word, "SELECT".toList⟩ :: lex postgresRules text.toList := by
  obtain ⟨artifact, hquery, htext⟩ := query_smuggled_eq host hparse hsize
  refine ⟨artifact, [], hquery, ?_⟩
  have hopening : lex postgresRules "SELECT * FROM (SELECT ".toList = hostOpening ++
      [⟨.word, "SELECT".toList⟩] := by
    decide +kernel
  have hsafe : Safe
      (" --') AS queryfabric_result LIMIT ".toList ++ (toString (fetchRows maxQueryRows)).toList) :=
    Safe.cons (c := ' ') (by decide) _
  rw [htext, chars_boundedPieces, chars_smuggled hquote, lex_glue_append (by decide +kernel),
    hopening, lex_smuggled_start, lex_closed_append hclosed hsafe, lex_smuggled_end,
    List.append_nil, List.append_assoc, List.singleton_append]

/-- A host for the requests of one text. -/
def smuggledHost (text : String) : QueryHost Unit where
  parser := { parseSql := fun _ => .ok [.query (smuggledTree (fun _ => .empty) text)],
              display := fun _ => "" }
  texts := ⟨fun _ => "", fun _ => "", fun _ => none, fun _ => (), fun _ => ()⟩
  catalog := eventsCatalog
  toLowercase c := [c.toLower]

/-- A relation of the database, and a `LIMIT`. -/
def rolesText : String := "rolname FROM pg_roles) AS queryfabric_result LIMIT 1000000"

/-- A relation that the catalog does not have is read, and more rows than the host allows. -/
theorem query_smuggled_roles : ∃ artifact parameters,
    (smuggledHost rolesText).query { sql := smuggledSql rolesText } = .ok (artifact, parameters) ∧
      ∀ statement, ¬ IsBounded artifact.text maxQueryRows statement := by
  obtain ⟨artifact, parameters, hquery, hlex⟩ :=
    query_smuggled (smuggledHost rolesText) rfl (by decide +kernel) (by decide +kernel) (by decide)
  refine ⟨artifact, parameters, hquery, ?_⟩
  rintro statement ⟨group, hgroup, hsplit⟩
  obtain rfl := List.append_cancel_left (hlex.symm.trans hgroup)
  have hrest :
    (splitGroup 0 (⟨.word, "SELECT".toList⟩ :: lex postgresRules rolesText.toList)).map Prod.snd ≠
      some (hostLimit maxQueryRows) := by
    decide +kernel
  exact hrest (congrArg (Option.map Prod.snd) hsplit)

end QueryFabric.Demo
