import QueryFabric.Bind.Validate
import QueryFabric.Bind.Wildcards
import QueryFabric.Lib.Succeeds
import QueryFabric.Lib.Utf8

/-!
# The compiler

`QueryCompiler` of `crates/queryfabric/src/lib.rs` parses, binds and normalizes a query, and holds
it to a budget: after parsing, before binding, and once more when the optimization passes
(`crates/queryfabric-opt/src/lib.rs`) are through.

`compiled_of_ok` says what a caller has of a query that the compiler accepts, whatever the passes do
besides widening it. The number of its columns is limited, but by a power of the budget only.
`accepts_nestedWildcards_iff` says that this is how it is: the compiler takes a text of nested
wildcards exactly if its nodes and its depth fit, and then the number of columns is a power of the
number of levels.
-/

namespace QueryFabric

open Lib QueryFabric.Bind

/-! ## Optimization passes -/

/-- The errors of a compiler: an exceeded budget, or another error. -/
inductive CompilerError
  | budgetExceeded (error : BudgetExceeded)
  | query (error : QueryFabricError)
deriving DecidableEq, Repr

/-- `OptimizationPass`. -/
structure OptimizationPass where
  name : String
  apply : BoundQuery → Catalog → Except CompilerError BoundQuery

/-- `IdentityPass`. -/
def identityPass : OptimizationPass where
  name := "identity"
  apply query _ := .ok query

/-- `RewriteAdvisory`. -/
structure RewriteAdvisory where
  code : String
  message : String
deriving DecidableEq, Repr

/-- The advisory about a pass that is applied. -/
def OptimizationPass.advisory (pass : OptimizationPass) : RewriteAdvisory where
  code := "QFNORM:" ++ pass.name
  message := "Applied normalization pass `" ++ pass.name ++ "`."

/-- The note that an advisory becomes. -/
def RewriteAdvisory.note (advisory : RewriteAdvisory) : QueryDiagnostic :=
  .note advisory.code advisory.message

/-- The loop of `OptimizationPipeline::normalize`. -/
def applyPasses (catalog : Catalog) : List OptimizationPass → List RewriteAdvisory → BoundQuery →
    Except CompilerError (List RewriteAdvisory × BoundQuery)
  | [], advisories, query => .ok (advisories, query)
  | pass :: passes, advisories, query => do
    let query ← pass.apply query catalog
    applyPasses catalog passes (advisories ++ [pass.advisory]) query

/-- `OptimizationPipeline::normalize`. -/
def normalize (passes : List OptimizationPass) (query : BoundQuery) (catalog : Catalog) :
    Except CompilerError BoundQuery := do
  let (advisories, query) ← applyPasses catalog passes [] query
  if advisories.isEmpty then return query
  return { query with diagnostics := query.diagnostics ++ advisories.map RewriteAdvisory.note }

/-- What every pass keeps holds of what they make together, and there is an advisory for each. -/
theorem applyPasses_keeps {P : BoundQuery → Prop} {catalog : Catalog} :
    ∀ {passes : List OptimizationPass} {advisories : List RewriteAdvisory} {query : BoundQuery}
      {result : List RewriteAdvisory × BoundQuery},
      (∀ pass ∈ passes, ∀ query query', P query → pass.apply query catalog = .ok query' →
        P query') → P query →
        applyPasses catalog passes advisories query = .ok result →
          result.1 = advisories ++ passes.map OptimizationPass.advisory ∧ P result.2
  | [], advisories, query, _, _, hquery, h => by
    obtain rfl := Except.ok.inj h
    exact ⟨(List.append_nil advisories).symm, hquery⟩
  | pass :: passes, advisories, query, result, hkeep, hquery, h => by
    obtain ⟨query', happly, hrest⟩ := bind_eq_ok.mp h
    obtain ⟨hfirst, hlater⟩ := List.forall_mem_cons.mp hkeep
    obtain ⟨hadvisories, hresult⟩ :=
      applyPasses_keeps hlater (hfirst query query' hquery happly) hrest
    refine ⟨?_, hresult⟩
    rw [hadvisories, List.append_assoc, List.map_cons]
    rfl

/-- Normalizing keeps what the passes keep, and adds a note for each of them. -/
theorem normalize_keeps {P : BoundQuery → Prop} {catalog : Catalog} {passes : List OptimizationPass}
    {query normalized : BoundQuery}
    (hkeep : ∀ pass ∈ passes, ∀ query query', P query →
      pass.apply query catalog = .ok query' → P query')
    (hquery : P query) (h : normalize passes query catalog = .ok normalized) :
    ∃ last : BoundQuery, P last ∧ normalized =
      { last with diagnostics := last.diagnostics ++ passes.map fun pass =>
                    pass.advisory.note } := by
  obtain ⟨⟨advisories, last⟩, hpasses, h⟩ := bind_eq_ok.mp h
  obtain ⟨hadvisories, hlast⟩ := applyPasses_keeps hkeep hquery hpasses
  refine ⟨last, hlast, ?_⟩
  dsimp only at h hadvisories
  rw [List.nil_append] at hadvisories
  subst hadvisories
  split at h
  · rename_i hempty
    obtain rfl := Except.ok.inj h
    rw [List.isEmpty_iff, List.map_eq_nil_iff] at hempty
    rw [hempty, List.map_nil, List.append_nil]
  · obtain rfl := Except.ok.inj h
    rw [List.map_map]
    rfl

/-! ## The compiler -/

/-- `Dialect`. -/
structure Dialect where
  parse : String → Except QueryFabricError ParsedQuery

/-- `GenericSqlDialect`. -/
def genericSqlDialect (parser : Dialect.SqlParser) : Dialect where
  parse input := (Dialect.parseSqlQuery parser input.toList).map Prod.fst

/-- `QueryCompiler`. -/
structure QueryCompiler where
  passes : List OptimizationPass := []
  budget : QueryBudget := {}

namespace QueryCompiler

/-- The budget is checked, and its error is one of the compiler. -/
def checkBudget (compiler : QueryCompiler) (usage : QueryBudgetUsage) : Except CompilerError Unit :=
  (compiler.budget.check usage).mapError .budgetExceeded

/-- `QueryCompiler::parse`. -/
def parse (compiler : QueryCompiler) (dialect : Dialect) (input : String) :
    Except CompilerError ParsedQuery := do
  let parsed ← (dialect.parse input).mapError .query
  compiler.checkBudget (.forParsed parsed)
  return parsed

/-- `QueryCompiler::bind_and_validate`. -/
def bindAndValidate (compiler : QueryCompiler) (context : BinderContext) (parsed : ParsedQuery) :
    Except CompilerError BoundQuery := do
  compiler.checkBudget (.forParsed parsed)
  let bound ← (Bind.bindAndValidate context parsed).mapError .query
  let normalized ← normalize compiler.passes bound context.catalog
  compiler.checkBudget
    ((QueryBudgetUsage.forParsed normalized.parsed).withParameters normalized.parameters.length)
  return normalized

end QueryCompiler

/-- The columns of a bound query. -/
def BoundQuery.width (bound : BoundQuery) : Nat := bound.resultSchema.fields.length

/-- What a caller has of a query that the compiler accepts, over relations of at most `columns`
columns. -/
structure Compiled (compiler : QueryCompiler) (columns : Nat) (bound : BoundQuery) : Prop where
  within : ∀ entry ∈ compiler.budget.limits
    ((QueryBudgetUsage.forParsed bound.parsed).withParameters bound.parameters.length),
      entry.actual ≤ entry.limit
  advised : ∃ own, bound.diagnostics = own ++ compiler.passes.map fun pass => pass.advisory.note
  width : bound.width ≤ max 2 columns ^ compiler.budget.maxSyntaxNodes

/-- The schema of a bound query is that of its plan. -/
theorem resultSchema_of_ok {context : BinderContext} {parsed : ParsedQuery} {bound : BoundQuery}
    (h : Bind.bindAndValidate context parsed = .ok bound) :
    bound.resultSchema = (boundPlan context parsed.syntaxTree).resultSchema := by
  simp only [Bind.bindAndValidate] at h
  split at h
  · cases h
  · obtain ⟨bindings, _, h⟩ := bind_eq_ok.mp h
    obtain rfl := pure_eq_ok.mp h
    rfl

/-- A query that the compiler accepts is within the budget, says which passes it went through, and
is no wider than a power of the budget. -/
theorem compiled_of_ok {compiler : QueryCompiler} {context : BinderContext} {parsed : ParsedQuery}
    {bound : BoundQuery} {columns : Nat}
    (hcatalog : ∀ namespace_ name schema,
      context.catalog.resolveRelation namespace_ name = some schema →
      schema.columns.length ≤ columns)
    (hpasses : ∀ pass ∈ compiler.passes, ∀ query query',
      pass.apply query context.catalog = .ok query' →
      query'.width ≤ query.width)
    (h : compiler.bindAndValidate context parsed = .ok bound) :
    Compiled compiler columns bound := by
  unfold QueryCompiler.bindAndValidate at h
  -- The stages of the compiler: the budget, the binder, the passes, and the budget again.
  obtain ⟨_, hbefore, h⟩ := bind_eq_ok.mp h
  obtain ⟨validated, hbind, h⟩ := bind_eq_ok.mp h
  obtain ⟨normalized, hnormalize, h⟩ := bind_eq_ok.mp h
  obtain ⟨_, hafter, h⟩ := bind_eq_ok.mp h
  obtain rfl := pure_eq_ok.mp h
  -- The bound query is as wide as its syntax nodes allow, and those are within the budget.
  have hwidth : validated.width ≤ max 2 columns ^ compiler.budget.maxSyntaxNodes := by
    have hlimit : ∀ namespace_ name schema,
      context.catalog.resolveRelation namespace_ name = some schema →
        schema.columns.length ≤ max 2 columns :=
      fun namespace_ name schema hschema =>
        Nat.le_trans (hcatalog namespace_ name schema hschema) (Nat.le_max_right _ _)
    have hcolumns := columns_bindQuery (Nat.le_max_left 2 columns) hlimit none parsed.syntaxTree
      (Binder.new context)
    have hnodes : (measureQuery parsed.syntaxTree).syntaxNodes ≤ compiler.budget.maxSyntaxNodes :=
      le_of_check_ok (mapError_eq_ok.mp hbefore)
        ⟨.syntaxNodes, compiler.budget.maxSyntaxNodes, (measureQuery parsed.syntaxTree).syntaxNodes⟩
        (.tail _ (.tail _ (.head _)))
    unfold BoundQuery.width
    rw [resultSchema_of_ok (mapError_eq_ok.mp hbind)]
    exact Nat.le_trans hcolumns (pow_le_of_le (Nat.le_max_left 2 columns) hnodes)
  -- No pass makes it wider.
  obtain ⟨last, hlast, rfl⟩ := normalize_keeps
    (P := fun query => query.width ≤ max 2 columns ^ compiler.budget.maxSyntaxNodes)
    (fun pass hpass query query' hquery happly =>
      Nat.le_trans (hpasses pass hpass query query' happly) hquery)
    hwidth hnormalize
  exact ⟨le_of_check_ok (mapError_eq_ok.mp hafter), ⟨_, rfl⟩, hlast⟩

/-! ## The portable catalog -/

/-- `portable_catalog`. -/
def portableCatalog (snapshotId : String) : MemoryCatalog :=
  let catalog := MemoryCatalog.setSnapshotId {} snapshotId
  let catalog := catalog.registerRelation
    { namespace_ := none, name := "records", aliases := ["r"], kind := .table
      columns := [{ name := "record_id", dataType := .uuid, nullable := false },
                  { name := "score", dataType := .float64, nullable := true }] }
  catalog.registerRelation
    { namespace_ := none, name := "links", aliases := ["l"], kind := .table
      columns := [{ name := "source_record_id", dataType := .uuid, nullable := false },
                  { name := "target_record_id", dataType := .uuid, nullable := false },
                  { name := "weight", dataType := .float64, nullable := false }] }

/-- What a catalog resolves a name to is one of its relations. -/
theorem MemoryCatalog.mem_of_resolveRelation {c : MemoryCatalog} {namespace_ : Option String}
    {name : String}
    {schema : RelationSchema} (h : c.resolveRelation namespace_ name = some schema) :
    schema ∈ c.relations.map Prod.snd := by
  unfold resolveRelation at h
  obtain hlookup | ⟨_, hfind⟩ := Option.or_eq_some_iff.mp h
  · obtain ⟨before, after, hentries, _⟩ := List.lookup_eq_some_iff.mp hlookup
    rw [hentries]
    exact List.mem_map_of_mem (List.mem_append_right before List.mem_cons_self)
  · exact List.mem_of_find?_eq_some hfind

/-- The relations of the portable catalog have few columns. -/
theorem columns_portableCatalog_le {snapshotId : String} {namespace_ : Option String}
    {name : String} {schema : RelationSchema}
    (h : (portableCatalog snapshotId).toCatalog.resolveRelation namespace_ name = some schema) :
    schema.columns.length ≤ 3 := by
  have hall : ∀ schema ∈ (portableCatalog snapshotId).relations.map Prod.snd,
      schema.columns.length ≤ 3 := by
    show ∀ schema ∈ (portableCatalog "").relations.map Prod.snd, schema.columns.length ≤ 3
    decide
  exact hall schema (MemoryCatalog.mem_of_resolveRelation h)

/-- A node of no span. -/
def nodeAt (path : String) : SyntaxNode := { span := none, nodeId := path }

/-- The parsed query of two wildcards over the records of the portable catalog. -/
def nestedRecords : ParsedQuery where
  dialect := "sql"
  sourceSql := "SELECT *, * FROM (SELECT * FROM records)"
  canonicalSql := "SELECT *, * FROM (SELECT * FROM records)"
  explain := false
  syntaxTree :=
    wildcardSelect (nodeAt "query") (nodeAt "query.body") (nodeAt "query.body.from[0]")
      [nodeAt "query.body.projection[0]", nodeAt "query.body.projection[1]"]
      (.derived
        (wildcardSelect (nodeAt "query.body.from[0].relation.subquery")
          (nodeAt "query.body.from[0].relation.subquery.body")
          (nodeAt "query.body.from[0].relation.subquery.body.from[0]")
          [nodeAt "query.body.from[0].relation.subquery.body.projection[0]"]
          (.table { namespace_ := none, name := "records" } none
            (nodeAt "query.body.from[0].relation.subquery.body.from[0].relation")))
        none (nodeAt "query.body.from[0].relation"))
  loweringDiagnostics := []

/-- A context over the portable catalog, without values for parameters. -/
def portableContext : BinderContext where
  catalog := (portableCatalog "portable").toCatalog
  parameters := {}
  toLowercase c := [c.toLower]

/-- A compiler with one pass, which changes nothing. -/
def identityCompiler : QueryCompiler := { passes := [identityPass] }

/-- The compiler with the identity pass, over relations of at most three columns. -/
theorem compiled_nestedRecords :
    ∃ bound, identityCompiler.bindAndValidate portableContext nestedRecords = .ok bound ∧
    Compiled identityCompiler 3 bound ∧ bound.width = 4 := by
  have hrun : identityCompiler.bindAndValidate portableContext nestedRecords = .ok _ := rfl
  refine ⟨_, hrun, compiled_of_ok (fun _ _ _ h => columns_portableCatalog_le h) ?_ hrun, rfl⟩
  intro pass hpass query query' h
  obtain rfl := List.mem_singleton.mp hpass
  obtain rfl := Except.ok.inj h
  exact Nat.le_refl _

/-! ## Nested wildcards -/

/-- Whether the nodes and the depth of nested wildcards are within a budget. -/
def NestedWildcardsFit (budget : QueryBudget) (wildcards levels : Nat) : Prop :=
  levels * (wildcards + 3) + 4 ≤ budget.maxSyntaxNodes ∧ 2 * levels + 1 ≤ budget.maxNestingDepth

/-- Whether they are is computed. -/
instance (budget : QueryBudget) (wildcards levels : Nat) :
    Decidable (NestedWildcardsFit budget wildcards levels) :=
  inferInstanceAs (Decidable (_ ∧ _))

/-- The default budget has room for thirty-one levels, and on as many for three hundred and nineteen
wildcards each. -/
theorem nestedWildcardsFit_default (wildcards levels : Nat) :
    (NestedWildcardsFit {} wildcards levels → levels ≤ 31) ∧
      (NestedWildcardsFit {} wildcards 31 ↔ wildcards ≤ 319) := by
  unfold NestedWildcardsFit
  dsimp only
  omega

/-- A usage within every limit is checked without an error. -/
theorem check_ok_of_le {budget : QueryBudget} {usage : QueryBudgetUsage}
    (h : ∀ entry ∈ budget.limits usage, entry.actual ≤ entry.limit) :
    budget.check usage = .ok () := by
  have hnone : (budget.limits usage).find? (fun entry => entry.limit < entry.actual) = none := by
    refine List.find?_eq_none.mpr fun entry hentry => ?_
    rw [decide_eq_true_eq, Nat.not_lt]
    exact h entry hentry
  unfold QueryBudget.check
  rw [hnone]

section Nested

variable {budget : QueryBudget} {context : BinderContext} {name : NameRef} {schema : RelationSchema}
  {wildcards levels : Nat} {parsed : ParsedQuery}

/-- The usage of nested wildcards. -/
theorem forParsed_nestedWildcards
    (htree : NestedWildcards name wildcards levels parsed.syntaxTree) :
    QueryBudgetUsage.forParsed parsed =
      { inputBytes := parsed.sourceSql.utf8ByteSize, syntaxNodes := levels * (wildcards + 3) + 4
        nestingDepth := 2 * levels + 1 } := by
  unfold QueryBudgetUsage.forParsed
  rw [usage_nestedWildcards htree]

/-- Nested wildcards are within a budget exactly if they fit, once their text is. -/
theorem check_nestedWildcards_iff
    (htree : NestedWildcards name wildcards levels parsed.syntaxTree)
    (hbytes : parsed.sourceSql.utf8ByteSize ≤ budget.maxInputBytes) :
    budget.check (.forParsed parsed) = .ok () ↔ NestedWildcardsFit budget wildcards levels := by
  rw [forParsed_nestedWildcards htree]
  constructor
  · intro h
    have hwithin := le_of_check_ok h
    exact ⟨hwithin ⟨.syntaxNodes, _, _⟩ (.tail _ (.tail _ (.head _))),
      hwithin ⟨.nestingDepth, _, _⟩ (.tail _ (.tail _ (.tail _ (.head _))))⟩
  · rintro ⟨hnodes, hdepth⟩
    refine check_ok_of_le ?_
    simp [QueryBudget.limits, hbytes, hnodes, hdepth]

/-- Nested wildcards are bound without a diagnostic, and without a parameter. -/
theorem bindAndValidate_nestedWildcards
    (hrelation : context.catalog.resolveRelation name.namespace_ name.name = some schema)
    (htree : NestedWildcards name wildcards levels parsed.syntaxTree)
    (hlowered : parsed.loweringDiagnostics = []) :
    ∃ bound, Bind.bindAndValidate context parsed = .ok bound ∧ bound.parsed = parsed ∧
      bound.parameters = [] ∧ bound.width = schema.columns.length * wildcards ^ levels := by
  obtain ⟨plan, binder, hrun, hcolumns, hquiet⟩ :=
    columns_nestedWildcards hrelation htree none (Binder.new context)
  -- Nothing was reported and no parameter was seen.
  have hdiagnostics : binder.diagnostics = [] := hquiet.diagnostics
  have hconstraints : binder.parameterConstraints = [] := hquiet.parameterConstraints
  have hfound : (parsed.loweringDiagnostics ++ binder.diagnostics).find?
      QueryDiagnostic.isError = none := by
    rw [hdiagnostics, hlowered]
    rfl
  have hparameters : finalizeParameters context.parameters binder = .ok [] := by
    unfold finalizeParameters
    rw [hdiagnostics, hconstraints]
    rfl
  refine ⟨{ parsed, catalogSnapshot := some context.catalog.snapshotId, parameters := []
            diagnostics := parsed.loweringDiagnostics ++ binder.diagnostics
            capabilityRequirements :=
              capabilityRequirementsFromPlan plan parsed.explain context.catalog
            resultSchema := plan.resultSchema, plan }, ?_, rfl, rfl, hcolumns⟩
  unfold Bind.bindAndValidate
  rw [hrun]
  dsimp only
  rw [hfound, hparameters]
  rfl

/-- The tree of a text that is parsed to nested wildcards. -/
theorem nestedWildcards_of_parse {parser : Dialect.SqlParser} {input : String}
    {tree : Dialect.Ast.Query} {rest : List Dialect.Ast.Statement} {name : Dialect.Ast.ObjectName}
    (hparser : parser.parseSql (Dialect.stripLeadingExplain input.toList).2.1 =
      .ok (.query tree :: rest))
    (htree : Dialect.Ast.NestedWildcards name wildcards levels tree)
    (hparse : (genericSqlDialect parser).parse input = .ok parsed) :
    NestedWildcards (Dialect.lowerNameRef name) wildcards levels parsed.syntaxTree ∧
      parsed.loweringDiagnostics = [] ∧ parsed.sourceSql = input := by
  have hparse : (Dialect.parseSqlQuery parser input.toList).map Prod.fst = .ok parsed := hparse
  cases hfound : Dialect.parseSqlQuery parser input.toList with
  | error error =>
    rw [hfound] at hparse
    cases hparse
  | ok found =>
    rw [hfound] at hparse
    obtain rfl := Except.ok.inj hparse
    obtain ⟨hsource, map, hrun⟩ := Dialect.lowered_of_parseSqlQuery hparser hfound
    obtain ⟨lowered, hlower, hnested⟩ := Dialect.nestedWildcards_lowerQuery htree [] "query"
    obtain ⟨hquery, hdiagnostics⟩ := Prod.mk.inj (hrun.symm.trans hlower)
    exact ⟨hquery ▸ hnested, hdiagnostics, hsource.trans String.ofList_toList⟩

/-- A compiler without passes takes a text of nested wildcards exactly if they fit, and the columns
of the relation are there once for each choice of a wildcard on every level. -/
theorem accepts_nestedWildcards_iff {parser : Dialect.SqlParser} {input : String}
    {tree : Dialect.Ast.Query} {rest : List Dialect.Ast.Statement} {name : Dialect.Ast.ObjectName}
    (hrelation : context.catalog.resolveRelation (Dialect.lowerNameRef name).namespace_
      (Dialect.lowerNameRef name).name = some schema)
    (hparser : parser.parseSql (Dialect.stripLeadingExplain input.toList).2.1 =
      .ok (.query tree :: rest))
    (htree : Dialect.Ast.NestedWildcards name wildcards levels tree)
    (hparse : (genericSqlDialect parser).parse input = .ok parsed)
    (hbytes : input.utf8ByteSize ≤ budget.maxInputBytes) :
    (({ budget } : QueryCompiler).parse (genericSqlDialect parser) input = .ok parsed ↔
        NestedWildcardsFit budget wildcards levels) ∧
      ((∃ bound, ({ budget } : QueryCompiler).bindAndValidate context parsed = .ok bound) ↔
        NestedWildcardsFit budget wildcards levels) ∧
      ∀ bound, ({ budget } : QueryCompiler).bindAndValidate context parsed = .ok bound →
        bound.width = schema.columns.length * wildcards ^ levels := by
  obtain ⟨hquery, hlowered, hsource⟩ := nestedWildcards_of_parse hparser htree hparse
  -- Both stages come down to one check: the parsed query's, which nothing after it can fail.
  have hcheck := check_nestedWildcards_iff hquery (hsource ▸ hbytes)
  obtain ⟨bound, hbind, hparsed, hparameters, hwidth⟩ :=
    bindAndValidate_nestedWildcards hrelation hquery hlowered
  -- The bound query has no parameter, so its usage is that of the parsed one.
  have hafter : (QueryBudgetUsage.forParsed bound.parsed).withParameters bound.parameters.length =
      .forParsed parsed := by
    rw [hparsed, hparameters, forParsed_nestedWildcards hquery]
    rfl
  -- Out of the budget both stages return that error; within it both succeed.
  cases hchecked : budget.check (.forParsed parsed) with
  | error error =>
    have hnot : ¬NestedWildcardsFit budget wildcards levels := by
      rw [← hcheck, hchecked]
      exact fun h => by cases h
    have hparsing : ({ budget } : QueryCompiler).parse (genericSqlDialect parser) input =
        .error (.budgetExceeded error) := by
      unfold QueryCompiler.parse QueryCompiler.checkBudget
      rw [hparse]
      exact congrArg (fun checked => checked.mapError CompilerError.budgetExceeded >>=
        fun _ => .ok parsed) hchecked
    have hbinding : ({ budget } : QueryCompiler).bindAndValidate context parsed =
        .error (.budgetExceeded error) := by
      unfold QueryCompiler.bindAndValidate QueryCompiler.checkBudget
      rw [hchecked]
      rfl
    rw [hparsing, hbinding]
    exact ⟨⟨nofun, fun h => absurd h hnot⟩, ⟨nofun, fun h => absurd h hnot⟩, nofun⟩
  | ok _ =>
    have hfits := hcheck.mp hchecked
    have hparsing : ({ budget } : QueryCompiler).parse (genericSqlDialect parser) input =
        .ok parsed := by
      unfold QueryCompiler.parse QueryCompiler.checkBudget
      rw [hparse]
      exact congrArg (fun checked => checked.mapError CompilerError.budgetExceeded >>=
        fun _ => .ok parsed) hchecked
    have hbinding : ({ budget } : QueryCompiler).bindAndValidate context parsed = .ok bound := by
      unfold QueryCompiler.bindAndValidate QueryCompiler.checkBudget
      rw [hchecked, hbind]
      exact congrArg (fun checked => checked.mapError CompilerError.budgetExceeded >>=
        fun _ => .ok bound) ((congrArg budget.check hafter).trans hchecked)
    rw [hparsing, hbinding]
    refine ⟨⟨fun _ => hfits, fun _ => rfl⟩, ⟨fun _ => hfits, fun _ => ⟨bound, rfl⟩⟩,
      fun other hother => ?_⟩
    obtain rfl := Except.ok.inj hother
    exact hwidth

end Nested

/-! A text at the default budget's limit -/

namespace NestedRecords

/-- `SELECT *, …, * FROM (…)`, down to `SELECT * FROM records`. -/
def sql (wildcards : Nat) : Nat → List Char
  | 0 => "SELECT * FROM records".toList
  | levels + 1 => "SELECT ".toList ++ ([',', ' '].intercalate (List.replicate wildcards ['*']) ++
      (" FROM (".toList ++ (sql wildcards levels ++ [')'])))

/-- The name of the relation. -/
def records : Dialect.Ast.ObjectName := ⟨["records"], "records"⟩

/-- The tree of the text, with the spans that the parser gives the nodes of each level. -/
def tree (spans : Nat → Nat → Dialect.SqlSpan) (wildcards : Nat) : Nat → Dialect.Ast.Query
  | 0 => Dialect.Ast.wildcardSelect (spans 0 0) (spans 0 1) (spans 0 2) [spans 0 3]
      (.table records none (spans 0 4))
  | levels + 1 =>
    Dialect.Ast.wildcardSelect (spans (levels + 1) 0) (spans (levels + 1) 1) (spans (levels + 1) 2)
      ((List.range wildcards).map fun index => spans (levels + 1) (index + 4))
      (.derived (tree spans wildcards levels) none (spans (levels + 1) 3))

/-- The tree is one of nested wildcards. -/
theorem nestedWildcards_tree (spans : Nat → Nat → Dialect.SqlSpan) (wildcards : Nat) :
    ∀ levels, Dialect.Ast.NestedWildcards records wildcards levels (tree spans wildcards levels)
  | 0 => .table _ _ _ _ _
  | levels + 1 => .derived _ _ _ _ (nestedWildcards_tree spans wildcards levels)
      (by rw [List.length_map, List.length_range])

/-- The text of one more level. -/
theorem sql_succ (wildcards levels : Nat) : sql wildcards (levels + 1) =
    "SELECT ".toList ++ ([',', ' '].intercalate (List.replicate wildcards ['*']) ++
      (" FROM (".toList ++ (sql wildcards levels ++ [')']))) := rfl

/-- The stars of a level take three characters each at most. -/
theorem length_stars_le : ∀ wildcards : Nat,
    ([',', ' '].intercalate (List.replicate wildcards ['*'])).length ≤ 3 * wildcards
  | 0 => Nat.le_refl 0
  | 1 => by decide
  | wildcards + 2 => by
    have hstars := length_stars_le (wildcards + 1)
    rw [List.replicate_succ, List.replicate_succ, List.intercalate_cons_cons,
      ← List.replicate_succ, List.length_append, List.length_append]
    simp only [List.length_cons, List.length_nil]
    omega

/-- Every level takes fifteen characters besides its stars. -/
theorem length_sql_le (wildcards levels : Nat) :
    (sql wildcards levels).length ≤ levels * (3 * wildcards + 15) + 21 := by
  induction levels with
  | zero =>
    show "SELECT * FROM records".toList.length ≤ 0 * (3 * wildcards + 15) + 21
    rw [Nat.zero_mul]
    decide
  | succ levels ih =>
    have hselect : "SELECT ".toList.length = 7 := by decide
    have hfrom : " FROM (".toList.length = 7 := by decide
    have hstars := length_stars_le wildcards
    have hlength : (sql wildcards (levels + 1)).length =
        7 + (([',', ' '].intercalate (List.replicate wildcards ['*'])).length +
          (7 + ((sql wildcards levels).length + 1))) := by
      simp only [sql_succ, List.length_append, hselect, hfrom, List.length_singleton]
    rw [hlength, Nat.succ_mul]
    omega

/-- The text begins with an `S`. -/
theorem head_sql (wildcards levels : Nat) : (sql wildcards levels).head? = some 'S' := by
  cases levels <;> rfl

/-- A parser that reads one text. -/
def parser (text : List Char) (query : Dialect.Ast.Query) : Dialect.SqlParser where
  parseSql input :=
    if input = text then .ok [.query query] else .error "Expected: an SQL statement"
  display _ := String.ofList text

/-- Spans that differ from node to node. -/
def spans (level index : Nat) : Dialect.SqlSpan :=
  ⟨⟨level + 1, index + 1⟩, ⟨level + 1, index + 2⟩⟩

section Parser

variable {text : List Char} (hhead : text.head? = some 'S') (query : Dialect.Ast.Query)

include hhead

/-- The parser is asked for the whole of a text that begins with an `S`. -/
theorem parseSql_of_head : (parser text query).parseSql
    (Dialect.stripLeadingExplain (String.ofList text).toList).2.1 = .ok [.query query] := by
  rw [String.toList_ofList, Dialect.stripLeadingExplain_select hhead]
  exact if_pos rfl

/-- Such a text is parsed. -/
theorem exists_parse_of_head : ∃ parsed,
    (genericSqlDialect (parser text query)).parse (String.ofList text) = .ok parsed := by
  have hread : (parser text query).parseSql text = .ok [.query query] := if_pos rfl
  have hselect := Dialect.parseSqlQuery_select hhead hread
  exact ⟨_, congrArg (Except.map Prod.fst)
    ((congrArg (Dialect.parseSqlQuery (parser text query)) String.toList_ofList).trans hselect)⟩

end Parser

end NestedRecords

open NestedRecords in
/-- Within the default budget a text of less than 128 KiB has `2 * 319 ^ 31` columns. -/
theorem accepts_nestedRecords : (String.ofList (sql 319 31)).utf8ByteSize ≤ 2 ^ 17 ∧
    ∃ parsed bound,
      ({} : QueryCompiler).parse (genericSqlDialect (parser (sql 319 31) (tree spans 319 31)))
        (String.ofList (sql 319 31)) = .ok parsed ∧
      ({} : QueryCompiler).bindAndValidate portableContext parsed = .ok bound ∧
      bound.width = 2 * 319 ^ 31 := by
  have hrelation : portableContext.catalog.resolveRelation none "records" = some _ := rfl
  obtain ⟨parsed, hparse⟩ := exists_parse_of_head (head_sql 319 31) (tree spans 319 31)
  have hsize : (String.ofList (sql 319 31)).utf8ByteSize ≤ 2 ^ 17 :=
    (utf8ByteSize_ofList_le _).trans
      ((Nat.mul_le_mul_left 4 (length_sql_le 319 31)).trans (by decide))
  have hbytes : (String.ofList (sql 319 31)).utf8ByteSize ≤ ({} : QueryBudget).maxInputBytes :=
    hsize.trans (by decide)
  have hfits : NestedWildcardsFit {} 319 31 := by decide
  obtain ⟨hparsed, hbound, hwidth⟩ := accepts_nestedWildcards_iff hrelation
    (parseSql_of_head (head_sql 319 31) (tree spans 319 31)) (nestedWildcards_tree spans 319 31)
    hparse hbytes
  obtain ⟨bound, hok⟩ := hbound.mpr hfits
  exact ⟨hsize, parsed, bound, hparsed.mpr hfits, hok, hwidth bound hok⟩

end QueryFabric
