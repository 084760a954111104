import QueryFabric.Lib.Substrings
import QueryFabric.Render.Placeholders

/-!
# The source relation of a federated query

`wrap_relation_source` of `crates/queryfabric-opt/src/federation/relations.rs` puts the partial
results of the nodes in the place of the relation that a query reads from. It looks for the text of
that relation in the emitted statement and writes names without their quotes, where the renderer
quotes what is not a plain word. `wraps_source_iff` says when what it replaces is the item of the
`FROM` clause.
-/

namespace QueryFabric.Opt

open Render Lib

/-- `FederationError`. -/
inductive FederationError
  | unsupported (message : String)
deriving DecidableEq, Repr

/-- `PARTIALS_PLACEHOLDER`. -/
def partialsPlaceholder : String := "\x7bpartials\x7d"

/-- `top_level_select`. -/
def topLevelSelect (bound : BoundQuery) : Except FederationError BoundSelect :=
  match bound.plan.body with
  | .select select => .ok select
  | _ => .error (.unsupported "distributed execution requires a single SELECT")

/-- `primary_relation_binding`. -/
def primaryRelationBinding (bound : BoundQuery) : Except FederationError BoundRelationBinding := do
  let select ← topLevelSelect bound
  match select.from_ with
  | [⟨relation, joins, _⟩] =>
    if !joins.isEmpty then .error (.unsupported "distributed execution does not support JOIN")
    else match relation with
      | .table binding _ => .ok binding
      | _ => .error (.unsupported "distributed execution requires a base table relation")
  | _ => .error (.unsupported "distributed execution requires a single FROM relation")

/-- `render_relation`. -/
def renderRelation (binding : BoundRelationBinding) : String :=
  match binding.relationName with
  | none => binding.bindingName
  | some name =>
    if !eqIgnoreAsciiCase name.name binding.bindingName then
      name.displayName ++ " AS " ++ binding.bindingName
    else name.displayName

/-- The text that a relation is looked for by. -/
def fromTarget (binding : BoundRelationBinding) : String := "FROM " ++ renderRelation binding

/-- `wrap_relation_source`: the first occurrence of the relation's text after `FROM` is replaced. -/
def wrapRelationSource (sql : String) (binding : BoundRelationBinding) (replacement : String) :
    Except FederationError String :=
  match replaceFirst (fromTarget binding).toList ("FROM " ++ replacement).toList sql.toList with
  | none => .error (.unsupported
      ("could not identify distributed source relation in emitted SQL: expected `" ++
        fromTarget binding ++ "`"))
  | some result => .ok (String.ofList result)

/-- What a relation is replaced by. -/
def partialsSource (binding : BoundRelationBinding) : String :=
  "(" ++ partialsPlaceholder ++ ") AS " ++ binding.bindingName

/-- `wrap_query_over_partials`. -/
def wrapQueryOverPartials (sql : String) (binding : BoundRelationBinding) :
    Except FederationError String :=
  wrapRelationSource sql binding (partialsSource binding)

/-- `wrap_placeholder_relation`. -/
def wrapPlaceholderRelation (sql : String) (binding : BoundRelationBinding) :
    Except FederationError String :=
  wrapRelationSource sql binding (partialsSource binding)

/-! ## The text around a relation -/

/-- `render_query` without the item of the `FROM` clause: what it writes before the clause, and
after it. -/
def renderAround (r : SqlRenderer) (explain : Bool) (plan : BoundQueryPlan) (select : BoundSelect) :
    Except QueryFabricError (Pieces × Pieces) := do
  let ctes ← renderCtes r plan.ctes
  let projection ← renderProjections r select.projection
  let selection ← renderExprOption r select.selection
  let groupBy ← renderExprs r select.groupBy
  let having ← renderExprOption r select.having
  let orderBy ← renderOrderBys r plan.orderBy
  let limit ← renderExprOption r plan.limit
  let offset ← renderExprOption r plan.offset
  return ((if explain then ["EXPLAIN "] else []) ++
      (if ctes.isEmpty then [] else clause "WITH " ctes ++ [" "]) ++
      (["SELECT "] ++ (if select.distinct then ["DISTINCT "] else []) ++
        Pieces.join ", " projection),
    optionClause " WHERE " selection ++ clause " GROUP BY " groupBy ++
      optionClause " HAVING " having ++
      clause " ORDER BY " orderBy ++ optionClause " LIMIT " limit ++
        optionClause " OFFSET " offset ++
      plan.backendClauses.flatMap r.renderBackendClause)

/-- The one relation of a plan is a table. -/
structure ReadsTable (plan : BoundQueryPlan) (select : BoundSelect)
    (binding : BoundRelationBinding) : Prop where
  body : plan.body = .select select
  from_ : ∃ node node', select.from_ = [⟨.table binding node, [], node'⟩]

/-- The primary binding of a query is of a table that the query reads. -/
theorem readsTable_of_primary {bound : BoundQuery} {binding : BoundRelationBinding}
    (h : primaryRelationBinding bound = .ok binding) :
    ∃ select, ReadsTable bound.plan select binding := by
  obtain ⟨select, hselect, h⟩ := bind_eq_ok.mp h
  unfold topLevelSelect at hselect
  split at hselect
  · rename_i hbody
    cases hselect
    split at h
    · rename_i relation joins node hfrom
      split at h
      · cases h
      · rename_i hjoins
        have hempty : joins = [] := by simpa using hjoins
        split at h
        · rename_i node'
          cases h
          exact ⟨select, hbody, node', node, by rw [hfrom, hempty]⟩
        · cases h
    · cases h
  · cases hselect

/-- Rewriting keeps the one relation of a plan. -/
theorem ReadsTable.emitted {plan : BoundQueryPlan} {select : BoundSelect}
    {binding : BoundRelationBinding}
    (h : ReadsTable plan select binding) (catalog : Catalog) (backend : SqlBackend) :
    ∃ select', ReadsTable (emittedPlan catalog backend plan) select' binding := by
  cases backend with
  | postgres => exact ⟨select, h⟩
  | clickHouse =>
    obtain ⟨hbody, node, node', hfrom⟩ := h
    cases plan
    cases select
    simp only at hbody hfrom
    subst hbody hfrom
    exact ⟨_, rfl, node, node', rfl⟩

/-- The text of a query with one relation is that of the relation between what is around it. -/
theorem renderQuery_around {r : SqlRenderer} {explain : Bool} {plan : BoundQueryPlan}
    {select : BoundSelect}
    {binding : BoundRelationBinding} {ps : Pieces} (hplan : ReadsTable plan select binding)
    (h : renderQuery r plan explain = .ok ps) :
    ∃ before item after : Pieces, renderAround r explain plan select = .ok (before, after) ∧
      r.renderTable binding = .ok item ∧ ps = before ++ ([" FROM "] ++ item) ++ after := by
  obtain ⟨hbody, node, node', hfrom⟩ := hplan
  obtain ⟨_, _, _, _, _, _, clauses, _⟩ := plan
  obtain ⟨distinct, _, _, _, _, _, _, _⟩ := select
  simp only at hbody hfrom
  subst hbody hfrom
  -- Rendering succeeded, so each part of it did, in the order of the text.
  obtain ⟨queryPieces, hquery, h⟩ := bind_eq_ok.mp h
  cases h
  rw [renderQueryInner] at hquery
  obtain ⟨ctes, hctes, h⟩ := bind_eq_ok.mp hquery
  obtain ⟨body, hbody, h⟩ := bind_eq_ok.mp h
  obtain ⟨orderBy, horder, h⟩ := bind_eq_ok.mp h
  obtain ⟨limit, hlimit, h⟩ := bind_eq_ok.mp h
  obtain ⟨offset, hoffset, h⟩ := bind_eq_ok.mp h
  cases h
  rw [renderSetExpr, renderSelect] at hbody
  obtain ⟨projection, hprojection, h⟩ := bind_eq_ok.mp hbody
  obtain ⟨tables, htables, h⟩ := bind_eq_ok.mp h
  obtain ⟨selection, hselection, h⟩ := bind_eq_ok.mp h
  obtain ⟨groupBy, hgroup, h⟩ := bind_eq_ok.mp h
  obtain ⟨having, hhaving, h⟩ := bind_eq_ok.mp h
  cases h
  -- The `FROM` is the one table.
  obtain ⟨item, hitem, rfl⟩ : ∃ item, r.renderTable binding = .ok item ∧ tables = [item] := by
    simp only [renderTables, renderTableWithJoins, Render.renderRelation, renderJoins] at htables
    obtain ⟨item, hitem, h⟩ := bind_eq_ok.mp htables
    obtain ⟨sql, hsql, h'⟩ := bind_eq_ok.mp hitem
    cases h'
    cases h
    exact ⟨sql, hsql, by simp⟩
  -- What stands before the table and after it, as `renderAround` has them.
  refine ⟨(if explain then ["EXPLAIN "] else []) ++
    (if ctes.isEmpty then [] else clause "WITH " ctes ++ [" "]) ++
      (["SELECT "] ++ (if distinct then ["DISTINCT "] else []) ++ Pieces.join ", " projection),
      item,
    optionClause " WHERE " selection ++ clause " GROUP BY " groupBy ++
      optionClause " HAVING " having ++
      clause " ORDER BY " orderBy ++ optionClause " LIMIT " limit ++
        optionClause " OFFSET " offset ++
      clauses.flatMap r.renderBackendClause, ?_, hitem, ?_⟩
  · simp only [renderAround, hctes, hprojection, hselection, hgroup, hhaving, horder, hlimit,
      hoffset]
    rfl
  · have hclause : clause " FROM " [item] = [" FROM "] ++ item := by
      rw [clause, if_neg (by simp), Pieces.join, List.intercalate_singleton]
      rfl
    simp only [hclause, List.append_assoc]

/-! ## The text of a relation -/

/-- Whether the names of a relation are written without quotes. -/
def plainNames (binding : BoundRelationBinding) : Bool :=
  match binding.relationName with
  | none => isSimpleIdentifier binding.bindingName
  | some name =>
    name.namespace_.all isSimpleIdentifier && isSimpleIdentifier name.name &&
      (eqIgnoreAsciiCase name.name binding.bindingName || isSimpleIdentifier binding.bindingName)

/-- A written name, its length and whether it is plain: a plain name is written as it is, and
another is longer. -/
structure WrittenAs (plain : Bool) (name written : List Char) : Prop where
  eq : plain = true → written = name
  lt : plain = false → name.length < written.length

/-- Texts written one after the other are written as both. -/
theorem WrittenAs.append {p q : Bool} {as bs cs ds : List Char} (h : WrittenAs p as bs)
    (h' : WrittenAs q cs ds) :
    WrittenAs (p && q) (as ++ cs) (bs ++ ds) where
  eq hpq := by
    obtain ⟨hp, hq⟩ := Bool.and_eq_true_iff.mp hpq
    rw [h.eq hp, h'.eq hq]
  lt hpq := by
    have hle : as.length ≤ bs.length ∧ cs.length ≤ ds.length := by
      constructor
      · cases p
        · exact (h.lt rfl).le
        · rw [h.eq rfl]
      · cases q
        · exact (h'.lt rfl).le
        · rw [h'.eq rfl]
    simp only [List.length_append]
    obtain hp | hq := Bool.and_eq_false_iff.mp hpq
    · have := h.lt hp
      omega
    · have := h'.lt hq
      omega

/-- A fixed text is written as itself. -/
theorem WrittenAs.fixed (cs : List Char) : WrittenAs true cs cs :=
  ⟨fun _ => rfl, fun h => by cases h⟩

/-- A text is no shorter than what it is written for, and as long where it is plain. -/
theorem WrittenAs.eq_iff {p : Bool} {as bs : List Char} (h : WrittenAs p as bs) :
    bs.length ≤ as.length ↔ p = true := by
  cases p with
  | false => exact iff_of_false (Nat.not_le.mpr (h.lt rfl)) (by simp)
  | true => exact iff_of_true (h.eq rfl ▸ Nat.le_refl _) rfl

/-- Doubling quotes shortens no text. -/
theorem length_le_doubleQuotes (quote : Char) :
    ∀ cs : List Char, cs.length ≤ (doubleQuotes quote cs).length
  | [] => Nat.le_refl 0
  | c :: cs => by
    have ih := length_le_doubleQuotes quote cs
    rw [doubleQuotes]
    split <;> simp only [List.length_cons] <;> omega

/-- An identifier is written as itself where it is simple. -/
theorem writtenAs_identifier {backend : SqlBackend} {value text : String}
    (h : renderIdentifier backend value = .ok text) :
    WrittenAs (isSimpleIdentifier value) value.toList text.toList := by
  unfold renderIdentifier at h
  split at h
  · cases h
  · split at h
    · rename_i hsimple
      cases h
      rw [hsimple]
      exact .fixed _
    · rename_i hsimple
      cases h
      refine ⟨fun h => absurd h hsimple, fun _ => ?_⟩
      have hle := length_le_doubleQuotes '"' value.toList
      simp only [quoted, String.toList_ofList, List.length_cons, List.length_append]
      omega

/-- A name reference is written as itself where its parts are simple. -/
theorem writtenAs_nameRef {backend : SqlBackend} {name : NameRef} {ps : Pieces}
    (h : renderNameRef backend name = .ok ps) :
    WrittenAs (name.namespace_.all isSimpleIdentifier && isSimpleIdentifier name.name)
      name.displayName.toList ps.text.toList := by
  obtain ⟨text, htext, h⟩ := bind_eq_ok.mp h
  have hname := writtenAs_identifier htext
  obtain ⟨namespacePieces, hnamespace, h⟩ := bind_eq_ok.mp h
  cases h
  cases hns : name.namespace_ with
  | none =>
    rw [hns] at hnamespace
    cases hnamespace
    simpa [NameRef.displayName, hns, Pieces.text] using hname
  | some namespace_ =>
    rw [hns] at hnamespace
    obtain ⟨nsText, hnsText, hnamespace⟩ := bind_eq_ok.mp hnamespace
    cases hnamespace
    have := ((writtenAs_identifier hnsText).append (.fixed ['.'])).append hname
    simpa [NameRef.displayName, hns, Pieces.text, Option.all] using this

/-- The renderer writes a relation as it is looked for exactly when its names are plain. -/
theorem writtenAs_table {r : SqlRenderer} {binding : BoundRelationBinding} {ps : Pieces}
    (h : r.renderTable binding = .ok ps) :
    WrittenAs (plainNames binding) (renderRelation binding).toList ps.text.toList := by
  unfold SqlRenderer.renderTable at h
  unfold plainNames renderRelation
  split at h
  · rename_i hname
    obtain ⟨text, htext, h⟩ := bind_eq_ok.mp h
    cases h
    simpa [hname, Pieces.text] using writtenAs_identifier htext
  · rename_i name hname
    obtain ⟨sql, hsql, h⟩ := bind_eq_ok.mp h
    have hnames := writtenAs_nameRef hsql
    -- A table under its own name has no alias.
    cases hcase : eqIgnoreAsciiCase name.name binding.bindingName with
    | true =>
      rw [hcase] at h
      cases h
      simpa [hname, hcase] using hnames
    | false =>
      rw [hcase] at h
      obtain ⟨text, htext, h⟩ := bind_eq_ok.mp h
      cases h
      have := (hnames.append (.fixed " AS ".toList)).append (writtenAs_identifier htext)
      simpa [hname, hcase, Pieces.text] using this

/-- A plain relation does not start as its replacement does. -/
theorem head_of_plainNames {binding : BoundRelationBinding} (h : plainNames binding = true) :
    ∃ d ds, (renderRelation binding).toList = d :: ds ∧ d ≠ '(' := by
  -- A plain name starts with a letter or an underscore.
  have hstart : ∀ {value : String}, isSimpleIdentifier value = true →
  ∃ d ds, value.toList = d :: ds ∧ d ≠ '(' := by
    intro value hvalue
    simp only [isSimpleIdentifier, isPlainWord, Bool.and_eq_true] at hvalue
    cases hlist : value.toList with
    | nil => simp [hlist] at hvalue
    | cons d ds =>
      refine ⟨d, ds, rfl, ?_⟩
      rintro rfl
      simp [hlist, isIdentifierStart] at hvalue
  -- Which is still so with something behind it.
  have happend : ∀ {value rest : String}, (∃ d ds, value.toList = d :: ds ∧ d ≠ '(') →
      ∃ d ds, (value ++ rest).toList = d :: ds ∧ d ≠ '(' := by
    rintro value rest ⟨d, ds, hlist, hd⟩
    exact ⟨d, ds ++ rest.toList, by rw [String.toList_append, hlist, List.cons_append], hd⟩
  unfold plainNames at h
  unfold renderRelation
  split at h
  · rename_i hname
    simpa [hname] using hstart h
  · rename_i name hname
    obtain ⟨hnames, -⟩ := Bool.and_eq_true_iff.mp h
    obtain ⟨hns, hlast⟩ := Bool.and_eq_true_iff.mp hnames
    have hdisplay : ∃ d ds, name.displayName.toList = d :: ds ∧ d ≠ '(' := by
      unfold NameRef.displayName
      cases hcase : name.namespace_ with
      | none => exact hstart hlast
      | some namespace_ =>
        rw [hcase] at hns
        simp only [String.append_assoc]
        exact happend (hstart hns)
    split
    · rw [String.append_assoc]
      exact happend hdisplay
    · exact hdisplay

/-! ## What is replaced -/

/-- The text of a statement is that of its source relation between what is written around it. -/
structure SourceSplit (r : SqlRenderer) (explain : Bool) (plan : BoundQueryPlan)
    (binding : BoundRelationBinding) (text : String) (before item after : Pieces) : Prop where
  around : ∃ select, ReadsTable plan select binding ∧
    renderAround r explain plan select = .ok (before, after)
  table : r.renderTable binding = .ok item
  text_eq : text = (before ++ ([" FROM "] ++ item) ++ after).text

/-- The statement with the item of its `FROM` clause replaced. -/
def overPartials (binding : BoundRelationBinding) (before after : Pieces) : String :=
  (before ++ ([" FROM "] ++ [partialsSource binding]) ++ after).text

/-- The text that the relation is looked for by does not start before the `FROM` of its clause. -/
def FirstIsSource (binding : BoundRelationBinding) (text : String) (before : Pieces) : Prop :=
  ∀ i ≤ before.text.toList.length, ¬ OccursAt (fromTarget binding).toList text.toList i

/-- Whether the first occurrence is the source is decided by searching the pieces before it. -/
instance (binding : BoundRelationBinding) (text : String) (before : Pieces) :
    Decidable (FirstIsSource binding text before) :=
  inferInstanceAs (Decidable (∀ i ≤ before.text.toList.length, _))

/-- A statement is split in one way. -/
theorem SourceSplit.unique {r : SqlRenderer} {explain : Bool} {plan : BoundQueryPlan}
    {binding : BoundRelationBinding} {text : String}
    {before item after before' item' after' : Pieces}
    (h : SourceSplit r explain plan binding text before item after)
    (h' : SourceSplit r explain plan binding text before' item' after') :
    before = before' ∧ item = item' ∧ after = after' := by
  obtain ⟨select, hselect, haround⟩ := h.around
  obtain ⟨select', hselect', haround'⟩ := h'.around
  obtain rfl := BoundSetExpr.select.inj (hselect.body.symm.trans hselect'.body)
  obtain ⟨rfl, rfl⟩ := Prod.mk.inj (Except.ok.inj (haround.symm.trans haround'))
  exact ⟨rfl, Except.ok.inj (h.table.symm.trans h'.table), rfl⟩

/-- The characters of a text with an item after its `FROM`. -/
theorem toList_around (before item after : Pieces) :
    (before ++ ([" FROM "] ++ item) ++ after).text.toList =
      (before.text.toList ++ [' ']) ++ ("FROM ".toList ++ item.text.toList) ++
        after.text.toList := by
  simp [toList_text, Sql.chars_append]

/-- Wrapping succeeds where the text has the source to replace. -/
theorem wrapQueryOverPartials_eq_ok_iff {text result : String} {binding : BoundRelationBinding} :
    wrapQueryOverPartials text binding = .ok result ↔
      replaceFirst (fromTarget binding).toList
        ("FROM " ++ partialsSource binding).toList text.toList = some result.toList := by
  unfold wrapQueryOverPartials wrapRelationSource
  cases replaceFirst (fromTarget binding).toList
    ("FROM " ++ partialsSource binding).toList text.toList with
  | none => exact iff_of_false (fun h => by cases h) (fun h => by cases h)
  | some cs =>
    constructor
    · intro h
      cases h
      rw [String.toList_ofList]
    · intro h
      cases h
      exact congrArg Except.ok String.ofList_toList

/-- The relation is replaced in its clause exactly when its names are plain and their text after
`FROM` is found nowhere before. -/
theorem SourceSplit.wraps_iff {r : SqlRenderer} {explain : Bool} {plan : BoundQueryPlan}
    {binding : BoundRelationBinding} {text : String} {before item after : Pieces}
    (h : SourceSplit r explain plan binding text before item after) :
    wrapQueryOverPartials text binding = .ok (overPartials binding before after) ↔
      plainNames binding = true ∧ FirstIsSource binding text before := by
  -- The table's text is at least as long as its names, and equal to them where they are plain.
  have hnames := writtenAs_table h.table
  have htext := congrArg String.toList h.text_eq
  rw [toList_around] at htext
  have hresult : (overPartials binding before after).toList = (before.text.toList ++ [' ']) ++
      ("FROM ".toList ++ (partialsSource binding).toList) ++ after.text.toList := by
    rw [overPartials, toList_around]
    simp [Pieces.text]
  rw [wrapQueryOverPartials_eq_ok_iff, replaceFirst_eq_some_iff, fromTarget, String.toList_append,
    String.toList_append, hresult]
  -- Two ways of replacing the same text agree only in the same place.
  constructor
  · rintro ⟨a, c, htext', hfirst, hreplaced⟩
    have hsame := first_eq_of_replaced (htext'.symm.trans htext) hreplaced.symm (by rwa [← htext'])
      (fun hle => (hnames.eq (hnames.eq_iff.mp hle)).symm) ?_
    · obtain ⟨rfl, hname, -⟩ := hsame
      refine ⟨hnames.eq_iff.mp (by rw [hname]), fun i hi => ?_⟩
      rw [fromTarget, String.toList_append]
      exact hfirst i (by rw [List.length_append, List.length_singleton]; omega)
    · intro hname
      -- The name and the parenthesis of the placeholder start with different characters.
      obtain ⟨d, ds, hd, hne⟩ := head_of_plainNames (hnames.eq_iff.mp (by rw [hname]))
      have hsource : (partialsSource binding).toList =
          '(' :: (partialsPlaceholder ++ (") AS " ++ binding.bindingName)).toList := by
        rw [partialsSource, String.append_assoc, String.append_assoc, String.toList_append]
        rfl
      exact ⟨d, ds, _, _, hd, hsource, hne⟩
  · rintro ⟨hplain, hfirst⟩
    refine ⟨before.text.toList ++ [' '], after.text.toList, ?_, fun i hi => ?_, rfl⟩
    · rw [htext, hnames.eq hplain]
    · have := hfirst i (by rw [List.length_append, List.length_singleton] at hi; omega)
      rwa [fromTarget, String.toList_append] at this

/-- The relation that a query reads from is replaced, and nothing else of its statement, exactly
when the names of the relation are plain and their text after `FROM` is found nowhere before the
clause. When that text is found nowhere at all the statement is refused, and in every other case
what comes back is not that statement. -/
theorem wraps_source_iff {query : BoundQuery} {binding : BoundRelationBinding}
    {backend : SqlBackend}
    {catalog : Catalog} {artifact : SqlArtifact}
    (hprimary : primaryRelationBinding query = .ok binding)
    (hemit : emit backend query catalog = .ok artifact) : ∃ before item after,
      SourceSplit (emissionRenderer backend query catalog) query.parsed.explain
        (emittedPlan catalog backend query.plan) binding artifact.text before item after ∧
      (wrapQueryOverPartials artifact.text binding = .ok (overPartials binding before after) ↔
        plainNames binding = true ∧ FirstIsSource binding artifact.text before) ∧
      ((∀ result, wrapQueryOverPartials artifact.text binding = .ok result →
          result = overPartials binding before after) ↔
        (plainNames binding = true ∧ FirstIsSource binding artifact.text before) ∨
          ∀ i ≤ artifact.text.toList.length,
          ¬ OccursAt (fromTarget binding).toList artifact.text.toList i) := by
  -- The emitted text reads the same single table, with something before it and after it.
  obtain ⟨select, hselect⟩ := readsTable_of_primary hprimary
  obtain ⟨select', hselect'⟩ := hselect.emitted catalog backend
  obtain ⟨ps, hps, htext⟩ := text_of_emit hemit
  obtain ⟨before, item, after, haround, hitem, rfl⟩ := renderQuery_around hselect' hps
  have hsplit : SourceSplit (emissionRenderer backend query catalog) query.parsed.explain
      (emittedPlan catalog backend query.plan) binding artifact.text before item after :=
    ⟨⟨select', hselect', haround⟩, hitem, htext⟩
  refine ⟨before, item, after, hsplit, hsplit.wraps_iff, ?_⟩
  rw [← hsplit.wraps_iff, ← replaceFirst_eq_none_iff _ ("FROM " ++ partialsSource binding).toList]
  -- Either nothing is found to replace, or the result is the one text that replacing gives.
  cases hfound : replaceFirst (fromTarget binding).toList ("FROM " ++ partialsSource binding).toList
      artifact.text.toList with
  | none =>
    refine iff_of_true (fun result hresult => ?_) (.inr rfl)
    rw [wrapQueryOverPartials_eq_ok_iff, hfound] at hresult
    cases hresult
  | some cs =>
    have hok : wrapQueryOverPartials artifact.text binding = .ok (String.ofList cs) := by
      rw [wrapQueryOverPartials_eq_ok_iff, hfound, String.toList_ofList]
    rw [hok]
    constructor
    · intro h
      rw [← h _ rfl]
      exact .inl rfl
    · rintro (h | h) result hresult
      · exact (Except.ok.inj hresult).symm.trans (Except.ok.inj h)
      · cases h

/-- `SELECT <projection> FROM events`. -/
def selectFromEvents (projection : SyntaxExprKind) (alias_ : Option String) : ParsedQuery :=
  let node : SyntaxNode := { span := none, nodeId := "q" }
  Bind.parsedTree { Bind.selectId [] (Bind.plainTable "events") with
    body := .select
      { distinct := false, projection := [.expr ⟨⟨projection, node⟩, alias_, node⟩]
        from_ := [⟨Bind.plainTable "events", [], node⟩], selection := none, groupBy := [],
        having := none, node } }

/-- `SELECT 'FROM users' AS x FROM events`. -/
def otherSource : ParsedQuery := selectFromEvents (.literal (.utf8 "FROM users")) (some "x")

/-- The relation is replaced, and the literal before it, which has another name after `FROM`, is
kept. -/
theorem otherSource_wrapped : ∃ bound binding artifact before item after,
    Bind.bindAndValidate Bind.usersAndEvents otherSource = .ok bound ∧
      primaryRelationBinding bound = .ok binding ∧
      emit .clickHouse bound Bind.usersAndEvents.catalog = .ok artifact ∧
      SourceSplit (emissionRenderer .clickHouse bound Bind.usersAndEvents.catalog)
        bound.parsed.explain
          (emittedPlan Bind.usersAndEvents.catalog .clickHouse bound.plan) binding
        artifact.text before item after ∧
      overPartials binding before after =
        "SELECT 'FROM users' AS x FROM (\x7bpartials\x7d) AS events" ∧
      wrapQueryOverPartials artifact.text binding = .ok (overPartials binding before after) := by
  obtain ⟨bound, binding, artifact, hbound, hprimary, hemit, hconcrete, hplain, hfirst, hover⟩ :
      ∃ bound binding artifact,
        Bind.bindAndValidate Bind.usersAndEvents otherSource = .ok bound ∧
        primaryRelationBinding bound = .ok binding ∧
        emit .clickHouse bound Bind.usersAndEvents.catalog = .ok artifact ∧
        SourceSplit (emissionRenderer .clickHouse bound Bind.usersAndEvents.catalog)
          bound.parsed.explain (emittedPlan Bind.usersAndEvents.catalog .clickHouse bound.plan)
          binding artifact.text ["SELECT ", "'FROM users'", " AS ", "x"] ["events"] [] ∧
        plainNames binding = true ∧
        FirstIsSource binding artifact.text ["SELECT ", "'FROM users'", " AS ", "x"] ∧
        overPartials binding ["SELECT ", "'FROM users'", " AS ", "x"] [] =
          "SELECT 'FROM users' AS x FROM (\x7bpartials\x7d) AS events" := by
    refine ⟨_, _, _, rfl, rfl, rfl, ⟨⟨_, ⟨rfl, _, _, rfl⟩, ?_⟩, ?_, ?_⟩, ?_, ?_, ?_⟩
    · decide +kernel
    · decide +kernel
    · decide +kernel
    · decide +kernel
    · decide +kernel
    · decide +kernel
  -- The split of the theorem is the one that is spelled out here.
  obtain ⟨before, item, after, hsplit, hiff, -⟩ := wraps_source_iff hprimary hemit
  obtain ⟨rfl, -, rfl⟩ := hsplit.unique hconcrete
  exact ⟨bound, binding, artifact, _, _, _, hbound, hprimary, hemit, hsplit, hover,
    hiff.mpr ⟨hplain, hfirst⟩⟩

/-- `SELECT 'FROM events' AS x FROM events`. -/
def quotedSource : ParsedQuery := selectFromEvents (.literal (.utf8 "FROM events")) (some "x")

/-- What is replaced is in the literal, and the relation stays. -/
theorem quotedSource_wrapped_in_literal : ∃ bound binding artifact before item after,
    Bind.bindAndValidate Bind.usersAndEvents quotedSource = .ok bound ∧
      primaryRelationBinding bound = .ok binding ∧
      emit .clickHouse bound Bind.usersAndEvents.catalog = .ok artifact ∧
      SourceSplit (emissionRenderer .clickHouse bound Bind.usersAndEvents.catalog)
        bound.parsed.explain
        (emittedPlan Bind.usersAndEvents.catalog .clickHouse bound.plan) binding artifact.text
          before item after ∧
      overPartials binding before after =
        "SELECT 'FROM events' AS x FROM (\x7bpartials\x7d) AS events" ∧
      wrapQueryOverPartials artifact.text binding =
        .ok "SELECT 'FROM (\x7bpartials\x7d) AS events' AS x FROM events" := by
  refine ⟨_, _, _, ["SELECT ", "'FROM events'", " AS ", "x"], ["events"], [], rfl, rfl, rfl,
    ⟨⟨_, ⟨rfl, _, _, rfl⟩, ?_⟩,
    ?_, ?_⟩, ?_, ?_⟩
  · decide +kernel
  · decide +kernel
  · decide +kernel
  · decide +kernel
  · decide +kernel

end QueryFabric.Opt
