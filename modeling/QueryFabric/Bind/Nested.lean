import QueryFabric.Bind.Induction
import QueryFabric.Ir.Nested

/-!
# Induction over binding, at every depth

A property of bound queries that an induction over binding proves holds of the queries within a
bound plan as well: `BindMotive.within` adds to the property of each part that of the queries in it,
and `BindCases.allWithin` is the result for the plan of an accepted query.
-/

namespace QueryFabric.Bind

/-- A relation that becomes nullable keeps its queries. -/
theorem relationQueries_makeRelationNullable (r : BoundRelation) :
    relationQueries (makeRelationNullable r) = relationQueries r := by
  cases r with
  | nestedJoin binding table node =>
    cases table
    simp [makeRelationNullable, relationQueries]
  | _ => simp [makeRelationNullable, relationQueries]

/-- What is read off the joins of a table: off each joined relation, and off its condition. -/
def flatMapJoins {α : Type} (F : BoundRelation → List α) (G : Option BoundExpr → List α)
    (joins : List BoundJoin) : List α :=
  joins.flatMap fun join => F join.relation ++ G join.on

/-- Adding a join adds what is read off the joined relation and its condition, when the nullability
of a relation makes no difference. -/
theorem flatMapJoins_addJoin {α : Type} {F : BoundRelation → List α} {G : Option BoundExpr → List α}
    (hF : ∀ r, F (makeRelationNullable r) = F r) (state : JoinState) (kind : JoinKind)
    (joined : BoundRelation) (on : Option BoundExpr) (nd : SyntaxNode) :
    F (state.addJoin kind joined on nd).relation ++
        flatMapJoins F G (state.addJoin kind joined on nd).joins =
      F state.relation ++ flatMapJoins F G state.joins ++ (F joined ++ G on) := by
  have hjoins : flatMapJoins F G (makeJoinRelationsNullable state.joins) =
      flatMapJoins F G state.joins := by
    simp [flatMapJoins, makeJoinRelationsNullable, List.flatMap_map, hF]
  -- The last join adds its own, whatever is made nullable.
  have hadd : ∀ (joins : List BoundJoin) (joined' : BoundRelation), F joined' = F joined →
      flatMapJoins F G joins = flatMapJoins F G state.joins →
      flatMapJoins F G (joins ++ [⟨kind, joined', on, nd⟩]) =
        flatMapJoins F G state.joins ++ (F joined ++ G on) := by
    intro joins joined' hjoined hjoins
    rw [← hjoins]
    simp [flatMapJoins, hjoined]
  rw [List.append_assoc]
  -- An outer join makes one side or both nullable, and `F` does not see it.
  cases kind with
  | inner => exact congrArg (F state.relation ++ ·) (hadd _ _ rfl rfl)
  | cross => exact congrArg (F state.relation ++ ·) (hadd _ _ rfl rfl)
  | left => exact congrArg (F state.relation ++ ·) (hadd _ _ (hF joined) rfl)
  | right => exact congrArg₂ (· ++ ·) (hF state.relation) (hadd _ _ rfl hjoins)
  | full => exact congrArg₂ (· ++ ·) (hF state.relation) (hadd _ _ (hF joined) hjoins)

/-- The scope after the joins of a table, where each joined relation is added. -/
def pushJoins {σ : Type} (push : σ → BoundRelation → σ) (scope : σ) (joins : List BoundJoin) : σ :=
  joins.foldl (fun scope join => push scope join.relation) scope

/-- What is read off the joins of a table in their scopes: off each joined relation in the scope of
what stands before it, and off its condition in the scope that includes it. -/
def scanJoins {σ α : Type} (push : σ → BoundRelation → σ) (F : σ → BoundRelation → List α)
    (G : σ → Option BoundExpr → List α) : σ → List BoundJoin → List α
  | _, [] => []
  | scope, join :: joins =>
    F scope join.relation ++
      (G (push scope join.relation) join.on ++ scanJoins push F G (push scope join.relation) joins)

section Scan

variable {σ α : Type} {push : σ → BoundRelation → σ} {F : σ → BoundRelation → List α}
  {G : σ → Option BoundExpr → List α}

/-- One join more is scanned last. -/
theorem scanJoins_concat (join : BoundJoin) (joins : List BoundJoin) : ∀ scope : σ,
    scanJoins push F G scope (joins ++ [join]) = scanJoins push F G scope joins ++
      (F (pushJoins push scope joins) join.relation ++
        G (push (pushJoins push scope joins) join.relation) join.on) := by
  induction joins with
  | nil => intro scope; simp [scanJoins, pushJoins]
  | cons first joins ih =>
    intro scope
    simp only [List.cons_append, scanJoins, ih, List.append_assoc]
    rfl

variable (hpush : ∀ scope r, push scope (makeRelationNullable r) = push scope r)

include hpush

/-- Joins that become nullable push the same names. -/
theorem pushJoins_makeJoinRelationsNullable (scope : σ) (joins : List BoundJoin) :
    pushJoins push scope (makeJoinRelationsNullable joins) = pushJoins push scope joins := by
  rw [pushJoins, makeJoinRelationsNullable, List.foldl_map, pushJoins]
  simp only [hpush]

/-- Joins that become nullable are scanned alike. -/
theorem scanJoins_makeJoinRelationsNullable
    (hF : ∀ scope r, F scope (makeRelationNullable r) = F scope r)
    (joins : List BoundJoin) : ∀ scope : σ,
    scanJoins push F G scope (makeJoinRelationsNullable joins) =
      scanJoins push F G scope joins := by
  induction joins with
  | nil => intro scope; rfl
  | cons join joins ih =>
    intro scope
    rw [makeJoinRelationsNullable] at ih ⊢
    simp only [List.map_cons, scanJoins, hpush, hF, ih]

/-- Adding a join adds the joined relation to the scope. -/
theorem pushJoins_addJoin (scope : σ) (state : JoinState) (kind : JoinKind) (joined : BoundRelation)
    (on : Option BoundExpr) (nd : SyntaxNode) :
    pushJoins push (push scope (state.addJoin kind joined on nd).relation)
        (state.addJoin kind joined on nd).joins =
      push (pushJoins push (push scope state.relation) state.joins) joined := by
  -- The last join is pushed last, whatever is made nullable.
  have hadd : ∀ (joins : List BoundJoin) (joined' : BoundRelation),
      (joined' = joined ∨ joined' = makeRelationNullable joined) →
      (joins = state.joins ∨ joins = makeJoinRelationsNullable state.joins) →
      pushJoins push (push scope state.relation) (joins ++ [⟨kind, joined', on, nd⟩]) =
        push (pushJoins push (push scope state.relation) state.joins) joined := by
    intro joins joined' hjoined hjoins
    have hlast : pushJoins push (push scope state.relation) (joins ++ [⟨kind, joined', on, nd⟩]) =
        push (pushJoins push (push scope state.relation) joins) joined' := List.foldl_concat _ _ _ _
    rw [hlast]
    obtain rfl | rfl := hjoined <;> obtain rfl | rfl := hjoins <;>
      simp only [pushJoins_makeJoinRelationsNullable hpush, hpush]
  have hrelation : ∀ joins,
    pushJoins push (push scope (makeRelationNullable state.relation)) joins =
      pushJoins push (push scope state.relation) joins := by
    intro joins
    rw [hpush]
  -- An outer join makes one side or both nullable, and `push` does not see it.
  cases kind with
  | inner => exact hadd _ _ (.inl rfl) (.inl rfl)
  | cross => exact hadd _ _ (.inl rfl) (.inl rfl)
  | left => exact hadd _ _ (.inr rfl) (.inl rfl)
  | right => exact (hrelation _).trans (hadd _ _ (.inl rfl) (.inr rfl))
  | full => exact (hrelation _).trans (hadd _ _ (.inr rfl) (.inr rfl))

/-- Adding a join adds what is read off the joined relation and its condition, in the scope that the
joins before it leave. -/
theorem scanJoins_addJoin (hF : ∀ scope r, F scope (makeRelationNullable r) = F scope r) (scope : σ)
    (state : JoinState) (kind : JoinKind) (joined : BoundRelation) (on : Option BoundExpr)
    (nd : SyntaxNode) :
    F scope (state.addJoin kind joined on nd).relation ++
        scanJoins push F G (push scope (state.addJoin kind joined on nd).relation)
          (state.addJoin kind joined on nd).joins =
      F scope state.relation ++ scanJoins push F G (push scope state.relation) state.joins ++
        (F (pushJoins push (push scope state.relation) state.joins) joined ++
          G (push (pushJoins push (push scope state.relation) state.joins) joined) on) := by
  -- What a join adds does not depend on whether relations were made nullable, in the new relation
  -- or in the earlier joins.
  have hadd : ∀ (joins : List BoundJoin) (joined' : BoundRelation),
      (joined' = joined ∨ joined' = makeRelationNullable joined) →
      (joins = state.joins ∨ joins = makeJoinRelationsNullable state.joins) →
      F scope state.relation ++
          scanJoins push F G (push scope state.relation) (joins ++ [⟨kind, joined', on, nd⟩]) =
        F scope state.relation ++ scanJoins push F G (push scope state.relation) state.joins ++
          (F (pushJoins push (push scope state.relation) state.joins) joined ++
            G (push (pushJoins push (push scope state.relation) state.joins) joined) on) := by
    rintro _ _ (rfl | rfl) (rfl | rfl) <;>
      simp only [scanJoins_concat, scanJoins_makeJoinRelationsNullable hpush hF,
        pushJoins_makeJoinRelationsNullable hpush, hpush, hF, List.append_assoc]
  -- The same for the relation that the joins start from.
  have hrelation : ∀ joins, F scope (makeRelationNullable state.relation) ++
      scanJoins push F G (push scope (makeRelationNullable state.relation)) joins =
        F scope state.relation ++ scanJoins push F G (push scope state.relation) joins := by
    intro joins
    rw [hF, hpush]
  -- An outer join makes one side nullable, or both.
  cases kind with
  | inner => exact hadd _ _ (.inl rfl) (.inl rfl)
  | cross => exact hadd _ _ (.inl rfl) (.inl rfl)
  | left => exact hadd _ _ (.inr rfl) (.inl rfl)
  | right => exact (hrelation _).trans (hadd _ _ (.inl rfl) (.inr rfl))
  | full => exact (hrelation _).trans (hadd _ _ (.inr rfl) (.inr rfl))

end Scan

/-- The queries in joins, join by join. -/
theorem joinQueries_eq_flatMapJoins (joins : List BoundJoin) :
    joinQueries joins = flatMapJoins relationQueries optionQueries joins := by
  induction joins with
  | nil => rfl
  | cons join joins ih =>
    cases join
    simp [joinQueries, ih, flatMapJoins]

/-- The properties with, in addition, that of the queries within each part. -/
def BindMotive.within (M : BindMotive) : BindMotive where
  expr scope e := M.expr scope e ∧ ∀ q ∈ exprQueries e, AllWithin M.query q
  query := AllWithin M.query
  setExpr body := M.setExpr body ∧ ∀ q ∈ setExprQueries body, AllWithin M.query q
  relation scope r := M.relation scope r ∧ ∀ q ∈ relationQueries r, AllWithin M.query q
  joins scope state := M.joins scope state ∧
    ∀ q ∈ relationQueries state.relation ++ joinQueries state.joins, AllWithin M.query q
  table scope t := M.table scope t ∧ ∀ q ∈ tableQueries t, AllWithin M.query q

section Within

variable {M : BindMotive}

/-- A `FROM` clause whose queries have a property at every depth. -/
theorem BindMotive.From.of_within {scope : Scope} {from_ : List BoundTableWithJoins}
    (h : M.within.From scope from_) :
    M.From scope from_ ∧ ∀ q ∈ from_.flatMap tableQueries, AllWithin M.query q := by
  induction h with
  | nil scope => exact ⟨.nil scope, by simp⟩
  | cons scope t ts htable _ ih =>
    refine ⟨.cons scope t ts htable.1 ih.1, ?_⟩
    rw [List.flatMap_cons]
    exact List.forall_mem_append.mpr ⟨htable.2, ih.2⟩

/-- A projection item whose queries have a property at every depth. -/
theorem BindMotive.Item.of_within {scope : Scope} {item : BoundProjectionItem}
    (h : M.within.Item scope item) :
    M.Item scope item ∧ ∀ q ∈ itemQueries item, AllWithin M.query q := by
  cases h with
  | expr d hexpr htype hnullable hname => exact ⟨.expr d hexpr.1 htype hnullable hname, hexpr.2⟩
  | all nd => exact ⟨.all nd, by simp [itemQueries]⟩
  | qualified qualifier fields nd hfields =>
    exact ⟨.qualified qualifier fields nd hfields, by simp [itemQueries]⟩

/-- An induction over binding also proves the property of the queries within. -/
theorem BindCases.within (C : BindCases M) : BindCases M.within where
  -- Each case is the one of the motive, with the queries of the parts collected beside it.
  column scope relation name column nd h :=
    ⟨C.column scope relation name column nd h, by simp [exprQueries]⟩
  literal scope value nd := ⟨C.literal scope value nd, by simp [bindLiteral, exprQueries]⟩
  parameter scope r ty nu nd := ⟨C.parameter scope r ty nu nd, by simp [exprQueries]⟩
  unary scope op x ty nu nd h := ⟨C.unary scope op x ty nu nd h.1, by simpa [exprQueries] using h.2⟩
  binary scope op l r ty nu nd hl hr := by
    refine ⟨C.binary scope op l r ty nu nd hl.1 hr.1, ?_⟩
    rw [exprQueries]
    exact List.forall_mem_append.mpr ⟨hl.2, hr.2⟩
  function scope f ty nu nd hargs hfilter hover := by
    obtain ⟨function, backendName, args, distinct, filter, over_, signatureName⟩ := f
    refine ⟨C.function scope _ ty nu nd (fun x hx => (hargs x hx).1) (fun x hx => (hfilter x hx).1)
      (fun w hw => ⟨fun x hx => ((hover w hw).1 x hx).1, fun o ho => ((hover w hw).2 o ho).1⟩), ?_⟩
    intro q hq
    simp only [exprQueries, List.mem_append, mem_exprsQueries, mem_optionQueries,
      mem_windowQueries] at hq
    obtain (⟨x, hx, hq⟩ | ⟨x, hx, hq⟩) | ⟨w, hw, ⟨x, hx, hq⟩ | ⟨o, ho, hq⟩⟩ := hq
    · exact (hargs x hx).2 q hq
    · exact (hfilter x hx).2 q hq
    · exact ((hover w hw).1 x hx).2 q hq
    · exact ((hover w hw).2 o ho).2 q hq
  case scope o ws el ty nu nd ho hws hel := by
    refine ⟨C.case scope o ws el ty nu nd (fun x hx => (ho x hx).1)
      (fun w hw => ⟨(hws w hw).1.1, (hws w hw).2.1⟩) (fun x hx => (hel x hx).1), ?_⟩
    intro q hq
    simp only [exprQueries, List.mem_append, mem_optionQueries, mem_whenThenQueries] at hq
    obtain (⟨x, hx, hq⟩ | ⟨w, hw, hq | hq⟩) | ⟨x, hx, hq⟩ := hq
    · exact (ho x hx).2 q hq
    · exact (hws w hw).1.2 q hq
    · exact (hws w hw).2.2 q hq
    · exact (hel x hx).2 q hq
  cast scope x t ty nu nd h := ⟨C.cast scope x t ty nu nd h.1, by simpa [exprQueries] using h.2⟩
  between scope x l h n ty nu nd hx hl hh := by
    refine ⟨C.between scope x l h n ty nu nd hx.1 hl.1 hh.1, ?_⟩
    rw [exprQueries]
    exact List.forall_mem_append.mpr ⟨List.forall_mem_append.mpr ⟨hx.2, hl.2⟩, hh.2⟩
  inList scope x xs n ty nu nd hx hxs := by
    refine ⟨C.inList scope x xs n ty nu nd hx.1 fun y hy => (hxs y hy).1, ?_⟩
    intro q hq
    simp only [exprQueries, List.mem_append, mem_exprsQueries] at hq
    obtain hq | ⟨y, hy, hq⟩ := hq
    · exact hx.2 q hq
    · exact (hxs y hy).2 q hq
  inSubquery scope x q n ty nu nd hx hq := by
    refine ⟨C.inSubquery scope x q n ty nu nd hx.1 (hq q .refl), ?_⟩
    rw [exprQueries]
    exact List.forall_mem_append.mpr ⟨hx.2, List.forall_mem_singleton.mpr hq⟩
  scalarSubquery scope q ty nu nd hq := by
    refine ⟨C.scalarSubquery scope q ty nu nd (hq q .refl), ?_⟩
    rw [exprQueries]
    exact List.forall_mem_singleton.mpr hq
  exists_ scope q ty nu nd hq := by
    refine ⟨C.exists_ scope q ty nu nd (hq q .refl), ?_⟩
    rw [exprQueries]
    exact List.forall_mem_singleton.mpr hq
  like scope x p n ci ty nu nd hx hp := by
    refine ⟨C.like scope x p n ci ty nu nd hx.1 hp.1, ?_⟩
    rw [exprQueries]
    exact List.forall_mem_append.mpr ⟨hx.2, hp.2⟩
  isNull scope x n ty nu nd h := ⟨C.isNull scope x n ty nu nd h.1, by simpa [exprQueries] using h.2⟩
  tuple scope xs ty nu nd h := by
    refine ⟨C.tuple scope xs ty nu nd fun x hx => (h x hx).1, fun q hq => ?_⟩
    rw [exprQueries, mem_exprsQueries] at hq
    obtain ⟨x, hx, hq⟩ := hq
    exact (h x hx).2 q hq
  array scope xs ty nu nd h := by
    refine ⟨C.array scope xs ty nu nd fun x hx => (h x hx).1, fun q hq => ?_⟩
    rw [exprQueries, mem_exprsQueries] at hq
    obtain ⟨x, hx, hq⟩ := hq
    exact (h x hx).2 q hq
  -- A query is within itself, and so are the queries within its parts.
  query q hctes hbody horder hlimit hoffset hschema := by
    refine allWithin_iff.mpr
      ⟨C.query q (fun c hc => ⟨(hctes c hc).1 c.query .refl, (hctes c hc).2⟩) hbody.1
      (fun o ho => (horder o ho).1) (fun x hx => (hlimit x hx).1) (fun x hx => (hoffset x hx).1)
      hschema, fun inner hinner => ?_⟩
    simp only [directQueries, List.mem_append, List.mem_map, mem_orderByQueries,
      mem_optionQueries] at hinner
    obtain (((⟨c, hc, rfl⟩ | hinner) | ⟨o, ho, hinner⟩) | ⟨x, hx, hinner⟩) | ⟨x, hx, hinner⟩ :=
      hinner
    · exact (hctes c hc).1
    · exact hbody.2 inner hinner
    · exact (horder o ho).2 inner hinner
    · exact (hlimit x hx).2 inner hinner
    · exact (hoffset x hx).2 inner hinner
  unionAll l r nd hl hr hlength := by
    refine ⟨C.unionAll l r nd hl.1 hr.1 hlength, ?_⟩
    rw [setExprQueries]
    exact List.forall_mem_append.mpr ⟨hl.2, hr.2⟩
  -- The queries of a select are those of its projection, its tables and its three conditions.
  select s hfrom hselection hgroup hhaving hitems hschema := by
    refine ⟨C.select s hfrom.of_within.1 (fun x hx => (hselection x hx).1)
      (fun x hx => (hgroup x hx).1) (fun x hx => (hhaving x hx).1)
      (fun item hitem => (hitems item hitem).of_within.1) hschema, ?_⟩
    intro q hq
    simp only [setExprQueries, selectQueries, List.mem_append, mem_optionQueries, mem_exprsQueries]
      at hq
    obtain (((hq | hq) | ⟨x, hx, hq⟩) | ⟨x, hx, hq⟩) | ⟨x, hx, hq⟩ := hq
    · obtain ⟨item, hitem, hq⟩ := List.mem_flatMap.mp hq
      exact (hitems item hitem).of_within.2 q hq
    · exact hfrom.of_within.2 q hq
    · exact (hselection x hx).2 q hq
    · exact (hgroup x hx).2 q hq
    · exact (hhaving x hx).2 q hq
  table scope binding nd := ⟨C.table scope binding nd, by simp [relationQueries]⟩
  derived scope name q nd hq := by
    refine ⟨C.derived scope name q nd (hq q .refl), ?_⟩
    rw [relationQueries]
    exact List.forall_mem_singleton.mpr hq
  nestedJoin scope name t nd ht := by
    refine ⟨C.nestedJoin scope name t nd ht.1, ?_⟩
    cases t
    exact ht.2
  startJoins scope r hr := by
    refine ⟨C.startJoins scope r hr.1, ?_⟩
    simpa [joinQueries] using hr.2
  -- A join adds the queries of its relation and of its condition, and making a side nullable adds
  -- none.
  addJoin scope state kind joined on nd hstate hjoined hon := by
    refine ⟨C.addJoin scope state kind joined on nd hstate.1 hjoined.1 fun x hx => (hon x hx).1, ?_⟩
    rw [joinQueries_eq_flatMapJoins, flatMapJoins_addJoin relationQueries_makeRelationNullable,
      ← joinQueries_eq_flatMapJoins]
    refine List.forall_mem_append.mpr
      ⟨hstate.2, List.forall_mem_append.mpr ⟨hjoined.2, fun q hq => ?_⟩⟩
    obtain ⟨x, hx, hq⟩ := mem_optionQueries.mp hq
    exact (hon x hx).2 q hq
  endJoins scope state nd h := ⟨C.endJoins scope state nd h.1, h.2⟩

/-- The queries within the plan of an accepted query have the property. -/
theorem BindCases.allWithin (C : BindCases M) (context : BinderContext) {query : SyntaxQuery}
    (h : Accepted context query) : AllWithin M.query (Bind.boundPlan context query) :=
  C.within.boundPlan context h

end Within

end QueryFabric.Bind
