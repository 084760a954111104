import QueryFabric.Catalog.Maps
import QueryFabric.Catalog.Memory
import Mathlib.Data.List.Induction

/-!
# Relations and their namespaces

`resolve_relation` first looks for the name in the namespace that it is given, and otherwise takes
the first relation of the catalog that has the name or an alias of it, in any namespace. After any
registrations it returns a relation of the namespace asked for exactly when one of that namespace
has the name, or comes before all relations of other namespaces that answer to it:
`namespace_isolated_iff`.
-/

namespace QueryFabric.MemoryCatalog

/-- The key that a relation is registered under. -/
def relationKey (relation : RelationSchema) : Option String × String :=
  (relation.namespace_, toAsciiLowercase relation.name)

/-- The catalog after registering relations one after the other. -/
def registerRelations (relations : List RelationSchema) : MemoryCatalog :=
  relations.foldl registerRelation {}

/-- A relation was registered, and none after it under its key. -/
def Registered (relations : List RelationSchema) (relation : RelationSchema) : Prop :=
  ∃ earlier later, relations = earlier ++ relation :: later ∧
    ∀ other ∈ later, relationKey other ≠ relationKey relation

/-- The relation has the name, or an alias of it. -/
def AnswersTo (name : String) (relation : RelationSchema) : Prop :=
  eqIgnoreAsciiCase relation.name name = true ∨
    ∃ alias_ ∈ relation.aliases, eqIgnoreAsciiCase alias_ name = true

/-- What is registered after one relation more. -/
theorem registered_concat {relations : List RelationSchema} {last relation : RelationSchema} :
    Registered (relations ++ [last]) relation ↔
      relation = last ∨
        (relationKey relation ≠ relationKey last ∧ Registered relations relation) := by
  constructor
  · rintro ⟨earlier, later, heq, hlater⟩
    obtain rfl | ⟨front, final, rfl⟩ := later.eq_nil_or_concat'
    · obtain ⟨-, hlast⟩ := List.append_inj' heq rfl
      exact .inl (List.singleton_inj.mp hlast).symm
    · rw [← List.cons_append, ← List.append_assoc] at heq
      obtain ⟨hrelations, hfinal⟩ := List.append_inj' heq rfl
      obtain rfl := List.singleton_inj.mp hfinal
      refine .inr ⟨fun hkey => hlater last (by simp) hkey.symm, earlier, front, hrelations, ?_⟩
      exact fun other hother => hlater other (List.mem_append_left _ hother)
  · rintro (rfl | ⟨hkey, earlier, later, rfl, hlater⟩)
    · exact ⟨relations, [], rfl, List.forall_mem_nil _⟩
    · refine ⟨earlier, later ++ [last], by simp, List.forall_mem_append.mpr ⟨hlater, ?_⟩⟩
      exact List.forall_mem_singleton.mpr fun heq => hkey heq.symm

/-- The entries of the catalog are the relations that were registered, in key order. -/
theorem entries_registerRelations (relations : List RelationSchema) :
    KeysSorted nameKeyLt (registerRelations relations).relations ∧
      ∀ key relation, (key, relation) ∈ (registerRelations relations).relations ↔
        key = relationKey relation ∧ Registered relations relation := by
  induction relations using List.reverseRecOn with
  | nil =>
    refine ⟨List.Pairwise.nil, fun key relation => iff_of_false (List.not_mem_nil) ?_⟩
    rintro ⟨-, earlier, later, heq, -⟩
    simp at heq
  | append_singleton relations last ih =>
    obtain ⟨hsorted, hentries⟩ := ih
    -- The last registration is inserted into the map of the earlier ones.
    have hlast : (registerRelations (relations ++ [last])).relations =
        mapInsert nameKeyLt (relationKey last) last (registerRelations relations).relations := by
      rw [registerRelations, List.foldl_concat]
      rfl
    rw [hlast]
    refine ⟨keysSorted_mapInsert isKeyOrder_nameKeyLt _ _ hsorted, fun key relation => ?_⟩
    rw [mem_mapInsert_iff isKeyOrder_nameKeyLt _ _ _ hsorted, hentries, registered_concat,
      Prod.mk.injEq]
    constructor
    -- An entry is the last one's, or an earlier one under another key.
    · rintro (⟨rfl, rfl⟩ | ⟨hkey, rfl, hregistered⟩)
      · exact ⟨rfl, .inl rfl⟩
      · exact ⟨rfl, .inr ⟨hkey, hregistered⟩⟩
    · rintro ⟨rfl, rfl | ⟨hkey, hregistered⟩⟩
      · exact .inl ⟨rfl, rfl⟩
      · exact .inr ⟨hkey, rfl, hregistered⟩

/-- A relation that was registered under the name is what the lookup finds. -/
theorem lookup_relations_eq_some_iff {relations : List RelationSchema} {namespace_ : Option String}
    {name : String} {relation : RelationSchema} :
    (registerRelations relations).relations.lookup (namespace_, toAsciiLowercase name) =
      some relation ↔
      Registered relations relation ∧ relation.namespace_ = namespace_ ∧
        eqIgnoreAsciiCase relation.name name = true := by
  obtain ⟨hsorted, hentries⟩ := entries_registerRelations relations
  rw [lookup_eq_some_iff isKeyOrder_nameKeyLt _ _ hsorted, hentries, relationKey, Prod.mk.injEq,
    eqIgnoreAsciiCase_iff]
  constructor
  · rintro ⟨⟨rfl, hname⟩, hregistered⟩
    exact ⟨hregistered, rfl, hname.symm⟩
  · rintro ⟨hregistered, rfl, hname⟩
    exact ⟨⟨rfl, hname.symm⟩, hregistered⟩

/-- The search by name finds the relations that answer to it. -/
theorem answersTo_iff {name : String} {relation : RelationSchema} :
    (eqIgnoreAsciiCase relation.name name ||
      relation.aliases.any fun alias_ => eqIgnoreAsciiCase alias_ name) = true ↔
        AnswersTo name relation := by
  rw [Bool.or_eq_true, List.any_eq_true, AnswersTo]

/-- The scan over the catalog finds the relation of the least key that answers to a name. -/
theorem find?_relations_eq_some {relations : List RelationSchema} {name : String}
    {relation : RelationSchema}
    (h : ((registerRelations relations).relations.map Prod.snd).find? (fun relation =>
      eqIgnoreAsciiCase relation.name name ||
        relation.aliases.any fun alias_ => eqIgnoreAsciiCase alias_ name) = some relation) :
    Registered relations relation ∧ AnswersTo name relation ∧
      ∀ other, Registered relations other → AnswersTo name other →
        other = relation ∨ nameKeyLt (relationKey relation) (relationKey other) = true := by
  obtain ⟨hsorted, hentries⟩ := entries_registerRelations relations
  rw [List.find?_map] at h
  obtain ⟨⟨key, found⟩, hfind, rfl⟩ := Option.map_eq_some_iff.mp h
  obtain ⟨hmem, hanswers, hleast⟩ := find?_eq_some_of_sorted hsorted hfind
  obtain ⟨rfl, hregistered⟩ := (hentries _ _).mp hmem
  refine ⟨hregistered, answersTo_iff.mp hanswers, fun other hother hother' => ?_⟩
  refine (hleast _ ((hentries _ other).mpr ⟨rfl, hother⟩) (answersTo_iff.mpr hother')).imp_left
    fun heq => ?_
  exact (Prod.mk.inj heq).2

/-- A registered relation is found by the names that it answers to. -/
theorem find?_relations_isSome {relations : List RelationSchema} {name : String}
    {relation : RelationSchema}
    (hregistered : Registered relations relation) (hanswers : AnswersTo name relation) :
    (((registerRelations relations).relations.map Prod.snd).find? fun relation =>
      eqIgnoreAsciiCase relation.name name ||
        relation.aliases.any fun alias_ => eqIgnoreAsciiCase alias_ name).isSome = true := by
  rw [List.find?_isSome]
  have hentry := ((entries_registerRelations relations).2 _ relation).mpr ⟨rfl, hregistered⟩
  exact ⟨relation, List.mem_map_of_mem hentry, answersTo_iff.mpr hanswers⟩

/-- After any registrations, a relation that is asked for in a namespace is one of that namespace,
exactly when one of the namespace has the name, or each relation of another namespace that answers
to it comes after one of the namespace that does. -/
theorem namespace_isolated_iff (relations : List RelationSchema) (namespace_ name : String) :
    (∀ relation, (registerRelations relations).resolveRelation (some namespace_) name =
      some relation →
        relation.namespace_ = some namespace_) ↔
      (∃ relation, Registered relations relation ∧ relation.namespace_ = some namespace_ ∧
        eqIgnoreAsciiCase relation.name name = true) ∨
      ∀ other, Registered relations other → other.namespace_ ≠ some namespace_ →
      AnswersTo name other →
        ∃ relation, Registered relations relation ∧ relation.namespace_ = some namespace_ ∧
          AnswersTo name relation ∧
          nameKeyLt (relationKey relation) (relationKey other) = true := by
  unfold resolveRelation
  cases hlookup : (registerRelations relations).relations.lookup
    (some namespace_, toAsciiLowercase name) with
  | some found =>
    -- The name is registered in the namespace.
    have hfound := lookup_relations_eq_some_iff.mp hlookup
    refine iff_of_true (fun relation hrelation => ?_) (.inl ⟨found, hfound⟩)
    rw [Option.some_or, Option.some_inj] at hrelation
    exact hrelation ▸ hfound.2.1
  | none =>
    have hnone : ¬ ∃ relation, Registered relations relation ∧
      relation.namespace_ = some namespace_ ∧
        eqIgnoreAsciiCase relation.name name = true := by
      rintro ⟨relation, hrelation⟩
      rw [lookup_relations_eq_some_iff.mpr hrelation] at hlookup
      cases hlookup
    rw [or_iff_right hnone, Option.none_or]
    constructor
    · intro hisolated other hother hnamespace hanswers
      obtain ⟨relation, hrelation⟩ :=
        Option.isSome_iff_exists.mp (find?_relations_isSome hother hanswers)
      obtain ⟨hregistered, hanswers', hleast⟩ := find?_relations_eq_some hrelation
      have hin := hisolated relation hrelation
      refine ⟨relation, hregistered, hin, hanswers', (hleast other hother hanswers).resolve_left ?_⟩
      rintro rfl
      exact hnamespace hin
    · intro hbefore relation hrelation
      obtain ⟨hregistered, hanswers, hleast⟩ := find?_relations_eq_some hrelation
      by_contra hnamespace
      obtain ⟨first, hfirst, -, hanswers', hlt⟩ := hbefore relation hregistered hnamespace hanswers
      obtain rfl | hlt' := hleast first hfirst hanswers'
      · rw [isKeyOrder_nameKeyLt.irrefl] at hlt
        cases hlt
      · have hself := isKeyOrder_nameKeyLt.trans hlt hlt'
        rw [isKeyOrder_nameKeyLt.irrefl] at hself
        cases hself

/-- The relation `secrets` of the namespace `audit` is what `sales.secrets` is resolved to. -/
theorem foreign_relation_resolved :
    let secrets : RelationSchema :=
      { namespace_ := some "audit", name := "secrets", aliases := [], kind := .table,
        columns := [] }
    (registerRelations [secrets]).resolveRelation (some "sales") "secrets" = some secrets ∧
      ¬ ∀ relation, (registerRelations [secrets]).resolveRelation (some "sales") "secrets" =
        some relation →
        relation.namespace_ = some "sales" := by
  refine ⟨rfl, fun h => ?_⟩
  exact absurd (h _ rfl) (by decide)

end QueryFabric.MemoryCatalog
