import QueryFabric.Ir.Types
import QueryFabric.Lib.Merge

/-!
# The order of types

`common_type` of `types.rs` is the join of an order, where a type is below another when it is
`Unknown`, a narrower number, or the list of such a type: `commonType_isJoin` has the laws. A fold
of it over a list that takes `Unknown` for a conflict is `Lib.mergeAll`, and
`unification_stable_iff` says for which lists it does not depend on the order.
-/

namespace QueryFabric

/-- A type is `Unknown`, or a narrower number, where the other one is wider. -/
inductive DataType.Widens : DataType → DataType → Prop
  | refl (type : DataType) : Widens type type
  | unknown (type : DataType) : Widens .unknown type
  | int32_int64 : Widens .int32 .int64
  | int32_float64 : Widens .int32 .float64
  | int64_float64 : Widens .int64 .float64
  | list {narrow wide : DataType} (h : Widens narrow wide) : Widens (.list narrow) (.list wide)

namespace DataType

/-- Widening is transitive. -/
theorem Widens.trans {a b c : DataType} (hab : Widens a b) (hbc : Widens b c) : Widens a c := by
  induction hab generalizing c with
  | refl type => exact hbc
  | unknown type => exact .unknown c
  | int32_int64 =>
    cases hbc with
    | refl => exact .int32_int64
    | int64_float64 => exact .int32_float64
  | int32_float64 =>
    cases hbc with
    | refl => exact .int32_float64
  | int64_float64 =>
    cases hbc with
    | refl => exact .int64_float64
  | list h ih =>
    cases hbc with
    | refl => exact .list h
    | list h' => exact .list (ih h')

/-- Widening is antisymmetric. -/
theorem Widens.antisymm {a b : DataType} (hab : Widens a b) (hba : Widens b a) : a = b := by
  induction hab with
  | refl type => rfl
  | unknown type =>
    cases hba with
    | refl => rfl
    | unknown => rfl
  | int32_int64 => cases hba
  | int32_float64 => cases hba
  | int64_float64 => cases hba
  | list h ih =>
    cases hba with
    | refl => rfl
    | list h' => rw [ih h']

/-- The types that a type widens are a chain. -/
theorem Widens.total {a b c : DataType} (hac : Widens a c) (hbc : Widens b c) :
    Widens a b ∨ Widens b a := by
  -- The types below a given one form a chain: one case per rule of `Widens`.
  induction hac generalizing b with
  | refl type => exact .inr hbc
  | unknown type => exact .inl (.unknown b)
  | int32_int64 =>
    cases hbc with
    | refl => exact .inl .int32_int64
    | unknown => exact .inr (.unknown _)
    | int32_int64 => exact .inl (.refl _)
  | int32_float64 =>
    cases hbc with
    | refl => exact .inl .int32_float64
    | unknown => exact .inr (.unknown _)
    | int32_float64 => exact .inl (.refl _)
    | int64_float64 => exact .inl .int32_int64
  | int64_float64 =>
    cases hbc with
    | refl => exact .inl .int64_float64
    | unknown => exact .inr (.unknown _)
    | int32_float64 => exact .inr .int32_int64
    | int64_float64 => exact .inl (.refl _)
  | list h ih =>
    cases hbc with
    | refl => exact .inl (.list h)
    | unknown => exact .inr (.unknown _)
    | list h' => exact (ih h').imp .list .list

/-- The types, ordered by widening. -/
instance : PartialOrder DataType where
  le := Widens
  le_refl := .refl
  le_trans _ _ _ := Widens.trans
  le_antisymm _ _ := Widens.antisymm

/-- The unknown type is the least. -/
instance : OrderBot DataType where
  bot := .unknown
  bot_le := .unknown

/-- A common type is the wider one of the two. -/
theorem commonType_of_widens {a b : DataType} (h : Widens a b) :
    commonType a b = some b ∧ commonType b a = some b := by
  have hself : ∀ type : DataType, commonType type type = some type := by
    intro type
    rw [commonType.eq_def]
    exact if_pos rfl
  -- By how the types widen: a list widens as its elements do.
  induction h with
  | refl type => exact ⟨hself type, hself type⟩
  | unknown type =>
    -- The code compares the two types for equality before anything else.
    by_cases heq : .unknown = type
    · rw [← heq]
      exact ⟨hself _, hself _⟩
    · have heq' : type ≠ .unknown := fun h => heq h.symm
      rw [commonType.eq_def, commonType.eq_def type]
      dsimp only
      rw [if_neg heq, if_neg heq']
      refine ⟨rfl, ?_⟩
      cases type <;> rfl
  | int32_int64 => exact ⟨rfl, rfl⟩
  | int32_float64 => exact ⟨rfl, rfl⟩
  | int64_float64 => exact ⟨rfl, rfl⟩
  | @list narrow wide h ih =>
    by_cases heq : narrow = wide
    · rw [heq]
      exact ⟨hself _, hself _⟩
    · have hne : list narrow ≠ list wide := fun h => heq (DataType.list.inj h)
      rw [commonType.eq_def, commonType.eq_def (list wide)]
      dsimp only
      rw [if_neg hne, if_neg hne.symm, ih.1, ih.2]
      exact ⟨rfl, rfl⟩

/-- Types with a common type widen to one another. -/
theorem widens_of_commonType {a b c : DataType} (h : commonType a b = some c) :
    Widens a b ∨ Widens b a := by
  -- Along the cases of `common_type`: two types that have a common one stand in one of its pairs.
  induction a, b using commonType.induct generalizing c with
  | case1 right => exact .inl (.refl right)
  | case2 other => exact .inl (.unknown other)
  | case3 other => exact .inr (.unknown other)
  | case4 => exact .inl .int32_int64
  | case5 => exact .inr .int32_int64
  | case6 => exact .inl .int32_float64
  | case7 => exact .inr .int32_float64
  | case8 => exact .inl .int64_float64
  | case9 => exact .inr .int64_float64
  | case10 left right hne ih =>
    rw [commonType.eq_def] at h
    dsimp only at h
    rw [if_neg hne] at h
    obtain ⟨inner, hinner, -⟩ := Option.map_eq_some_iff.mp h
    exact (ih hinner).imp .list .list
  -- Any other pair has none.
  | case11 left right hne h₁ h₂ h₃ h₄ h₅ h₆ h₇ h₈ h₉ =>
    rw [commonType.eq_def] at h
    dsimp only at h
    rw [if_neg hne] at h
    split at h
    · exact (h₁ rfl).elim
    · exact (h₂ rfl).elim
    · exact (h₃ rfl rfl).elim
    · exact (h₄ rfl rfl).elim
    · exact (h₅ rfl rfl).elim
    · exact (h₆ rfl rfl).elim
    · exact (h₇ rfl rfl).elim
    · exact (h₈ rfl rfl).elim
    · exact (h₉ _ _ rfl rfl).elim
    · cases h

/-- Two types have a common one when one of them widens to the other. -/
theorem isSome_commonType_iff (a b : DataType) : (commonType a b).isSome ↔ a ≤ b ∨ b ≤ a := by
  constructor
  · intro h
    obtain ⟨c, hc⟩ := Option.isSome_iff_exists.mp h
    exact widens_of_commonType hc
  · rintro (h | h)
    · rw [(commonType_of_widens h).1]
      rfl
    · rw [(commonType_of_widens h).2]
      rfl

/-! ## The partial join -/

/-- The common type is the join. -/
theorem commonType_eq_join? (a b : DataType) : commonType a b = Lib.join? a b := by
  by_cases hab : a ≤ b
  · rw [(commonType_of_widens hab).1, Lib.join?_of_le hab]
  · by_cases hba : b ≤ a
    · rw [(commonType_of_widens hba).2, Lib.join?_of_ge hba]
    · have hnot : ¬ (a ≤ b ∨ b ≤ a) := not_or.mpr ⟨hab, hba⟩
      rw [Lib.join?_of_not hnot, ← Option.not_isSome_iff_eq_none, isSome_commonType_iff]
      exact hnot

/-- `common_type` is a partial join with `Unknown` as its identity. -/
theorem commonType_isJoin : Lib.IsPartialJoin commonType unknown := by
  have hjoin : commonType = Lib.join? := funext fun a => funext fun b => commonType_eq_join? a b
  rw [hjoin]
  exact Lib.isPartialJoin_join? Widens.total

/-- The common type, or the unknown one, is the merge. -/
theorem commonOrUnknown_eq_merge (a b : DataType) : commonOrUnknown a b = Lib.merge a b := by
  rw [commonOrUnknown, commonType_eq_join?]
  by_cases hab : a ≤ b
  · rw [Lib.join?_of_le hab, Lib.merge_of_le hab]
    rfl
  · by_cases hba : b ≤ a
    · rw [Lib.join?_of_ge hba, Lib.merge_of_ge hba]
      rfl
    · have hnot : ¬ (a ≤ b ∨ b ≤ a) := not_or.mpr ⟨hab, hba⟩
      rw [Lib.join?_of_not hnot, Lib.merge_of_not hnot]
      rfl

/-! ## The fold over a list -/

/-- Only the unknown type is unknown. -/
theorem eq_unknown_of_isUnknown {type : DataType} (h : type.isUnknown = true) : type = unknown := by
  cases type with
  | unknown => rfl
  | _ => cases h

/-- The common type of a list merges its types. -/
theorem reduceCommon_eq_mergeAll (types : List DataType) :
    reduceCommon types = Lib.mergeAll types := by
  have hmerge : commonOrUnknown = Lib.merge :=
    funext fun a => funext fun b => commonOrUnknown_eq_merge a b
  cases types with
  | nil => rfl
  | cons type types =>
    rw [Lib.mergeAll, List.foldl_cons, Lib.bot_merge, reduceCommon, hmerge]

/-- The members of a list that are known. -/
def known (types : List DataType) : List DataType := types.filter fun type => !type.isUnknown

/-- `Unknown` members do not change the common type of a list. -/
theorem reduceCommon_known (types : List DataType) :
    reduceCommon (known types) = reduceCommon types := by
  rw [reduceCommon_eq_mergeAll, reduceCommon_eq_mergeAll]
  refine Lib.mergeAll_filter fun type _ hknown => eq_unknown_of_isUnknown ?_
  rwa [Bool.not_eq_false'] at hknown

/-- A known type is not the least. -/
theorem ne_bot_of_mem_known {types : List DataType} {type : DataType} (h : type ∈ known types) :
    type ≠ ⊥ := by
  obtain ⟨-, hknown⟩ := List.mem_filter.mp h
  rintro rfl
  cases hknown

/-- The common type of a list does not depend on its order, and is `Unknown` when two members have
none. -/
structure UnificationStable (types : List DataType) : Prop where
  independent : ∀ types' : List DataType, types'.Perm types →
    reduceCommon types' = reduceCommon types
  conflicts : (∃ a ∈ types, ∃ b ∈ types, commonType a b = none) → reduceCommon types = unknown

/-- Every two known members of a list have a common type, or no two of them do and their number is
even. -/
def MembersAgree (types : List DataType) : Prop :=
  (known types).Pairwise (fun a b => (commonType a b).isSome) ∨
    (Even (known types).length ∧ (known types).Pairwise fun a b => commonType a b = none)

/-- The members of a list agree when they form a chain, or an antichain of even length. -/
theorem membersAgree_iff (types : List DataType) :
    MembersAgree types ↔ Lib.Chain (known types) ∨
      (Even (known types).length ∧ Lib.Antichain (known types)) := by
  have hchain : (known types).Pairwise (fun a b => (commonType a b).isSome) ↔
      Lib.Chain (known types) :=
    List.Pairwise.iff fun {a b} => isSome_commonType_iff a b
  have hanti : (known types).Pairwise (fun a b => commonType a b = none) ↔
      Lib.Antichain (known types) := by
    refine List.Pairwise.iff fun {a b} => ?_
    rw [← Option.not_isSome_iff_eq_none, isSome_commonType_iff]
  rw [MembersAgree, hchain, hanti]

/-- Two members without a common type are known. -/
theorem mem_known_of_conflict {types : List DataType} {a b : DataType} (ha : a ∈ types)
    (h : ¬ (a ≤ b ∨ b ≤ a)) : a ∈ known types := by
  refine List.mem_filter.mpr ⟨ha, ?_⟩
  rw [Bool.not_eq_true']
  refine Bool.eq_false_iff.mpr fun hunknown => h (.inl ?_)
  rw [eq_unknown_of_isUnknown hunknown]
  exact bot_le (a := b)

/-- The common type of a list is stable exactly when every two known members have a common type, or
no two of them do and their number is even. -/
theorem unification_stable_iff (types : List DataType) :
    UnificationStable types ↔ MembersAgree types := by
  -- The order of the known types is what matters; the unknown ones are dropped.
  have hiff := Lib.mergeAll_perm_iff Widens.total (known types) fun type => ne_bot_of_mem_known
  rw [membersAgree_iff]
  constructor
  · intro h
    refine hiff.mp fun types' hp => ?_
    obtain ⟨whole, hwhole, hfilter⟩ := Lib.exists_perm_filter hp
    have hsame := h.independent whole hwhole
    rw [← reduceCommon_known, ← reduceCommon_known types] at hsame
    rw [← reduceCommon_eq_mergeAll, ← reduceCommon_eq_mergeAll, ← hsame, ← hfilter]
    rfl
  · intro h
    refine ⟨fun types' hp => ?_, ?_⟩
    · have hknown : (known types').Perm (known types) := hp.filter _
      rw [← reduceCommon_known, ← reduceCommon_known types, reduceCommon_eq_mergeAll,
        reduceCommon_eq_mergeAll]
      exact hiff.mpr h _ hknown
    · rintro ⟨a, ha, b, hb, hnone⟩
      -- A conflict is a pair of types of which neither widens to the other.
      have hconflict : ¬ (a ≤ b ∨ b ≤ a) := by
        rw [← isSome_commonType_iff, hnone]
        exact Bool.false_ne_true
      have hconflict' : ¬ (b ≤ a ∨ a ≤ b) := fun h => hconflict h.symm
      rw [← reduceCommon_known, reduceCommon_eq_mergeAll]
      exact Lib.mergeAll_eq_bot_of_conflict Widens.total h (mem_known_of_conflict ha hconflict)
        (mem_known_of_conflict hb hconflict') hconflict

/-- A Boolean, a text and an integer make an integer, and a Boolean in another order. -/
theorem mixed_members_unstable :
    reduceCommon [.boolean, .utf8, .int64] = .int64 ∧
    reduceCommon [.int64, .utf8, .boolean] = .boolean ∧
      ¬ UnificationStable [.boolean, .utf8, .int64] := by
  refine ⟨rfl, rfl, fun h => ?_⟩
  have hconflict := h.conflicts ⟨.boolean, List.mem_cons_self, .utf8,
    List.mem_cons_of_mem _ List.mem_cons_self, rfl⟩
  cases hconflict

end DataType

/-! ## List parameters -/

mutual

/-- `ParameterValue::inferred_type`. -/
def ParameterValue.inferredType : ParameterValue → DataType
  | .null => .unknown
  | .boolean _ => .boolean
  | .int64 _ => .int64
  | .float64 _ => .float64
  | .utf8 _ => .utf8
  | .uuid _ => .uuid
  | .json _ => .json
  | .list values => .list (DataType.reduceCommon (inferredTypes values))

/-- The inferred types of the members of a list, without `Unknown` ones. -/
def inferredTypes : List ParameterValue → List DataType
  | [] => []
  | value :: values =>
    let type := value.inferredType
    if !type.isUnknown then type :: inferredTypes values else inferredTypes values

end

end QueryFabric
