import QueryFabric.Bind.Validate
import QueryFabric.Ir.Widening

/-!
# The type that the uses of a parameter come to

`record_parameter_use` of `params.rs` merges the type of each use into that of the uses before it.
Types without a common type are merged to `Unknown`, which the next use overrides.
`inference_stable_iff` says for which uses the result is nevertheless the same in every order, and
conflicting uses are always an error.
-/

namespace QueryFabric

namespace Bind

open Lib

/-! ## The uses of a parameter -/

/-- A use of a parameter: what is expected of it, and where. -/
structure ParameterUse where
  expected : ExpectedType
  node : SyntaxNode

/-- The uses of a parameter are recorded one after the other. -/
def recordUses (reference : ParameterRef) : List ParameterUse → BindM Unit
  | [] => return
  | use :: uses => do
    recordParameterUse reference use.expected use.node
    recordUses reference uses

/-- The constraint of a parameter after its uses were recorded. -/
def constraintAfter (binder : Binder) (reference : ParameterRef) (uses : List ParameterUse) :
    Option ParameterConstraint :=
  ((recordUses reference uses).run binder).2.parameterConstraints.lookup reference

/-- The type and the nullability of a parameter after its uses, and whether it is finalized without
an error. -/
def inferred (parameters : QueryParameters) (binder : Binder) (reference : ParameterRef)
    (uses : List ParameterUse) : Option (Option DataType × NullableConstraint × Bool) :=
  (constraintAfter binder reference uses).map fun constraint =>
    (constraint.dataType, constraint.nullable,
      (finalizeParameter parameters reference constraint).2.isSome)

/-- The types that the uses of a parameter expect, where they are known. -/
def knownType? (use : ParameterUse) : Option DataType :=
  use.expected.dataType.filter fun type => !type.isUnknown

/-- The known types of uses. -/
def knownTypes (uses : List ParameterUse) : List DataType := uses.filterMap knownType?

/-- What is inferred is the same for every order of the uses, and two uses without a common type are
an error in every order. -/
structure InferenceStable (parameters : QueryParameters) (binder : Binder)
    (reference : ParameterRef) (uses : List ParameterUse) : Prop where
  independent : ∀ uses' : List ParameterUse, uses'.Perm uses →
    inferred parameters binder reference uses' = inferred parameters binder reference uses
  conflicts : (∃ a ∈ knownTypes uses, ∃ b ∈ knownTypes uses, DataType.commonType a b = none) →
    ∀ uses' : List ParameterUse, uses'.Perm uses →
      ∀ constraint ∈ constraintAfter binder reference uses',
      (finalizeParameter parameters reference constraint).2 = none

/-- The constraint that a first use makes. -/
def firstConstraint (node : SyntaxNode) : ParameterConstraint :=
  { dataType := none, nullable := .unknown, span := node.span, nodeId := some node.nodeId }

/-- A use updates the constraint of its parameter, or makes its first one. -/
theorem lookup_recordParameterUse (binder : Binder) (reference : ParameterRef)
    (use : ParameterUse) :
    ((recordParameterUse reference use.expected use.node).run binder).2.parameterConstraints.lookup
      reference =
      some (((binder.parameterConstraints.lookup reference).getD (firstConstraint use.node)).record
        use.expected) :=
  (lookup_mapInsert isKeyOrder_parameterRef.irrefl isKeyOrder_parameterRef.trichotomy
    reference _ reference binder.parameterConstraints).trans (if_pos rfl)

/-- The constraint after a use more. -/
theorem constraintAfter_cons (binder : Binder) (reference : ParameterRef) (use : ParameterUse)
    (uses : List ParameterUse) : constraintAfter binder reference (use :: uses) =
      constraintAfter ((recordParameterUse reference use.expected use.node).run binder).2
        reference uses := rfl

/-- The constraint that uses make of one. -/
def ParameterConstraint.recordAll (constraint : ParameterConstraint) (uses : List ParameterUse) :
    ParameterConstraint :=
  uses.foldl (fun constraint use => constraint.record use.expected) constraint

/-- Uses of a parameter that has a constraint update it. -/
theorem constraintAfter_of_some {reference : ParameterRef} (uses : List ParameterUse) :
    ∀ {binder : Binder} {constraint : ParameterConstraint},
    binder.parameterConstraints.lookup reference = some constraint →
    constraintAfter binder reference uses = some (constraint.recordAll uses) := by
  induction uses with
  | nil => intro binder constraint h; exact h
  | cons use uses ih =>
    intro binder constraint h
    have hlookup := lookup_recordParameterUse binder reference use
    rw [h] at hlookup
    rw [constraintAfter_cons, ih hlookup]
    rfl

/-- Uses of a parameter that has no constraint start from that of the first one. -/
theorem constraintAfter_of_none {binder : Binder} {reference : ParameterRef}
    (h : binder.parameterConstraints.lookup reference = none) (use : ParameterUse)
    (uses : List ParameterUse) :
    constraintAfter binder reference (use :: uses) =
      some ((firstConstraint use.node).recordAll (use :: uses)) := by
  have hlookup := lookup_recordParameterUse binder reference use
  rw [h] at hlookup
  rw [constraintAfter_cons, constraintAfter_of_some uses hlookup]
  rfl

/-! ## What the uses come to -/

/-- A use changes the type of a constraint if its own type is known. -/
theorem record_knownType (constraint : ParameterConstraint) (use : ParameterUse) :
    (constraint.record use.expected).dataType = match knownType? use with
      | some type => some (match constraint.dataType with
        | some existing => DataType.commonOrUnknown existing type
        | none => type)
      | none => constraint.dataType := rfl

/-- The type of a constraint after further uses. -/
theorem dataType_recordAll_some (uses : List ParameterUse) :
    ∀ {constraint : ParameterConstraint} {type : DataType},
    constraint.dataType = some type →
    (constraint.recordAll uses).dataType = some ((knownTypes uses).foldl merge type) := by
  induction uses with
  | nil => intro constraint type h; exact h
  | cons use uses ih =>
    intro constraint type h
    have hstep := record_knownType constraint use
    rw [h] at hstep
    cases hknown : knownType? use with
    | none =>
      rw [hknown] at hstep
      have hrest := ih hstep
      rw [knownTypes, List.filterMap_cons_none hknown]
      exact hrest
    | some next =>
      rw [hknown] at hstep
      have hrest := ih hstep
      rw [knownTypes, List.filterMap_cons_some hknown, List.foldl_cons,
        ← DataType.commonOrUnknown_eq_merge]
      exact hrest

/-- The type of a parameter after its uses: none, or what their types are merged to. -/
theorem dataType_recordAll_none (uses : List ParameterUse) : ∀ {constraint : ParameterConstraint},
    constraint.dataType = none →
    (constraint.recordAll uses).dataType =
      if knownTypes uses = [] then none else some (mergeAll (knownTypes uses)) := by
  induction uses with
  | nil => intro constraint h; exact h
  | cons use uses ih =>
    intro constraint h
    have hstep := record_knownType constraint use
    rw [h] at hstep
    cases hknown : knownType? use with
    | none =>
      rw [hknown] at hstep
      have hrest := ih hstep
      rw [knownTypes, List.filterMap_cons_none hknown]
      exact hrest
    | some next =>
      rw [hknown] at hstep
      have hrest := dataType_recordAll_some uses hstep
      rw [knownTypes, List.filterMap_cons_some hknown, if_neg (List.cons_ne_nil _ _), mergeAll,
        List.foldl_cons, bot_merge]
      exact hrest

/-- The nullabilities of two uses may be merged in any order. -/
theorem NullableConstraint.merge_right_comm (a b c : NullableConstraint) :
    (a.merge b).merge c = (a.merge c).merge b := by
  cases a <;> cases b <;> cases c <;> rfl

/-- The nullability after uses is that of all of them. -/
theorem nullable_recordAll (uses : List ParameterUse) : ∀ constraint : ParameterConstraint,
    (constraint.recordAll uses).nullable =
      uses.foldl (fun merged use => merged.merge use.expected.nullable) constraint.nullable := by
  induction uses with
  | nil => intro constraint; rfl
  | cons use uses ih => intro constraint; exact ih _

/-! ## Finalizing -/

/-- A constraint is open if its type or its nullability is. -/
theorem isEmpty_openErrors (constraint : ParameterConstraint) (reference : ParameterRef) :
    (constraint.openErrors reference).isEmpty =
      (constraint.resolvedType.isSome && constraint.nullable != .unknown) := by
  unfold ParameterConstraint.openErrors
  cases hresolved : constraint.resolvedType <;> cases hnullable : constraint.nullable <;> rfl

/-- Whether a parameter is finalized depends on the type and the nullability of its constraint. -/
theorem finalizeParameter_congr (parameters : QueryParameters) (reference : ParameterRef)
    {constraint constraint' : ParameterConstraint}
    (htype : constraint'.dataType = constraint.dataType)
    (hnullable : constraint'.nullable = constraint.nullable) :
    (finalizeParameter parameters reference constraint').2 =
      (finalizeParameter parameters reference constraint).2 := by
  have hresolved : constraint'.resolvedType = constraint.resolvedType := by
    rw [ParameterConstraint.resolvedType, htype, ParameterConstraint.resolvedType]
  simp only [finalizeParameter, isEmpty_openErrors, hresolved, hnullable]
  split
  · rfl
  · split
    · rfl
    · split <;> rfl

/-- A parameter without a resolved type is an error. -/
theorem finalizeParameter_unresolved (parameters : QueryParameters) (reference : ParameterRef)
    {constraint : ParameterConstraint} (h : constraint.resolvedType = none) :
    (finalizeParameter parameters reference constraint).2 = none := by
  simp [finalizeParameter, isEmpty_openErrors, h]

/-! ## Stability -/

/-- A known type is not the least. -/
theorem ne_bot_of_mem_knownTypes {uses : List ParameterUse} {type : DataType}
    (h : type ∈ knownTypes uses) :
    type ≠ ⊥ := by
  obtain ⟨use, -, hknown⟩ := List.mem_filterMap.mp h
  have hfilter := Option.filter_eq_some_iff.mp hknown
  rintro rfl
  simp [DataType.isUnknown, Bot.bot] at hfilter

/-- The constraint of a parameter after its uses, when it had none before. -/
theorem exists_constraintAfter {binder : Binder} {reference : ParameterRef}
    (h : binder.parameterConstraints.lookup reference = none) {uses : List ParameterUse}
    (hne : uses ≠ []) :
    ∃ constraint, constraintAfter binder reference uses = some constraint ∧
      constraint.dataType =
        (if knownTypes uses = [] then none else some (mergeAll (knownTypes uses))) ∧
      constraint.nullable = uses.foldl
        (fun merged use => merged.merge use.expected.nullable) .unknown := by
  cases uses with
  | nil => exact absurd rfl hne
  | cons use uses =>
    have hconstraint := constraintAfter_of_none h use uses
    have hfirst : (firstConstraint use.node).dataType = none := rfl
    have htype := dataType_recordAll_none (use :: uses) hfirst
    have hnullable := nullable_recordAll (use :: uses) (firstConstraint use.node)
    exact ⟨_, hconstraint, htype, hnullable⟩

/-- The types that the uses expect have common types with each other, or none do and their number is
even. -/
def TypesAgree (uses : List ParameterUse) : Prop :=
  (knownTypes uses).Pairwise (fun a b => (DataType.commonType a b).isSome) ∨
    (Even (knownTypes uses).length ∧ (knownTypes uses).Pairwise fun a b =>
      DataType.commonType a b = none)

/-- Types agree when every order of them gives the same. -/
theorem typesAgree_iff (uses : List ParameterUse) : TypesAgree uses ↔
    ∀ types : List DataType, types.Perm (knownTypes uses) →
    mergeAll types = mergeAll (knownTypes uses) := by
  rw [mergeAll_perm_iff DataType.Widens.total _ fun _ => ne_bot_of_mem_knownTypes]
  have hchain : (knownTypes uses).Pairwise (fun a b => (DataType.commonType a b).isSome) ↔
      Chain (knownTypes uses) := List.Pairwise.iff fun {a b} => DataType.isSome_commonType_iff a b
  have hanti : (knownTypes uses).Pairwise (fun a b => DataType.commonType a b = none) ↔
      Antichain (knownTypes uses) := by
    refine List.Pairwise.iff fun {a b} => ?_
    rw [← Option.not_isSome_iff_eq_none, DataType.isSome_commonType_iff]
  rw [TypesAgree, hchain, hanti]

/-- A list in another order is as empty. -/
theorem eq_nil_iff_of_perm {α : Type} {l l' : List α} (hp : l'.Perm l) : l' = [] ↔ l = [] := by
  rw [← List.length_eq_zero_iff, hp.length_eq, List.length_eq_zero_iff]

/-- Inference is stable exactly when the expected types have common types with each other, or none
do and their number is even. -/
theorem inference_stable_iff (parameters : QueryParameters) {binder : Binder}
    {reference : ParameterRef}
    (h : binder.parameterConstraints.lookup reference = none) (uses : List ParameterUse) :
    InferenceStable parameters binder reference uses ↔ TypesAgree uses := by
  by_cases hnil : uses = []
  · -- Without uses there is nothing to infer.
    subst hnil
    refine ⟨fun _ => .inl List.Pairwise.nil, fun _ => ⟨fun uses' hp => ?_, ?_⟩⟩
    · rw [hp.eq_nil]
    · rintro ⟨a, ha, -⟩
      cases ha
  obtain ⟨constraint, hconstraint, htype, hnullable⟩ := exists_constraintAfter h hnil
  have hother : ∀ {uses' : List ParameterUse}, uses'.Perm uses → uses' ≠ [] := by
    rintro uses' hp rfl
    exact hnil hp.symm.eq_nil
  constructor
  · intro hstable
    refine (typesAgree_iff uses).mpr fun types hp => ?_
    obtain ⟨uses', huses, rfl⟩ := exists_perm_filterMap hp
    obtain ⟨constraint', hconstraint', htype', -⟩ := exists_constraintAfter h (hother huses)
    have hsame := hstable.independent uses' huses
    rw [inferred, inferred, hconstraint, hconstraint', Option.map_some, Option.map_some,
      Option.some_inj, Prod.mk.injEq, htype, htype'] at hsame
    have hempty : knownTypes uses' = [] ↔ knownTypes uses = [] := eq_nil_iff_of_perm hp
    by_cases hknown : knownTypes uses = []
    · have hknown' := hempty.mpr hknown
      unfold knownTypes at hknown hknown'
      rw [knownTypes, hknown, hknown']
    · have hknown' := fun h => hknown (hempty.mp h)
      rw [if_neg hknown, if_neg hknown'] at hsame
      exact Option.some.inj hsame.1
  · intro hagree
    have hindependent := (typesAgree_iff uses).mp hagree
    refine ⟨fun uses' hp => ?_, ?_⟩
    · obtain ⟨constraint', hconstraint', htype', hnullable'⟩ := exists_constraintAfter h (hother hp)
      have hknown : (knownTypes uses').Perm (knownTypes uses) := hp.filterMap _
      have hempty : knownTypes uses' = [] ↔ knownTypes uses = [] := eq_nil_iff_of_perm hknown
      have hsame : constraint'.dataType = constraint.dataType := by
        rw [htype, htype', hindependent _ hknown]
        simp only [hempty]
      have hsame' : constraint'.nullable = constraint.nullable := by
        have hcomm : RightCommutative fun (merged : NullableConstraint) (use : ParameterUse) =>
            merged.merge use.expected.nullable :=
              ⟨fun _ _ _ => NullableConstraint.merge_right_comm _ _ _⟩
        rw [hnullable, hnullable']
        exact hp.foldl_eq _
      rw [inferred, inferred, hconstraint, hconstraint', Option.map_some, Option.map_some, hsame,
        hsame', finalizeParameter_congr parameters reference hsame hsame']
    · rintro ⟨a, ha, b, hb, hnone⟩ uses' hp constraint' hconstraint'
      obtain ⟨after, hafter, htype', -⟩ := exists_constraintAfter h (hother hp)
      rw [hafter] at hconstraint'
      cases hconstraint'
      have hknown : (knownTypes uses').Perm (knownTypes uses) := hp.filterMap _
      have hmem : a ∈ knownTypes uses' := hknown.mem_iff.mpr ha
      have hne : knownTypes uses' ≠ [] := List.ne_nil_of_mem hmem
      rw [if_neg hne, hindependent _ hknown] at htype'
      have hconflict : ¬ (a ≤ b ∨ b ≤ a) := by
        rw [← DataType.isSome_commonType_iff, hnone]
        exact Bool.false_ne_true
      have hshape := (mergeAll_perm_iff DataType.Widens.total _ fun _ =>
        ne_bot_of_mem_knownTypes).mp hindependent
      have hbot := mergeAll_eq_bot_of_conflict DataType.Widens.total hshape ha hb hconflict
      refine finalizeParameter_unresolved parameters reference ?_
      rw [ParameterConstraint.resolvedType, htype', hbot]
      rfl

/-- A use of the given type. -/
def useAs (type : DataType) : ParameterUse where
  expected := .sameAs type
  node := { span := none, nodeId := "p" }

/-- Uses as an `INT32` and as an `INT64` are stable. -/
theorem integers_stable :
    InferenceStable {} { nextAutoPosition := 1 } (.positional 1) [useAs .int32, useAs .int64] :=
  (inference_stable_iff {} rfl _).mpr (.inl (by decide))

/-- Uses as a Boolean, a text and an integer have no common type, yet they make an integer without
an error, and a Boolean in another order. -/
theorem conflicting_uses_unstable :
    inferred {} { nextAutoPosition := 1 } (.positional 1)
      [useAs .boolean, useAs .utf8, useAs .int64] =
        some (some .int64, .nonNull, true) ∧
      inferred {} { nextAutoPosition := 1 } (.positional 1)
        [useAs .int64, useAs .utf8, useAs .boolean] = some (some .boolean, .nonNull, true) ∧
      ¬ InferenceStable {} { nextAutoPosition := 1 } (.positional 1)
        [useAs .boolean, useAs .utf8, useAs .int64] := by
  refine ⟨rfl, rfl, fun h => ?_⟩
  have hperm : [useAs .int64, useAs .utf8, useAs .boolean].Perm
      [useAs .boolean, useAs .utf8, useAs .int64] :=
    List.reverse_perm [useAs .boolean, useAs .utf8, useAs .int64]
  have hsame := h.independent _ hperm
  cases hsame

end Bind

end QueryFabric
