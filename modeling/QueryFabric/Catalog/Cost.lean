import QueryFabric.Catalog.Features
import QueryFabric.Catalog.Memory
import QueryFabric.Lib.Saturating
import Mathlib.Data.List.Forall2

/-!
# The default cost model

`DefaultQueryCostModel` of `crates/queryfabric-catalog/src/model.rs`. It estimates the rows and
bytes of a query from the statistics of its relations, and how the result is delivered from those
and the limits of the backend.

The estimates grow with the rows of the relations as long as their sum fits into 64 bits
(`costMonotone_iff`): it is the one operation on 64 bits that does not saturate.
-/

namespace QueryFabric

open Lib

/-- `ResultDeliveryMode`. -/
inductive ResultDeliveryMode
  | interactiveStream
  | pagedResult
  | asyncMaterializedExport
  | rejectedOverBudget
deriving DecidableEq, Repr

/-- How restrictive a mode is. -/
def ResultDeliveryMode.restriction : ResultDeliveryMode → Nat
  | interactiveStream => 0
  | pagedResult => 1
  | asyncMaterializedExport => 2
  | rejectedOverBudget => 3

/-- `QueryTimeoutClass`. -/
inductive QueryTimeoutClass
  | interactive
  | batch
  | export_
deriving DecidableEq, Repr

/-- The limits that the cost model goes by. -/
structure BackendExecutionLimits where
  maxRows : Option UInt64 := none
  maxBytesScanned : Option UInt64 := none
  interactiveByteLimit : UInt64 := 512 * 1024 * 1024
  batchByteLimit : UInt64 := 16 * 1024 * 1024 * 1024
deriving DecidableEq, Repr

/-- The input of a cost model; of the capabilities of the backend it has the limits. -/
structure QueryCostInput where
  planFeatures : PlanFeatures := {}
  relations : List RelationStatistics := []
  selectedColumns : UInt32 := 16
  rowLimit : Option UInt64 := none
  estimatedFilterSelectivityPpm : UInt32 := 1000000
  defaultRowBytes : UInt64 := 64
  defaultShards : UInt32 := 1
  limits : Option BackendExecutionLimits := none
deriving DecidableEq, Repr

/-- `QueryCostEstimate`. -/
structure QueryCostEstimate where
  estimatedRows : UInt64
  estimatedBytes : UInt64
  estimatedShards : UInt32
  timeoutClass : QueryTimeoutClass
  executionMode : ResultDeliveryMode
  asyncRequired : Bool
  diagnostics : List String := []
deriving DecidableEq, Repr

/-- The timeout class by the byte limits. -/
def classifyTimeout (estimatedBytes interactiveByteLimit exportByteLimit : UInt64) :
    QueryTimeoutClass :=
  if estimatedBytes ≤ interactiveByteLimit then .interactive
  else if estimatedBytes ≤ exportByteLimit then .batch
  else .export_

/-- The delivery mode of a timeout class. -/
def QueryTimeoutClass.executionMode : QueryTimeoutClass → ResultDeliveryMode
  | interactive => .interactiveStream
  | batch => .pagedResult
  | export_ => .asyncMaterializedExport

/-- `QueryCostEstimate::classify`. -/
def QueryCostEstimate.classify (estimatedRows estimatedBytes : UInt64) (estimatedShards : UInt32)
    (interactiveByteLimit exportByteLimit : UInt64) : QueryCostEstimate :=
  let timeoutClass := classifyTimeout estimatedBytes interactiveByteLimit exportByteLimit
  { estimatedRows, estimatedBytes, estimatedShards, timeoutClass
    executionMode := timeoutClass.executionMode
    asyncRequired := timeoutClass ≠ .interactive }

namespace QueryCostInput

variable (input : QueryCostInput)

/-- The rows of the relations, and at least the row limit. -/
def relationRows : UInt64 :=
  max (wordSum (input.relations.map RelationStatistics.estimatedRows)) (input.rowLimit.getD 1000000)

/-- The bytes of the widest row. -/
def averageRowBytes : UInt64 :=
  max ((input.relations.map RelationStatistics.averageRowBytes).max?.getD input.defaultRowBytes) 1

/-- The rows that pass the filters. -/
def estimatedRows : UInt64 :=
  let selectivityPpm := (min (max input.estimatedFilterSelectivityPpm 1) 1000000).toUInt64
  let estimatedRows := saturatingMul64 input.relationRows selectivityPpm / 1000000
  let estimatedRows := match input.rowLimit with
    | some limit => min estimatedRows limit
    | none => estimatedRows
  max estimatedRows 1

/-- The estimated bytes of the result. -/
def estimatedBytes : UInt64 :=
  let selectedColumns := (max input.selectedColumns 1).toUInt64
  saturatingMul64 (saturatingMul64 input.estimatedRows selectedColumns) input.averageRowBytes

/-- The estimated shards: the greatest number of those known, at least one. -/
def estimatedShards : UInt32 :=
  max ((input.relations.filterMap RelationStatistics.shardCount).max?.getD input.defaultShards) 1

end QueryCostInput

/-- A plan with joins or windows is not run interactively. -/
def QueryCostEstimate.conservative (estimate : QueryCostEstimate) (features : PlanFeatures) :
    QueryCostEstimate :=
  if features.hasJoins || features.hasWindows then
    let estimate := { estimate with diagnostics := estimate.diagnostics ++
      ["plan contains joins/windows; interactive execution should be treated conservatively"] }
    if estimate.timeoutClass = .interactive then
      { estimate with timeoutClass := .batch, executionMode := .pagedResult, asyncRequired := true }
    else estimate
  else estimate

/-- Whether an estimate is over the limits of the backend. -/
def BackendExecutionLimits.isOver (limits : BackendExecutionLimits) (rows bytes : UInt64) : Bool :=
  limits.maxBytesScanned.any (fun limit => decide (limit < bytes)) ||
    limits.maxRows.any fun limit => decide (limit < rows)

/-- `DefaultQueryCostModel::estimate`. -/
def estimateQueryCost (input : QueryCostInput) : QueryCostEstimate :=
  let limits := input.limits.getD {}
  let estimate :=
    (QueryCostEstimate.classify input.estimatedRows input.estimatedBytes input.estimatedShards
    limits.interactiveByteLimit limits.batchByteLimit).conservative input.planFeatures
  if limits.isOver input.estimatedRows input.estimatedBytes then
    { estimate with
      executionMode := .rejectedOverBudget, asyncRequired := true
      diagnostics := estimate.diagnostics ++ ["estimated query exceeds backend execution limits"] }
  else estimate

/-! ## Monotonicity -/

/-- The rows of a relation grow, and its rows do not get narrower. -/
def Grows (relation relation' : RelationStatistics) : Prop :=
  relation.estimatedRows ≤ relation'.estimatedRows ∧
    relation.averageRowBytes ≤ relation'.averageRowBytes

/-- The rows of the relations of a query. -/
def QueryCostInput.rows (input : QueryCostInput) : List UInt64 :=
  input.relations.map RelationStatistics.estimatedRows

/-- The estimates do not decrease from one input to the other, nor does the mode get less
restrictive, and neither sum of rows wraps around. -/
structure CostMonotone (input input' : QueryCostInput) : Prop where
  sum : (wordSum input.rows).toNat = valueSum input.rows
  sum' : (wordSum input'.rows).toNat = valueSum input'.rows
  rows : (estimateQueryCost input).estimatedRows ≤ (estimateQueryCost input').estimatedRows
  bytes : (estimateQueryCost input).estimatedBytes ≤ (estimateQueryCost input').estimatedBytes
  mode : (estimateQueryCost input).executionMode.restriction ≤
    (estimateQueryCost input').executionMode.restriction

/-- The conservative estimate has the rows, bytes and shards of the estimate. -/
theorem conservative_rows (estimate : QueryCostEstimate) (features : PlanFeatures) :
    (estimate.conservative features).estimatedRows = estimate.estimatedRows ∧
      (estimate.conservative features).estimatedBytes = estimate.estimatedBytes := by
  unfold QueryCostEstimate.conservative
  dsimp only
  split_ifs <;> exact ⟨rfl, rfl⟩

/-- The rows and bytes of the estimate. -/
theorem estimateQueryCost_rows (input : QueryCostInput) :
    (estimateQueryCost input).estimatedRows = input.estimatedRows ∧
      (estimateQueryCost input).estimatedBytes = input.estimatedBytes := by
  unfold estimateQueryCost
  dsimp only
  split_ifs
  · exact conservative_rows _ _
  · exact conservative_rows _ _

/-- How restrictive the mode is, by the timeout class and whether the limits are exceeded. -/
def restrictionOf (class_ : QueryTimeoutClass) (conservative exceeded : Bool) : Nat :=
  if exceeded then 3 else max class_.executionMode.restriction (if conservative then 1 else 0)

/-- The execution mode of an estimate is at least that of its bytes. -/
theorem restriction_estimateQueryCost (input : QueryCostInput) :
    (estimateQueryCost input).executionMode.restriction =
      restrictionOf
        (classifyTimeout input.estimatedBytes (input.limits.getD {}).interactiveByteLimit
          (input.limits.getD {}).batchByteLimit)
        (input.planFeatures.hasJoins || input.planFeatures.hasWindows)
        ((input.limits.getD {}).isOver input.estimatedRows input.estimatedBytes) := by
  unfold estimateQueryCost restrictionOf QueryCostEstimate.conservative QueryCostEstimate.classify
  dsimp only
  generalize classifyTimeout _ _ _ = class_
  split_ifs
  all_goals cases class_ <;> first | rfl | contradiction

/-- More bytes restrict no less. -/
theorem classifyTimeout_restriction_le {bytes bytes' : UInt64} (h : bytes ≤ bytes')
    (interactive batch : UInt64) :
    (classifyTimeout bytes interactive batch).executionMode.restriction ≤
      (classifyTimeout bytes' interactive batch).executionMode.restriction := by
  rw [UInt64.le_iff_toNat_le] at h
  unfold classifyTimeout
  simp only [UInt64.le_iff_toNat_le]
  split_ifs <;> first | decide | omega

/-- More rows and bytes are over the limits when fewer are. -/
theorem BackendExecutionLimits.isOver_mono (limits : BackendExecutionLimits)
    {rows rows' bytes bytes' : UInt64}
    (hrows : rows ≤ rows') (hbytes : bytes ≤ bytes') (h : limits.isOver rows bytes = true) :
    limits.isOver rows' bytes' = true := by
  unfold isOver at h ⊢
  rw [Bool.or_eq_true, Option.any_eq_true, Option.any_eq_true] at h ⊢
  simp only [decide_eq_true_eq] at h ⊢
  obtain ⟨limit, hlimit, hlt⟩ | ⟨limit, hlimit, hlt⟩ := h
  · exact .inl ⟨limit, hlimit, UInt64.lt_of_lt_of_le hlt hbytes⟩
  · exact .inr ⟨limit, hlimit, UInt64.lt_of_lt_of_le hlt hrows⟩

/-- The mode does not get less restrictive with more rows and bytes. -/
theorem restrictionOf_le {class_ class' : QueryTimeoutClass}
    {conservative exceeded exceeded' : Bool}
    (hclass : class_.executionMode.restriction ≤ class'.executionMode.restriction)
    (hexceeded : exceeded = true → exceeded' = true) :
    restrictionOf class_ conservative exceeded ≤ restrictionOf class' conservative exceeded' := by
  unfold restrictionOf
  cases exceeded with
  | true =>
    rw [hexceeded rfl]
    exact Nat.le_refl 3
  | false =>
    cases exceeded' with
    | true =>
      rw [if_neg Bool.false_ne_true, if_pos rfl]
      cases class_ <;> cases conservative <;> decide
    | false =>
      rw [if_neg Bool.false_ne_true, if_neg Bool.false_ne_true]
      exact max_le_max_right _ hclass

section Growth

variable {input : QueryCostInput} {relations : List RelationStatistics}

/-- The rows of grown relations have grown. -/
theorem rows_grow (h : List.Forall₂ Grows input.relations relations) :
    List.Forall₂ (· ≤ ·) input.rows (relations.map RelationStatistics.estimatedRows) :=
  List.forall₂_map_left_iff.mpr (List.forall₂_map_right_iff.mpr (h.imp fun _ _ hgrow => hgrow.1))

/-- Without wrapping around the rows of the relations grow. -/
theorem relationRows_le (h : List.Forall₂ Grows input.relations relations)
    (hfits : valueSum (relations.map RelationStatistics.estimatedRows) < 2 ^ 64) :
    input.relationRows.toNat ≤ { input with relations }.relationRows.toNat := by
  have hle := valueSum_le_valueSum (rows_grow h)
  have hsum := (toNat_wordSum_eq_iff input.rows).mpr (by omega)
  have hsum' := (toNat_wordSum_eq_iff _).mpr hfits
  unfold QueryCostInput.relationRows
  rw [toNat_max64, toNat_max64, hsum']
  refine max_le_max_right _ ?_
  rw [← hsum] at hle
  exact hle

/-- A greatest number grows with the numbers. -/
theorem foldl_max_le {words words' : List UInt64} (h : List.Forall₂ (· ≤ ·) words words')
    {a b : UInt64} (hab : a ≤ b) :
    words.foldl max a ≤ words'.foldl max b := by
  induction h generalizing a b with
  | nil => exact hab
  | cons hle h ih =>
    refine ih ?_
    rw [UInt64.le_iff_toNat_le] at hab hle ⊢
    rw [toNat_max64, toNat_max64]
    exact max_le_max hab hle

/-- The widest row does not get narrower. -/
theorem averageRowBytes_le (h : List.Forall₂ Grows input.relations relations) :
    input.averageRowBytes.toNat ≤ { input with relations }.averageRowBytes.toNat := by
  have hwidths : List.Forall₂ (· ≤ ·) (input.relations.map RelationStatistics.averageRowBytes)
      (relations.map RelationStatistics.averageRowBytes) :=
    List.forall₂_map_left_iff.mpr (List.forall₂_map_right_iff.mpr (h.imp fun _ _ hgrow => hgrow.2))
  unfold QueryCostInput.averageRowBytes
  rw [toNat_max64, toNat_max64]
  refine max_le_max_right _ ?_
  generalize input.relations.map RelationStatistics.averageRowBytes = widths at hwidths
  dsimp only
  generalize relations.map RelationStatistics.averageRowBytes = widths' at hwidths
  cases hwidths with
  | nil => exact Nat.le_refl _
  | cons hle hrest =>
    rw [List.max?_cons', List.max?_cons']
    exact UInt64.le_iff_toNat_le.mp (foldl_max_le hrest hle)

/-- The rows that pass the filters grow. -/
theorem estimatedRows_le (h : List.Forall₂ Grows input.relations relations)
    (hfits : valueSum (relations.map RelationStatistics.estimatedRows) < 2 ^ 64) :
    input.estimatedRows.toNat ≤ { input with relations }.estimatedRows.toNat := by
  have hrows := relationRows_le h hfits
  unfold QueryCostInput.estimatedRows
  dsimp only
  generalize (min (max input.estimatedFilterSelectivityPpm 1) 1000000).toUInt64 = selectivity
  generalize input.relationRows = rows at hrows ⊢
  generalize { input with relations }.relationRows = rows' at hrows ⊢
  have hscaled : (saturatingMul64 rows selectivity / 1000000).toNat ≤
      (saturatingMul64 rows' selectivity / 1000000).toNat := by
    have hmul := Nat.mul_le_mul_right selectivity.toNat hrows
    rw [UInt64.toNat_div, UInt64.toNat_div, toNat_saturatingMul64, toNat_saturatingMul64]
    exact Nat.div_le_div_right (min_le_min_right _ hmul)
  rw [toNat_max64, toNat_max64]
  refine max_le_max_right _ ?_
  cases input.rowLimit with
  | none => exact hscaled
  | some limit =>
    dsimp only
    rw [toNat_min64, toNat_min64]
    exact min_le_min_right _ hscaled

/-- The bytes grow. -/
theorem estimatedBytes_le (h : List.Forall₂ Grows input.relations relations)
    (hfits : valueSum (relations.map RelationStatistics.estimatedRows) < 2 ^ 64) :
    input.estimatedBytes.toNat ≤ { input with relations }.estimatedBytes.toNat := by
  have hrows := estimatedRows_le h hfits
  have hwidth := averageRowBytes_le h
  unfold QueryCostInput.estimatedBytes
  simp only [toNat_saturatingMul64]
  refine min_le_min_right _ (Nat.mul_le_mul ?_ hwidth)
  exact min_le_min_right _ (Nat.mul_le_mul_right _ hrows)

/-- The estimates grow with the rows of the relations, without wrapping around, exactly when the sum
of the larger rows fits into 64 bits. -/
theorem costMonotone_iff (h : List.Forall₂ Grows input.relations relations) :
    CostMonotone input { input with relations } ↔
      valueSum (relations.map RelationStatistics.estimatedRows) < 2 ^ 64 := by
  constructor
  · exact fun hmono => (toNat_wordSum_eq_iff _).mp hmono.sum'
  · intro hfits
    have hle := valueSum_le_valueSum (rows_grow h)
    have hrows := UInt64.le_iff_toNat_le.mpr (estimatedRows_le h hfits)
    have hbytes := UInt64.le_iff_toNat_le.mpr (estimatedBytes_le h hfits)
    obtain ⟨hr, hb⟩ := estimateQueryCost_rows input
    obtain ⟨hr', hb'⟩ := estimateQueryCost_rows { input with relations }
    refine ⟨(toNat_wordSum_eq_iff _).mpr (by omega), (toNat_wordSum_eq_iff _).mpr hfits, ?_, ?_, ?_⟩
    · rw [hr, hr']
      exact hrows
    · rw [hb, hb']
      exact hbytes
    · rw [restriction_estimateQueryCost, restriction_estimateQueryCost]
      exact restrictionOf_le (classifyTimeout_restriction_le hbytes _ _)
        (BackendExecutionLimits.isOver_mono _ hrows hbytes)

end Growth

/-- The statistics of a relation with so many rows of one byte. -/
def relationOfRows (estimatedRows : UInt64) : RelationStatistics :=
  { relation := "t", estimatedRows, averageRowBytes := 1, shardCount := none }

/-- The last relation's rows grow up to the bound, and the second one's rows are wider. -/
theorem costMonotone_rows : CostMonotone
    { relations := [relationOfRows 10, relationOfRows 0, relationOfRows 0x7fffffffffffffff] }
    { relations := [relationOfRows 11, { relationOfRows 0 with averageRowBytes := 900 },
      relationOfRows 0xfffffffffffffff4] } :=
  (costMonotone_iff (.cons ⟨by decide, by decide⟩
    (.cons ⟨by decide, by decide⟩ (.cons ⟨by decide, by decide⟩ .nil)))).mpr (by decide)

/-- One row more makes the sum of the rows wrap around to none. -/
theorem not_costMonotone_wrap : ¬CostMonotone
    { relations := [relationOfRows 0x8000000000000000, relationOfRows 0x7fffffffffffffff] }
    { relations := [relationOfRows 0x8000000000000000, relationOfRows 0x8000000000000000] } :=
  fun h =>
  absurd h.rows (by decide +kernel)

end QueryFabric
