import Mathlib.Data.List.Dedup
import Mathlib.Data.List.Perm.Basic

/-!
# Aggregates over parts of a table

`reduce` combines the values of a column that are there, and `count` counts them. Both can be taken
of the parts of a table first, and of what they give then (`reduce_reduces`, `reduce_counts`).
`groups` are the rows of each key, and `groups_partials` says that grouping the partial rows of each
part of a table comes to grouping the table.
-/

namespace Lib

/-! ## Columns -/

section Columns

variable {N : Type} (op : N → N → N)

/-- The values that are there, combined. -/
def reduce (values : List (Option N)) : Option N := values.foldr (Option.merge op) none

/-- The number of values that are there. -/
def count (values : List (Option N)) : Nat := values.countP Option.isSome

/-- No values reduce to none. -/
@[simp]
theorem reduce_nil : reduce op [] = none := rfl

/-- The first value is merged with what the rest reduce to. -/
@[simp]
theorem reduce_cons (value : Option N) (values : List (Option N)) :
    reduce op (value :: values) = Option.merge op value (reduce op values) := rfl

/-- Two lists of values reduce to the merge of what each reduces to. -/
theorem reduce_append [Std.Associative op] (xs ys : List (Option N)) :
    reduce op (xs ++ ys) = Option.merge op (reduce op xs) (reduce op ys) := by
  induction xs with
  | nil => simp
  | cons x xs ih =>
    have hassoc : Std.Associative (Option.merge op) := inferInstance
    rw [List.cons_append, reduce_cons, reduce_cons, ih, hassoc.assoc]

/-- A column is reduced part by part. -/
theorem reduce_reduces [Std.Associative op] (parts : List (List (Option N))) :
    reduce op (parts.map (reduce op)) = reduce op parts.flatten := by
  induction parts with
  | nil => rfl
  | cons part parts ih => rw [List.map_cons, reduce_cons, ih, List.flatten_cons, reduce_append]

/-- Permuted values reduce to the same. -/
theorem reduce_perm [Std.Associative op] [Std.Commutative op] {xs ys : List (Option N)}
    (h : xs.Perm ys) :
    reduce op xs = reduce op ys := by
  have hassoc : Std.Associative (Option.merge op) := inferInstance
  have hcomm : Std.Commutative (Option.merge op) := inferInstance
  have : LeftCommutative (Option.merge op) :=
    ⟨fun a b c => by rw [← hassoc.assoc, hcomm.comm a, hassoc.assoc]⟩
  exact h.foldr_eq none

/-- The counts of the parts of a column add up to its count. There has to be a part: no values have
no sum. -/
theorem reduce_counts {number : Nat → N}
    (hnumber : ∀ m n, op (number m) (number n) = number (m + n))
    {parts : List (List (Option N))} (h : parts ≠ []) :
    reduce op (parts.map fun part => some (number (count part))) =
      some (number (count parts.flatten)) := by
  induction parts with
  | nil => exact absurd rfl h
  | cons part parts ih =>
    rw [List.map_cons, reduce_cons, List.flatten_cons, count, count, List.countP_append]
    cases parts with
    | nil => simp
    | cons next parts =>
      rw [ih (List.cons_ne_nil next parts), Option.merge_some_some, hnumber, count]

/-- Permuted values have the same count. -/
theorem count_perm {xs ys : List (Option N)} (h : xs.Perm ys) : count xs = count ys := h.countP_eq _

end Columns

/-! ## Groups -/

section Groups

variable {ρ σ τ κ : Type} [DecidableEq κ] (key : ρ → κ)

/-- The rows of each key. -/
def groups (rows : List ρ) : List (List ρ) :=
  (rows.map key).dedup.map fun k => rows.filter fun row => key row = k

/-- Grouping is by the keys that rows share, whatever the keys are. -/
theorem groups_congr {κ' : Type} [DecidableEq κ'] {key' : ρ → κ'} {rows : List ρ}
    (h : ∀ a ∈ rows, ∀ b ∈ rows, key a = key b ↔ key' a = key' b) :
    groups key rows = groups key' rows := by
  -- The induction is on a part of the rows, with the two functions apart from it.
  have hdedup : ∀ (sub : List ρ) (f : κ → List ρ) (g : κ' → List ρ), (∀ row ∈ sub, row ∈ rows) →
      (∀ row ∈ sub, f (key row) = g (key' row)) →
          (sub.map key).dedup.map f = (sub.map key').dedup.map g := by
    intro sub f g hsub hfg
    induction sub with
    | nil => rfl
    | cons row sub ih =>
      rw [List.forall_mem_cons] at hsub hfg
      -- A row's key was seen before exactly when its other key was.
      have hmem : key row ∈ sub.map key ↔ key' row ∈ sub.map key' := by
        simp only [List.mem_map]
        exact exists_congr fun other => and_congr_right fun hother =>
          h other (hsub.2 other hother) row hsub.1
      rw [List.map_cons, List.map_cons]
      by_cases hseen : key row ∈ sub.map key
      · rw [List.dedup_cons_of_mem hseen, List.dedup_cons_of_mem (hmem.mp hseen)]
        exact ih hsub.2 hfg.2
      · rw [List.dedup_cons_of_notMem hseen, List.dedup_cons_of_notMem (mt hmem.mpr hseen),
          List.map_cons, List.map_cons, hfg.1, ih hsub.2 hfg.2]
  refine hdedup rows _ _ (fun row hrow => hrow) fun row hrow =>
    List.filter_congr fun other hother => ?_
  exact decide_eq_decide.mpr (h other hother row hrow)

/-- What is computed of each group in any order of its rows comes out whatever order the rows of the
table are in. -/
theorem groups_map_perm {whole : List ρ → τ}
    (hwhole : ∀ k xs ys, xs.Perm ys → (∀ row ∈ xs, key row = k) → whole xs = whole ys)
    {rows rows' : List ρ}
    (h : rows.Perm rows') : ((groups key rows).map whole).Perm ((groups key rows').map whole) := by
  rw [groups, groups, List.map_map, List.map_map]
  refine ((h.map key).dedup.map _).trans (List.Perm.of_eq (List.map_congr_left fun k _ => ?_))
  exact hwhole k _ _ (h.filter _) fun row hrow => of_decide_eq_true (List.mem_filter.mp hrow).2

/-- The deduplicated keys that equal a key are that key, where it occurs. -/
theorem filter_dedup_eq (k : κ) (keys : List κ) :
    keys.dedup.filter (fun k' => k' = k) = if k ∈ keys then [k] else [] := by
  have hcount : keys.dedup.filter (fun k' => k' = k) = List.replicate (keys.dedup.count k) k :=
    List.filter_eq ..
  rw [hcount, List.count_dedup]
  split <;> rfl

/-- The partial rows of a key, of a part of the table: one, if the part has rows of the key. -/
theorem filter_partials {partial_ : List ρ → σ} {key' : σ → κ}
    (hkey : ∀ k xs, xs ≠ [] → (∀ row ∈ xs, key row = k) → key' (partial_ xs) = k) (k : κ)
    (rows : List ρ) :
    ((groups key rows).map partial_).filter (fun row => key' row = k) =
      if k ∈ rows.map key then [partial_ (rows.filter fun row => key row = k)] else [] := by
  have hof : ∀ k' ∈ (rows.map key).dedup,
      key' (partial_ (rows.filter fun row => key row = k')) = k' := by
    intro k' hk'
    obtain ⟨row, hrow, hrowkey⟩ := List.mem_map.mp (List.mem_dedup.mp hk')
    refine hkey k' _ (List.ne_nil_of_mem (List.mem_filter.mpr ⟨hrow, decide_eq_true hrowkey⟩))
      fun other hother => ?_
    exact of_decide_eq_true (List.mem_filter.mp hother).2
  have hfilter : (rows.map key).dedup.filter
      (fun k' => decide (key' (partial_ (rows.filter fun row => key row = k')) = k)) =
      (rows.map key).dedup.filter fun k' => k' = k :=
    List.filter_congr fun k' hk' => by rw [hof k' hk']
  rw [groups, List.map_map, List.filter_map]
  simp only [Function.comp_def]
  rw [hfilter, filter_dedup_eq]
  split <;> rfl

/-- A key has no row where it is no row's key. -/
theorem filter_key_eq_nil_iff (k : κ) (rows : List ρ) :
    (rows.filter fun row => key row = k) = [] ↔ k ∉ rows.map key := by
  rw [List.filter_eq_nil_iff, List.mem_map, not_exists]
  simp only [decide_eq_true_eq, not_and]

/-- The partial rows of a key are those of the parts that have rows of the key. -/
theorem filter_flatMap_partials {partial_ : List ρ → σ} {key' : σ → κ}
    (hkey : ∀ k xs, xs ≠ [] → (∀ row ∈ xs, key row = k) → key' (partial_ xs) = k) (k : κ)
    (tables : List (List ρ)) :
    (tables.flatMap fun rows => (groups key rows).map partial_).filter (fun row => key' row = k) =
      ((tables.map fun rows => rows.filter fun row => key row = k).filter fun part =>
        !part.isEmpty).map partial_ := by
  induction tables with
  | nil => rfl
  | cons rows tables ih =>
    rw [List.flatMap_cons, List.filter_append, ih, filter_partials key hkey, List.map_cons,
      List.filter_cons]
    by_cases hk : k ∈ rows.map key
    · have hne : (rows.filter fun row => key row = k) ≠ [] :=
        fun h => (filter_key_eq_nil_iff key k rows).mp h hk
      rw [if_pos hk, if_pos (by simpa using hne)]
      rfl
    · rw [if_neg hk, (filter_key_eq_nil_iff key k rows).mpr hk]
      rfl

/-- The partial rows have the keys of the table. -/
theorem dedup_keys_partials {partial_ : List ρ → σ} {key' : σ → κ}
    (hkey : ∀ k xs, xs ≠ [] → (∀ row ∈ xs, key row = k) → key' (partial_ xs) = k)
    (tables : List (List ρ)) :
    ((tables.flatMap fun rows => (groups key rows).map partial_).map key').dedup.Perm
      (tables.flatten.map key).dedup := by
  refine (List.perm_ext_iff_of_nodup (List.nodup_dedup _) (List.nodup_dedup _)).mpr fun k => ?_
  -- A table's partial results have the keys of its rows.
  have hrows : ∀ rows, k ∈ ((groups key rows).map partial_).map key' ↔ k ∈ rows.map key := by
    intro rows
    have hne := filter_partials key hkey k rows
    constructor
    · intro hk
      obtain ⟨row, hrow, hrowkey⟩ := List.mem_map.mp hk
      by_contra hnot
      rw [if_neg hnot] at hne
      exact List.not_mem_nil (hne ▸ List.mem_filter.mpr ⟨hrow, decide_eq_true hrowkey⟩)
    · intro hk
      rw [if_pos hk] at hne
      have hrow := List.mem_filter.mp
        (hne ▸ List.mem_singleton_self (partial_ (rows.filter fun row => key row = k)))
      exact List.mem_map.mpr ⟨_, hrow.1, of_decide_eq_true hrow.2⟩
  rw [List.mem_dedup, List.mem_dedup, List.map_flatMap, List.map_flatten, List.mem_flatMap,
    List.mem_flatten]
  simp only [List.mem_map, exists_exists_and_eq_and] at hrows ⊢
  exact exists_congr fun rows => and_congr_right fun _ => hrows rows

/-- Grouping the partial rows of each part of a table, and merging them, is grouping the table. -/
theorem groups_partials {partial_ : List ρ → σ} {key' : σ → κ} {merge : List σ → τ}
    {whole : List ρ → τ}
    (hkey : ∀ k xs, xs ≠ [] → (∀ row ∈ xs, key row = k) → key' (partial_ xs) = k)
    (hmerge : ∀ k parts, parts ≠ [] → (∀ part ∈ parts, part ≠ [] ∧ ∀ row ∈ part, key row = k) →
      merge (parts.map partial_) = whole parts.flatten) (tables : List (List ρ)) :
    ((groups key' (tables.flatMap fun rows => (groups key rows).map partial_)).map merge).Perm
      ((groups key tables.flatten).map whole) := by
  rw [groups, groups, List.map_map, List.map_map]
  refine ((dedup_keys_partials key hkey tables).map _).trans
    (List.Perm.of_eq (List.map_congr_left fun k hk => ?_))
  -- the parts of the table that have rows of the key
  have hrows : ∀ part ∈ (tables.map fun rows => rows.filter fun row =>
    key row = k).filter fun part => !part.isEmpty,
      part ≠ [] ∧ ∀ row ∈ part, key row = k := by
    intro part hpart
    obtain ⟨hpart, hne⟩ := List.mem_filter.mp hpart
    obtain ⟨rows, _, rfl⟩ := List.mem_map.mp hpart
    exact ⟨by simpa using hne, fun row hrow => of_decide_eq_true (List.mem_filter.mp hrow).2⟩
  have hne : ((tables.map fun rows => rows.filter fun row => key row = k).filter fun part =>
      !part.isEmpty) ≠ [] := by
    obtain ⟨row, hrow, hrowkey⟩ := List.mem_map.mp (List.mem_dedup.mp hk)
    obtain ⟨rows, hmem, hrow⟩ := List.mem_flatten.mp hrow
    refine List.ne_nil_of_mem (List.mem_filter.mpr ⟨List.mem_map_of_mem hmem, ?_⟩)
    simpa using ⟨row, hrow, hrowkey⟩
  rw [Function.comp_apply, Function.comp_apply, filter_flatMap_partials key hkey,
    hmerge k _ hne hrows, List.flatten_filter_not_isEmpty, List.filter_flatten]

end Groups

end Lib
