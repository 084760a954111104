import QueryFabric.Bind.Scope
import QueryFabric.Lib.EditDistance

/-!
# Suggestions

`levenshtein` and `top_similar` of `crates/queryfabric-catalog/src/bind/suggest.rs`. A row of the
table holds the distances of a prefix of the one text to the prefixes of the other, and the next row
is found from it (`levenshteinRow_eq`). The last entry of the last row is the edit distance
(`levenshtein_eq`).
-/

namespace QueryFabric.Bind

open Lib (editDistance Edits)

/-! ## The table -/

/-- The distances of a text to those that add a part of another to `before`, character by
character. -/
def prefixDistances (as before : List Char) : List Char → List Nat
  | [] => []
  | b :: bs => editDistance as (before ++ [b]) :: prefixDistances as (before ++ [b]) bs

/-- The first row. -/
theorem prefixDistances_nil : ∀ before bs : List Char,
    prefixDistances [] before bs = List.range' (before.length + 1) bs.length
  | _, [] => rfl
  | before, b :: bs => by
    have ih := prefixDistances_nil (before ++ [b]) bs
    rw [List.length_append, List.length_singleton] at ih
    rw [prefixDistances, ih, Lib.editDistance_nil_left, List.length_append, List.length_singleton,
      List.length_cons, List.range'_succ]

/-- From the row of a text the next one is that of the text with one more character. -/
theorem levenshteinRow_eq (c : Char) (as : List Char) : ∀ before bs : List Char,
    levenshteinRow c (editDistance (as ++ [c]) before)
      (editDistance as before) bs (prefixDistances as before bs) =
      prefixDistances (as ++ [c]) before bs
  | _, [] => rfl
  | before, b :: bs => by
    have ih := levenshteinRow_eq c as (before ++ [b]) bs
    rw [prefixDistances, prefixDistances, levenshteinRow, ← Lib.editDistance_concat_concat, ih]

/-- The last row is that of the whole text. -/
theorem levenshteinRows_eq (bs : List Char) : ∀ rest as : List Char,
    levenshteinRows bs rest as.length (prefixDistances as [] bs) =
      (as ++ rest).length :: prefixDistances (as ++ rest) [] bs
  | [], as => by rw [List.append_nil, levenshteinRows]
  | c :: rest, as => by
    have hrow := levenshteinRow_eq c as [] bs
    have ih := levenshteinRows_eq bs rest (as ++ [c])
    rw [Lib.editDistance_nil_right, Lib.editDistance_nil_right, List.length_append,
      List.length_singleton] at hrow
    rw [List.length_append, List.length_singleton, ← List.append_cons] at ih
    rw [levenshteinRows, hrow, ih]

/-- The last entry of a row is the distance to the whole text. -/
theorem getLastD_prefixDistances (as : List Char) : ∀ before bs : List Char,
    (editDistance as before :: prefixDistances as before bs).getLastD 0 =
      editDistance as (before ++ bs)
  | before, [] => by
    rw [List.append_nil]
    rfl
  | before, b :: bs => by
    have ih := getLastD_prefixDistances as (before ++ [b]) bs
    rw [← List.append_cons] at ih
    exact ih

/-- The characters that are compared. -/
def lowercased (toLowercase : Char → List Char) (text : String) : List Char :=
  text.toList.flatMap toLowercase

variable (toLowercase : Char → List Char)

/-- The loop computes the edit distance. -/
theorem levenshtein_eq (a b : String) :
    levenshtein toLowercase a b =
      editDistance (lowercased toLowercase a) (lowercased toLowercase b) := by
  unfold levenshtein lowercased
  generalize a.toList.flatMap toLowercase = as
  generalize b.toList.flatMap toLowercase = bs
  dsimp only
  split_ifs with has hbs
  · rw [List.isEmpty_iff.mp has, Lib.editDistance_nil_left]
  · rw [List.isEmpty_iff.mp hbs, Lib.editDistance_nil_right]
  · have hrows := levenshteinRows_eq bs as []
    rw [prefixDistances_nil, List.nil_append] at hrows
    have hlast := getLastD_prefixDistances as [] bs
    rw [Lib.editDistance_nil_right, List.nil_append] at hlast
    exact (congrArg (List.getLastD · 0) hrows).trans hlast

/-! ## The suggestions -/

/-- The options that are suggested, with their distances. -/
def scoredOptions (query : String) (options : List String) (n : Nat) : List (Nat × String) :=
  (((options.map fun option => (levenshtein toLowercase query option, option)).filter
    fun scored => scored.1 ≤ max (query.toList.length / 3) 2).insertionSort similarLe).take n

/-- The suggestions are those of the scored options. -/
theorem topSimilar_eq (query : String) (options : List String) (n : Nat) :
    topSimilar toLowercase query options n =
      (scoredOptions toLowercase query options n).map Prod.snd := rfl

variable {toLowercase} {query : String} {options : List String} {n : Nat}

/-- A scored option is one of the options, close enough. -/
theorem of_mem_scoredOptions {scored : Nat × String}
    (h : scored ∈ scoredOptions toLowercase query options n) :
    scored.2 ∈ options ∧ scored.1 = levenshtein toLowercase query scored.2 ∧
      scored.1 ≤ max (query.toList.length / 3) 2 := by
  have hfiltered := (List.mem_insertionSort similarLe).mp (List.mem_of_mem_take h)
  obtain ⟨hscored, hle⟩ := List.mem_filter.mp hfiltered
  obtain ⟨option, hoption, rfl⟩ := List.mem_map.mp hscored
  exact ⟨hoption, rfl, of_decide_eq_true hle⟩

/-- A suggestion is one of the options, close enough. -/
theorem of_mem_topSimilar {option : String} (h : option ∈ topSimilar toLowercase query options n) :
    option ∈ options ∧ levenshtein toLowercase query option ≤ max (query.toList.length / 3) 2 := by
  rw [topSimilar_eq] at h
  obtain ⟨scored, hscored, rfl⟩ := List.mem_map.mp h
  obtain ⟨hoption, hdistance, hle⟩ := of_mem_scoredOptions hscored
  exact ⟨hoption, hdistance ▸ hle⟩

/-- The closest suggestions come first. -/
theorem pairwise_topSimilar : (topSimilar toLowercase query options n).Pairwise fun option later =>
    levenshtein toLowercase query option ≤ levenshtein toLowercase query later := by
  have : Std.Total similarLe := ⟨fun a b => by unfold similarLe; omega⟩
  have : IsTrans (Nat × String) similarLe := ⟨fun a b c hab hbc => by unfold similarLe at *; omega⟩
  have hsorted : (scoredOptions toLowercase query options n).Pairwise similarLe :=
    (List.pairwise_insertionSort similarLe _).take
  rw [topSimilar_eq, List.pairwise_map]
  refine hsorted.imp_of_mem fun {scored later} hscored hlater hle => ?_
  rw [← (of_mem_scoredOptions hscored).2.1, ← (of_mem_scoredOptions hlater).2.1]
  obtain hlt | ⟨heq, -⟩ := hle
  · exact Nat.le_of_lt hlt
  · exact Nat.le_of_eq heq

/-- There are at most `n` suggestions. -/
theorem length_topSimilar_le : (topSimilar toLowercase query options n).length ≤ n := by
  rw [topSimilar_eq, List.length_map]
  exact List.length_take_le n _

/-- `levenshtein` is the least number of edits between the texts in lower case, and what
`top_similar` suggests are options no further from the query than its threshold, the nearer ones
first, and no more than were asked for. -/
theorem suggestions_exact (toLowercase : Char → List Char) :
    (∀ a b : String,
      IsLeast {count | Edits count (lowercased toLowercase a) (lowercased toLowercase b)}
      (levenshtein toLowercase a b)) ∧
      ∀ (query : String) (options : List String) (n : Nat),
        (∀ option ∈ topSimilar toLowercase query options n,
          option ∈ options ∧ levenshtein toLowercase query option ≤
            max (query.toList.length / 3) 2) ∧
          ((topSimilar toLowercase query options n).Pairwise fun option later =>
            levenshtein toLowercase query option ≤ levenshtein toLowercase query later) ∧
            (topSimilar toLowercase query options n).length ≤ n := by
  refine ⟨fun a b => ?_, fun query options n =>
    ⟨fun option h => of_mem_topSimilar h, pairwise_topSimilar,
    length_topSimilar_le⟩⟩
  rw [levenshtein_eq]
  exact Lib.isLeast_editDistance _ _

/-- Two substitutions and a deletion. -/
example : levenshtein (fun c => [c.toLower]) "Sitting" "kitten" = 3 := by decide +kernel

example : topSimilar (fun c => [c.toLower]) "celle_type" ["cell_type", "score", "volume"] 3 =
    ["cell_type"] := by
  decide +kernel

end QueryFabric.Bind
