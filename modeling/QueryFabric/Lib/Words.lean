import Mathlib.Data.List.DropRight

/-!
# Words with a separator between them

The words of a list are the runs of its elements that are kept. `collapse` puts one separator for
each run of the other elements, and `trim_collapse` says that what is between the outer separators
are the words with separators between them. Lists that are joined with a separator are told apart by
the pieces between the separators (`append_sep_eq_iff`).
-/

namespace Lib

variable {α : Type} {keep : α → Bool} {sep : α}

/-! ## Words -/

/-- The runs of elements that are kept. -/
def words (keep : α → Bool) (l : List α) : List (List α) :=
  (l.splitOnP fun a => !keep a).filter fun word => !word.isEmpty

/-- A list of elements that are kept. -/
def IsWord (keep : α → Bool) (word : List α) : Prop := word ≠ [] ∧ ∀ a ∈ word, keep a = true

/-- The elements of a piece between breaks are kept ones. -/
theorem keep_of_mem_splitOnP {piece l : List α} (h : piece ∈ l.splitOnP fun a => !keep a) :
    ∀ a ∈ piece, keep a = true := by
  induction l generalizing piece with
  | nil =>
    rw [List.splitOnP_nil, List.mem_singleton] at h
    subst h
    exact List.forall_mem_nil _
  | cons a l ih =>
    rw [List.splitOnP_cons_eq_if_modifyHead] at h
    split at h
    · obtain rfl | h := List.mem_cons.mp h
      · exact List.forall_mem_nil _
      · exact ih h
    · rename_i ha
      obtain ⟨first, rest, hsplit⟩ :=
        List.exists_cons_of_ne_nil (List.splitOnP_ne_nil (fun a => !keep a) l)
      rw [hsplit] at h ih
      obtain rfl | h := List.mem_cons.mp h
      · exact List.forall_mem_cons.mpr ⟨by simpa using ha, ih List.mem_cons_self⟩
      · exact ih (List.mem_cons_of_mem _ h)

/-- The words of a list are words. -/
theorem isWord_words (l : List α) : ∀ word ∈ words keep l, IsWord keep word := by
  intro word hword
  obtain ⟨hpiece, hne⟩ := List.mem_filter.mp hword
  exact ⟨by simpa using hne, keep_of_mem_splitOnP hpiece⟩

/-- A break at the front adds no word. -/
theorem words_cons_of_neg {a : α} (ha : keep a = false) (l : List α) :
    words keep (a :: l) = words keep l := by
  simp [words, List.splitOnP_cons_eq_if_modifyHead, ha]

/-- A list with a kept element has a word. -/
theorem words_ne_nil {l : List α} {a : α} (hmem : a ∈ l) (ha : keep a = true) :
    words keep l ≠ [] := by
  induction l with
  | nil => cases hmem
  | cons b l ih =>
    cases hb : keep b with
    | true =>
      obtain ⟨first, rest, hsplit⟩ :=
        List.exists_cons_of_ne_nil (List.splitOnP_ne_nil (fun a => !keep a) l)
      simp [words, List.splitOnP_cons_eq_if_modifyHead, hb, hsplit]
    | false =>
      have hmem : a ∈ l := (List.mem_cons.mp hmem).resolve_left fun heq => by simp [← heq, ha] at hb
      rw [words_cons_of_neg hb]
      exact ih hmem

/-- A word has one word, itself. -/
theorem IsWord.words_eq {word : List α} (h : IsWord keep word) : words keep word = [word] := by
  have hpieces : word.splitOnP (fun a => !keep a) = [word] :=
    List.splitOnP_eq_singleton fun a ha => by simp [h.2 a ha]
  simp [words, hpieces, h.1]

/-- A word before a break is the first word. -/
theorem IsWord.words_append_cons {word : List α} (h : IsWord keep word) {a : α}
    (ha : keep a = false) (l : List α) :
    words keep (word ++ a :: l) = word :: words keep l := by
  have hpieces : (word ++ a :: l).splitOnP (fun a => !keep a) = word ::
      l.splitOnP fun a => !keep a :=
    List.splitOnP_append_cons_of_forall_mem (fun b hb => by simp [h.2 b hb]) a (by simp [ha]) l
  simp [words, hpieces, h.1]

/-- A kept element at its end leaves a word a word. -/
theorem IsWord.concat {word : List α} (h : IsWord keep word) {a : α} (ha : keep a = true) :
    IsWord keep (word ++ [a]) :=
  ⟨by simp, fun b hb => (List.mem_append.mp hb).elim (h.2 b) fun hb =>
    List.mem_singleton.mp hb ▸ ha⟩

/-- A kept element is a word. -/
theorem isWord_singleton {a : α} (ha : keep a = true) : IsWord keep [a] :=
  ⟨List.cons_ne_nil _ _, List.forall_mem_singleton.mpr ha⟩

/-! ## Words with separators between them -/

/-- The words, with one separator between each and the next. -/
def join (sep : α) (ws : List (List α)) : List α := [sep].intercalate ws

/-- No words joined are empty. -/
@[simp]
theorem join_nil : join sep [] = [] := List.intercalate_nil

/-- One word joined is the word. -/
@[simp]
theorem join_singleton (word : List α) : join sep [word] = word := List.intercalate_singleton

/-- The first word joined to the rest stands before a separator. -/
@[simp]
theorem join_cons_cons (word next : List α) (ws : List (List α)) :
    join sep (word :: next :: ws) = word ++ sep :: join sep (next :: ws) := by
  rw [join, List.intercalate_cons_cons, List.append_assoc]
  rfl

/-- The elements of a word are elements of the words joined. -/
theorem mem_join_of_mem {ws : List (List α)} {word : List α} (hword : word ∈ ws) {a : α}
    (ha : a ∈ word) :
    a ∈ join sep ws := by
  induction ws with
  | nil => cases hword
  | cons first ws ih =>
    cases ws with
    | nil =>
      obtain rfl := List.mem_singleton.mp hword
      rwa [join_singleton]
    | cons next ws =>
      rw [join_cons_cons, List.mem_append, List.mem_cons]
      obtain rfl | hword := List.mem_cons.mp hword
      · exact .inl ha
      · exact .inr (.inr (ih hword))

section Joined

variable {ws : List (List α)} (hws : ∀ word ∈ ws, IsWord keep word)

include hws

/-- The elements of words joined are kept ones and separators. -/
theorem keep_of_mem_join {a : α} (ha : a ∈ join sep ws) : keep a = true ∨ a = sep := by
  induction ws with
  | nil => cases ha
  | cons word ws ih =>
    obtain ⟨hword, hws⟩ := List.forall_mem_cons.mp hws
    cases ws with
    | nil =>
      rw [join_singleton] at ha
      exact .inl (hword.2 a ha)
    | cons next ws =>
      rw [join_cons_cons, List.mem_append, List.mem_cons] at ha
      obtain ha | rfl | ha := ha
      · exact .inl (hword.2 a ha)
      · exact .inr rfl
      · exact ih hws ha

/-- Only no words joined are empty. -/
theorem join_eq_nil_iff : join sep ws = [] ↔ ws = [] := by
  obtain - | ⟨word, - | ⟨next, ws⟩⟩ := ws
  · simp
  · simp [(hws word List.mem_cons_self).1]
  · simp

/-- The last element is of the last word. -/
theorem keep_of_mem_getLast? {a : α} (ha : a ∈ (join sep ws).getLast?) : keep a = true := by
  induction ws with
  | nil => cases ha
  | cons word ws ih =>
    obtain ⟨hword, hws⟩ := List.forall_mem_cons.mp hws
    cases ws with
    | nil =>
      rw [join_singleton] at ha
      exact hword.2 a (List.mem_of_mem_getLast? ha)
    | cons next ws =>
      have hne : join sep (next :: ws) ≠ [] :=
        fun hnil => List.cons_ne_nil _ _ ((join_eq_nil_iff hws).mp hnil)
      rw [join_cons_cons, List.append_cons, List.getLast?_append_of_ne_nil _ hne] at ha
      exact ih hws ha

end Joined

/-- A kept element is not the separator. -/
theorem ne_sep (hsep : keep sep = false) {a : α} (ha : keep a = true) : a ≠ sep := by
  rintro rfl
  rw [ha] at hsep
  cases hsep

variable [DecidableEq α]

/-- Splitting a list at a separator and joining gives the list again. -/
theorem join_splitOn (l : List α) : join sep (l.splitOn sep) = l := List.intercalate_splitOn sep

/-- The pieces of joined words are the words. -/
theorem splitOn_join {ws : List (List α)} (hsep : keep sep = false)
    (hws : ∀ word ∈ ws, IsWord keep word) (hne : ws ≠ []) : (join sep ws).splitOn sep = ws := by
  refine List.splitOn_intercalate sep (fun word hword hmem => ?_) hne
  exact ne_sep hsep ((hws word hword).2 sep hmem) rfl

/-- Two lists with a separator between them are told apart by the pieces between the separators. -/
theorem append_sep_eq_iff {x y x' y' : List α} : x ++ sep :: y = x' ++ sep :: y' ↔
    x.splitOn sep ++ y.splitOn sep = x'.splitOn sep ++ y'.splitOn sep := by
  rw [← List.splitOn_append_cons_self, ← List.splitOn_append_cons_self]
  refine ⟨congrArg _, fun h => ?_⟩
  have hjoined := congrArg (join sep) h
  rwa [join_splitOn, join_splitOn] at hjoined

/-! ## One separator for each run of other elements -/

/-- Each run of other elements is one separator, and none is put where one is already. -/
def collapse (keep : α → Bool) (sep : α) : Bool → List α → List α
  | _, [] => []
  | afterSep, a :: l =>
    if keep a then a :: collapse keep sep false l
    else if afterSep then collapse keep sep true l
    else sep :: collapse keep sep true l

omit [DecidableEq α] in
/-- The elements of a collapsed list are those of the list and separators. -/
theorem mem_of_mem_collapse {a : α} {afterSep : Bool} {l : List α}
    (h : a ∈ collapse keep sep afterSep l) :
    a ∈ l ∨ a = sep := by
  fun_induction collapse keep sep afterSep l with
  | case1 => exact .inl h
  | case2 afterSep b l hb ih =>
    obtain rfl | h := List.mem_cons.mp h
    · exact .inl List.mem_cons_self
    · exact (ih h).imp_left (List.mem_cons_of_mem b)
  | case3 b l hb ih => exact (ih h).imp_left (List.mem_cons_of_mem b)
  | case4 afterSep b l hb hsep ih =>
    obtain rfl | h := List.mem_cons.mp h
    · exact .inr rfl
    · exact (ih h).imp_left (List.mem_cons_of_mem b)

/-- The list between the separators at its ends. -/
def trim (sep : α) (l : List α) : List α :=
  (l.dropWhile fun a => a = sep).rdropWhile fun a => a = sep

/-- Trimming adds no element. -/
theorem mem_of_mem_trim {a : α} {l : List α} (h : a ∈ trim sep l) : a ∈ l :=
  (List.dropWhile_suffix _).subset ((List.rdropWhile_prefix _ _).subset h)

/-- Trimming the end of two parts joined reaches the first only where the second is trimmed away. -/
theorem rdropWhile_append_sep (x y : List α) : (x ++ sep :: y).rdropWhile (fun a => a = sep) =
    if y.rdropWhile (fun a => a = sep) = [] then x.rdropWhile fun a => a = sep
    else x ++ sep :: y.rdropWhile fun a => a = sep := by
  have hreverse : (x ++ sep :: y).reverse = y.reverse ++ sep :: x.reverse := by simp
  unfold List.rdropWhile
  rw [hreverse, List.dropWhile_append]
  cases hempty : y.reverse.dropWhile (fun a => decide (a = sep)) with
  | nil => simp
  | cons a rest => simp

variable (hsep : keep sep = false)

include hsep

/-- A word has no separator at its end to trim. -/
theorem IsWord.rdropWhile_eq {word : List α} (h : IsWord keep word) :
    word.rdropWhile (fun a => a = sep) = word := by
  rw [List.rdropWhile_eq_self_iff]
  intro hne hlast
  exact ne_sep hsep (h.2 _ (List.getLast_mem hne)) (by simpa using hlast)

/-- After a separator the list begins with an element that is kept. -/
theorem dropWhile_collapse_true (l : List α) :
    (collapse keep sep true l).dropWhile (fun a => a = sep) = collapse keep sep true l := by
  induction l with
  | nil => rfl
  | cons a l ih =>
    unfold collapse
    split
    · rename_i ha
      exact List.dropWhile_cons_of_neg (by simpa using ne_sep hsep ha)
    · exact ih

/-- Trimming the start of a collapsed list is collapsing as if after a separator. -/
theorem dropWhile_collapse (l : List α) :
    (collapse keep sep false l).dropWhile (fun a => a = sep) = collapse keep sep true l := by
  cases l with
  | nil => rfl
  | cons a l =>
    unfold collapse
    split
    · rename_i ha
      exact List.dropWhile_cons_of_neg (by simpa using ne_sep hsep ha)
    · rw [if_neg Bool.false_ne_true, if_pos rfl, List.dropWhile_cons_of_pos (by simp)]
      exact dropWhile_collapse_true hsep l

/-- What is in front of the separators at the end: within a word, and after a separator. -/
theorem rdropWhile_collapse (l : List α) :
    (∀ word, IsWord keep word → (word ++ collapse keep sep false l).rdropWhile (fun a => a = sep) =
      join sep (words keep (word ++ l))) ∧
    (collapse keep sep true l).rdropWhile (fun a => a = sep) = join sep (words keep l) := by
  -- a kept element moves from the second statement to the first one, any other one back
  induction l with
  | nil =>
    refine ⟨fun word hword => ?_, rfl⟩
    rw [collapse, List.append_nil, hword.words_eq, join_singleton]
    exact hword.rdropWhile_eq hsep
  | cons a l ih =>
    obtain ⟨ihWord, ihSep⟩ := ih
    cases ha : keep a with
    | true =>
      refine ⟨fun word hword => ?_, ?_⟩
      · rw [collapse, if_pos ha, List.append_cons, List.append_cons word a l]
        exact ihWord _ (hword.concat ha)
      · rw [collapse, if_pos ha]
        exact ihWord [a] (isWord_singleton ha)
    | false =>
      have hnot : ¬ keep a = true := by simp [ha]
      refine ⟨fun word hword => ?_, ?_⟩
      · rw [collapse, if_neg hnot, if_neg Bool.false_ne_true, rdropWhile_append_sep, ihSep,
          hword.rdropWhile_eq hsep, hword.words_append_cons ha]
        have hempty : join sep (words keep l) = [] ↔ words keep l = [] :=
          join_eq_nil_iff (isWord_words l)
        -- if no word follows, the separator is at the end, and dropped too
        cases hws : words keep l with
        | nil => rw [join_nil, if_pos rfl, join_singleton]
        | cons next ws =>
          rw [hws] at hempty
          rw [if_neg (hempty.not.mpr (List.cons_ne_nil next ws)), join_cons_cons]
      · rw [collapse, if_neg hnot, if_pos rfl, words_cons_of_neg ha]
        exact ihSep

/-- What is between the outer separators are the words. -/
theorem trim_collapse (l : List α) :
    trim sep (collapse keep sep false l) = join sep (words keep l) := by
  rw [trim, dropWhile_collapse hsep]
  exact (rdropWhile_collapse hsep l).2

end Lib
