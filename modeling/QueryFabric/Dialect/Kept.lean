import QueryFabric.Dialect.Syql
import QueryFabric.Sql.Tokenizer

/-!
# What the SyQL rewriting keeps

`keptText` is the input after a leading EXPLAIN, with its line breaks and all, but without the
directive lines and the directives at the end. The rewriting puts one space for each of its line
breaks and the white space around it (`joined_keptText`), and `SELECT *` in front when the first of
its lines starts with FROM (`rewrittenSql_eq`).
-/

namespace QueryFabric.Dialect

open Sql

/-- Whether a line is taken out as a directive. -/
def isDirectiveLine (line : List Char) : Bool :=
  decide (trim line ≠ []) && (lineDirective (toAsciiUppercase (trim line))).isSome

/-- A line without what is taken out of it as a directive line. -/
def keptLine (line : List Char) : List Char := if isDirectiveLine line then [] else line

/-- A line without the directives at its end. -/
def cutLine (line : List Char) : List Char :=
  if stripTrailingDirective (trim line) = none then line
  else line.takeWhile isWhitespace ++ stripDirectives (trim line).length (trim line)

/-- Whether a line is white space. -/
def isBlank (line : List Char) : Bool := decide (trim line = [])

/-- Lines of which the last that is not blank is without the directives at its end. -/
def cutLast : List (List Char) → List (List Char)
  | [] => []
  | line :: lines => if lines.all isBlank then cutLine line :: lines else line :: cutLast lines

/-- The lines after a leading EXPLAIN. -/
def bodyLines (input : List Char) : List (List Char) := (stripLeadingExplain input).2.1.splitOn '\n'

/-- The lines of the input after a leading EXPLAIN, without the directives. -/
def keptLines (input : List Char) : List (List Char) := cutLast ((bodyLines input).map keptLine)

/-- The input after a leading EXPLAIN, without the directives. -/
def keptText (input : List Char) : List Char := ['\n'].intercalate (keptLines input)

/-- What is trimmed of the lines that are not blank. -/
def texts (lines : List (List Char)) : List (List Char) :=
  (lines.map trim).filter fun text => decide (text ≠ [])

/-! ## Trimming -/

/-- A trimmed end is trimmed once. -/
theorem trimEnd_trimEnd (text : List Char) : trimEnd (trimEnd text) = trimEnd text :=
  List.rdropWhile_idempotent _ _

/-- A trimmed text has a trimmed end. -/
theorem trimEnd_trim (text : List Char) : trimEnd (trim text) = trim text := trimEnd_trimEnd _

/-- Nothing is trimmed to nothing. -/
theorem trim_nil : trim [] = [] := rfl

/-- White space before a solid text is trimmed. -/
theorem trim_append_solid {gap text : List Char} (hgap : gap.all isWhitespace = true)
    (h : Solid text) :
    trim (gap ++ text) = trimEnd text := by
  obtain ⟨c, hc, hsolid⟩ := h
  obtain ⟨cs, rfl⟩ := List.head?_eq_some_iff.mp hc
  rw [trim, trimStart, List.dropWhile_append_of_pos (List.all_eq_true.mp hgap),
    List.dropWhile_cons_of_neg (by simp [hsolid])]

/-- A text is its leading white space, what is trimmed of it and its trailing white space. -/
theorem trim_spec (text : List Char) : ∃ gap gap', gap.all isWhitespace = true ∧
    gap'.all isWhitespace = true ∧
    text = gap ++ trim text ++ gap' ∧ trimStart text = trim text ++ gap' := by
  have hstart : text.takeWhile isWhitespace ++ trimStart text = text :=
    List.takeWhile_append_dropWhile
  have hend : trim text ++ (trimStart text).rtakeWhile isWhitespace = trimStart text :=
    List.rdropWhile_append_rtakeWhile
  refine ⟨text.takeWhile isWhitespace, (trimStart text).rtakeWhile isWhitespace, ?_, ?_,
    ?_, hend.symm⟩
  · exact List.all_takeWhile
  · exact List.all_eq_true.mpr fun c hc => List.mem_rtakeWhile_imp hc
  · rw [List.append_assoc, hend, hstart]

/-- Only white space is trimmed to nothing. -/
theorem trim_eq_nil_iff (text : List Char) : trim text = [] ↔ text.all isWhitespace = true := by
  obtain ⟨gap, gap', hgap, hgap', htext, -⟩ := trim_spec text
  constructor
  · intro h
    rw [htext, h, List.append_nil, List.all_append, hgap, hgap']
    rfl
  · intro h
    have hstart : trimStart text = [] := List.dropWhile_eq_nil_iff.mpr (List.all_eq_true.mp h)
    rw [trim, hstart]
    rfl

/-! ## The fragments are what is trimmed of the kept lines -/

/-- The texts of two lists of lines. -/
theorem texts_append (lines lines' : List (List Char)) :
    texts (lines ++ lines') = texts lines ++ texts lines' := by
  unfold texts
  rw [List.map_append, List.filter_append]

/-- The texts of a line and of those behind it. -/
theorem texts_cons (line : List Char) (lines : List (List Char)) :
    texts (line :: lines) = (if trim line = [] then [] else [trim line]) ++ texts lines := by
  unfold texts
  rw [List.map_cons, List.filter_cons]
  split_ifs <;> simp_all

/-- Blank lines have no texts. -/
theorem texts_eq_nil_iff (lines : List (List Char)) :
    texts lines = [] ↔ lines.all isBlank = true := by
  unfold texts isBlank
  simp

/-- A line adds its text to the fragments. -/
theorem fragments_scanLine (restOffset : Nat) (scan : LineScan) (line : List Char) :
    (scanLine restOffset scan line).fragments.map Fragment.text =
      scan.fragments.map Fragment.text ++ texts [keptLine line] := by
  unfold scanLine
  dsimp only
  rw [texts_cons]
  -- The line is a directive or not, and something of it is kept or not.
  split_ifs with hblank hkept hkept
  · simp [texts]
  · have hline : keptLine line = line := by simp [keptLine, isDirectiveLine, hblank]
    rw [hline] at hkept
    exact absurd hblank hkept
  · split
    · simp [texts]
    · rename_i hnone
      have hline : keptLine line = line := by simp [keptLine, isDirectiveLine, hnone]
      rw [hline] at hkept
      exact absurd hkept hblank
  · split
    · rename_i hsome
      have hline : keptLine line = [] := by simp [keptLine, isDirectiveLine, hblank, hsome]
      rw [hline] at hkept
      exact absurd trim_nil hkept
    · rename_i hnone
      have hline : keptLine line = line := by simp [keptLine, isDirectiveLine, hnone]
      rw [hline]
      simp [texts]

/-- Lines add their texts to the fragments. -/
theorem fragments_foldl_scanLine (restOffset : Nat) (lines : List (List Char)) (scan : LineScan) :
    (lines.foldl (scanLine restOffset) scan).fragments.map Fragment.text =
      scan.fragments.map Fragment.text ++ texts (lines.map keptLine) := by
  induction lines generalizing scan with
  | nil => simp [texts]
  | cons line lines ih =>
    have happ := texts_append [keptLine line] (lines.map keptLine)
    rw [List.foldl_cons, ih, fragments_scanLine, List.map_cons, List.append_assoc, ← happ,
      List.singleton_append]

/-- The fragments are the texts of the kept lines. -/
theorem texts_scanLines (input : List Char) :
    (scanLines input).fragments.map Fragment.text = texts ((bodyLines input).map keptLine) := by
  have h := fragments_foldl_scanLine (stripLeadingExplain input).2.2 (bodyLines input) {}
  rwa [List.map_nil, List.nil_append] at h

/-- More fuel does not change what is left of a text. -/
theorem stripDirectives_fuel : ∀ (m n : Nat) (text : List Char), text.length ≤ m → text.length ≤ n →
    stripDirectives m text = stripDirectives n text
  | 0, 0, _, _, _ => rfl
  | 0, n + 1, text, hm, _ => by
    obtain rfl := List.length_eq_zero_iff.mp (Nat.le_zero.mp hm)
    rfl
  | m + 1, 0, text, _, hn => by
    obtain rfl := List.length_eq_zero_iff.mp (Nat.le_zero.mp hn)
    rfl
  | m + 1, n + 1, text, hm, hn => by
    rw [stripDirectives, stripDirectives]
    split
    · rfl
    · rename_i pre rest hstrip
      have hlt := (stripTrailingDirective_eq_some hstrip).2.1
      exact stripDirectives_fuel m n pre (by omega) (by omega)

/-- What stands before a directive has a trimmed end. -/
theorem directiveAfter_trimEnd {input needle pre value : List Char}
    (h : directiveAfter input needle = some (pre, value)) : trimEnd pre = pre := by
  unfold directiveAfter at h
  obtain ⟨idx, -, h⟩ := Option.bind_eq_some_iff.mp h
  dsimp only at h
  split_ifs at h
  obtain ⟨rfl, -⟩ := Prod.mk.inj (Option.some.inj h)
  exact trimEnd_trimEnd _

/-- What is left of a trimmed text is trimmed. -/
theorem trimEnd_stripDirectives (fuel : Nat) {text : List Char} (h : trimEnd text = text) :
    trimEnd (stripDirectives fuel text) = stripDirectives fuel text := by
  induction fuel generalizing text with
  | zero => exact h
  | succ fuel ih =>
    unfold stripDirectives
    split
    · exact h
    · rename_i pre rest hstrip
      refine ih ?_
      unfold stripTrailingDirective at hstrip
      split at hstrip
      · rename_i hafter
        cases hstrip
        exact directiveAfter_trimEnd hafter
      · split at hstrip
        · rename_i hafter
          cases hstrip
          exact directiveAfter_trimEnd hafter
        · cases hstrip

/-- A cut line is trimmed to the text without its directives. -/
theorem trim_cutLine {line : List Char} (h : trim line ≠ []) :
    trim (cutLine line) = stripDirectives (trim line).length (trim line) := by
  unfold cutLine
  split_ifs with hnone
  · -- Without a directive nothing is stripped.
    cases hlength : (trim line).length with
    | zero => exact absurd (List.length_eq_zero_iff.mp hlength) h
    | succ n => rw [stripDirectives, hnone]
  · rw [trim_append_solid List.all_takeWhile (solid_stripDirectives _ (solid_trim h)),
      trimEnd_stripDirectives _ (trimEnd_trim line)]

/-- A blank line is not cut. -/
theorem cutLine_of_blank {line : List Char} (h : trim line = []) : cutLine line = line := by
  unfold cutLine
  rw [h]
  exact if_pos rfl

/-- Cutting the last line cuts the last of the texts. -/
theorem texts_cutLast (lines : List (List Char)) :
    (texts lines = [] → texts (cutLast lines) = []) ∧ ∀ init last, texts lines = init ++ [last] →
      texts (cutLast lines) = init ++ [stripDirectives last.length last] := by
  induction lines with
  | nil => exact ⟨fun _ => rfl, fun init last h => by simp [texts] at h⟩
  | cons line lines ih =>
    rw [cutLast]
    split_ifs with hblank
    · have hnil := (texts_eq_nil_iff lines).mpr hblank
      rw [texts_cons, texts_cons, hnil, List.append_nil, List.append_nil]
      -- This is the last line with text, if it has any.
      by_cases hline : trim line = []
      · rw [cutLine_of_blank hline, if_pos hline]
        exact ⟨fun _ => rfl, fun init last h => by simp at h⟩
      · have hcut := trim_cutLine hline
        have hsolid := solid_stripDirectives (trim line).length (solid_trim hline)
        rw [if_neg hline, hcut, if_neg hsolid.ne_nil]
        refine ⟨fun h => (by cases h), fun init last h => ?_⟩
        obtain ⟨rfl, hsingle⟩ :=
          List.append_inj' (h.symm.trans (List.nil_append [trim line]).symm) rfl
        obtain rfl := List.singleton_inj.mp hsingle
        rfl
    -- A later line has text, and is cut by the induction.
    · have hne : texts lines ≠ [] := fun hnil => hblank ((texts_eq_nil_iff lines).mp hnil)
      obtain ⟨init', last', hlast⟩ := (texts lines).eq_nil_or_concat'.resolve_left hne
      have hcut := ih.2 init' last' hlast
      rw [texts_cons, texts_cons, hcut, hlast, ← List.append_assoc, ← List.append_assoc]
      refine ⟨fun h => by simp at h, fun init last h => ?_⟩
      obtain ⟨rfl, hsingle⟩ := List.append_inj' h rfl
      obtain rfl := List.singleton_inj.mp hsingle
      rfl

/-- The fragments that are written are what is trimmed of the kept lines. -/
theorem texts_keptLines (input : List Char) :
    (syqlFragments input).map Fragment.text = texts (keptLines input) := by
  have hscan := texts_scanLines input
  obtain ⟨hnone, hcut⟩ := texts_cutLast ((bodyLines input).map keptLine)
  obtain hnil | ⟨init, last, hlast⟩ := (scanLines input).fragments.eq_nil_or_concat'
  · rw [hnil, List.map_nil] at hscan
    rw [syqlFragments_nil hnil, List.map_nil, keptLines, hnone hscan.symm]
  · obtain ⟨fuel, hfuel, hfragments⟩ := syqlFragments_concat hlast
    rw [hlast, List.map_append, List.map_singleton] at hscan
    rw [hfragments, List.map_append, List.map_singleton, keptLines, hcut _ _ hscan.symm,
      stripDirectives_fuel fuel last.text.length last.text hfuel (Nat.le_refl _)]

/-! ## The rewritten text -/

/-- The fragments are written with a space before each. -/
theorem rewritten_foldl_pushFragment (fragments : List Fragment) (k : Nat) (hk : 0 < k)
    (w : Rewriting) :
    ((fragments.zipIdx k).foldl pushFragment w).rewritten =
      w.rewritten ++ (fragments.map Fragment.text).flatMap fun text => ' ' :: text := by
  induction fragments generalizing k w with
  | nil => simp
  | cons fragment fragments ih =>
    rw [List.zipIdx_cons, List.foldl_cons, ih (k + 1) (Nat.succ_pos k), pushFragment, if_pos hk]
    simp [Rewriting.push]

/-- Joined texts are the first and the others behind a separator each. -/
theorem intercalate_eq_flatMap (sep : Char) (text : List Char) (rest : List (List Char)) :
    [sep].intercalate (text :: rest) = text ++ rest.flatMap fun next => sep :: next := by
  induction rest generalizing text with
  | nil => simp
  | cons next rest ih =>
    rw [List.intercalate_cons_cons, ih, List.flatMap_cons]
    simp

/-- The rewritten text is the fragments with spaces between, after `SELECT *` when the first of them
starts with FROM. -/
theorem rewrittenSql_eq (input : List Char) : (parseSyql input).sourceMap.rewrittenSql =
    (if fromFirst (syqlFragments input) then "SELECT * ".toList else []) ++
      [' '].intercalate (texts (keptLines input)) := by
  have hrewritten : (parseSyql input).sourceMap.rewrittenSql =
      (writeFragments (syqlFragments input)).rewritten := rfl
  rw [hrewritten, ← texts_keptLines]
  generalize syqlFragments input = fragments
  unfold writeFragments
  dsimp only
  cases fragments with
  | nil => rfl
  | cons fragment fragments =>
    rw [List.zipIdx_cons, List.foldl_cons, rewritten_foldl_pushFragment _ _ (Nat.succ_pos 0),
      List.map_cons, intercalate_eq_flatMap, ← List.append_assoc]
    congr 1
    rw [pushFragment, if_neg (Nat.lt_irrefl 0)]
    split_ifs <;> rfl

/-! ## Joining -/

/-- What is cut off at the end of a text is white space. -/
theorem joined_append_gap {text gap : List Char} (htext : '\n' ∉ text)
    (hgap : gap.all isWhitespace = true) :
    Joined isWhitespace (text ++ gap) text := by
  induction text with
  | nil => exact Joined.trail hgap
  | cons c text ih =>
    rw [List.mem_cons, not_or] at htext
    exact Joined.char (fun h => htext.1 h.symm) (ih htext.2)

/-- A text on one line before joined ones. -/
theorem joined_append {text s t : List Char} (htext : '\n' ∉ text) (h : Joined isWhitespace s t) :
    Joined isWhitespace (text ++ s) (text ++ t) := by
  induction text with
  | nil => exact h
  | cons c text ih =>
    rw [List.mem_cons, not_or] at htext
    exact Joined.char (fun h => htext.1 h.symm) (ih htext.2)

/-- A blank gap before a text is trimmed. -/
theorem trimStart_append_blank {gap : List Char} (hgap : gap.all isWhitespace = true)
    (text : List Char) :
    trimStart (gap ++ text) = trimStart text :=
  List.dropWhile_append_of_pos (List.all_eq_true.mp hgap)

/-- The lines joined with spaces are what becomes of them when their line breaks are joined. -/
theorem joined_texts : ∀ lines : List (List Char), (∀ line ∈ lines, '\n' ∉ line) →
    Joined isWhitespace (trimStart (['\n'].intercalate lines)) ([' '].intercalate (texts lines))
  | [], _ => Joined.trail rfl
  | [line], h => by
    obtain ⟨gap, gap', hgap, hgap', htext, hstart⟩ := trim_spec line
    have hfeed : '\n' ∉ trim line := fun hmem => h line (by simp) (by rw [htext]; simp [hmem])
    rw [List.intercalate_singleton, texts_cons, hstart]
    have htexts : texts [] = [] := rfl
    split_ifs with hblank
    · rw [hblank]
      exact Joined.trail hgap'
    · rw [htexts, List.append_nil, List.intercalate_singleton]
      exact joined_append_gap hfeed hgap'
  | line :: next :: lines, h => by
    have ih := joined_texts (next :: lines) fun line hline => h line (List.mem_cons_of_mem _ hline)
    obtain ⟨gap, gap', hgap, hgap', htext, hstart⟩ := trim_spec line
    have hfeed : '\n' ∉ trim line := fun hmem => h line (by simp) (by rw [htext]; simp [hmem])
    rw [List.intercalate_cons_cons, List.append_assoc, texts_cons]
    generalize ['\n'].intercalate (next :: lines) = rest at ih ⊢
    have hnewline : isWhitespace '\n' = true := by decide
    split_ifs with hblank
    · -- A blank line is trimmed with what follows it.
      have hall := (trim_eq_nil_iff line).mp hblank
      have hskip : (line ++ ['\n']).all isWhitespace = true := by
        rw [List.all_append, hall]
        simpa using hnewline
      rwa [List.nil_append, ← List.append_assoc, trimStart_append_blank hskip]
    · have hsolid := solid_trim hblank
      have hbreak : trimStart (line ++ (['\n'] ++ rest)) =
          trim line ++ ((gap' ++ ['\n'] ++ rest.takeWhile isWhitespace) ++ trimStart rest) := by
        have hrest : rest.takeWhile isWhitespace ++ trimStart rest = rest :=
          List.takeWhile_append_dropWhile
        obtain ⟨c, hc, hnone⟩ := hsolid
        obtain ⟨cs, hcs⟩ := List.head?_eq_some_iff.mp hc
        have hkeep : trimStart (trim line ++ (gap' ++ (['\n'] ++ rest))) = trim line ++
            (gap' ++ (['\n'] ++ rest)) := by
          rw [hcs, List.cons_append, trimStart, List.dropWhile_cons_of_neg (by simp [hnone])]
        have hassoc : line ++ (['\n'] ++ rest) = gap ++ (trim line ++ (gap' ++ (['\n'] ++ rest))) :=
          calc line ++ (['\n'] ++ rest)
            _ = gap ++ trim line ++ gap' ++ (['\n'] ++ rest) :=
              congrArg (· ++ (['\n'] ++ rest)) htext
            _ = gap ++ (trim line ++ (gap' ++ (['\n'] ++ rest))) := by simp only [List.append_assoc]
        rw [hassoc, trimStart_append_blank hgap, hkeep]
        simp only [List.append_assoc, hrest]
      have hspaces : (gap' ++ ['\n'] ++ rest.takeWhile isWhitespace).all isWhitespace = true := by
        rw [List.all_append, List.all_append, hgap', List.all_takeWhile]
        simpa using hnewline
      rw [hbreak]
      cases hmore : texts (next :: lines) with
      | nil =>
        -- Nothing follows but white space.
        rw [hmore] at ih
        have hend := ih.blank_of_nil
        rw [List.append_nil, List.intercalate_singleton]
        refine joined_append_gap hfeed ?_
        rw [List.all_append, hspaces, hend]
        rfl
      | cons text more =>
        rw [hmore] at ih
        rw [List.singleton_append, List.intercalate_cons_cons, List.append_assoc (trim line) [' '],
          List.singleton_append]
        exact joined_append hfeed (Joined.gap hspaces (by simp) ih)

/-! ## The kept text, joined -/

/-- A line has no line feed. -/
theorem not_mem_splitOn (text : List Char) : ∀ line ∈ text.splitOn '\n', '\n' ∉ line := by
  induction text with
  | nil =>
    intro line hline
    rw [List.splitOn_nil, List.mem_singleton] at hline
    rw [hline]
    exact List.not_mem_nil
  | cons c text ih =>
    rw [List.splitOn_cons_eq_if_modifyHead]
    obtain ⟨line, lines, hlines⟩ := List.exists_cons_of_ne_nil (List.splitOn_ne_nil '\n' text)
    rw [hlines] at ih ⊢
    rw [List.forall_mem_cons] at ih
    split_ifs with hc
    · exact List.forall_mem_cons.mpr ⟨List.not_mem_nil, List.forall_mem_cons.mpr ih⟩
    · have hne : '\n' ≠ c := fun heq => hc (by rw [← heq]; rfl)
      rw [List.modifyHead_cons, List.forall_mem_cons, List.mem_cons, not_or]
      exact ⟨⟨hne, ih.1⟩, ih.2⟩

/-- What is kept of a line is of the line. -/
theorem keptLine_sublist (line : List Char) : (keptLine line).Sublist line := by
  unfold keptLine
  split_ifs
  · exact List.nil_sublist line
  · exact List.Sublist.refl line

/-- A cut line is the start of the line. -/
theorem cutLine_isPrefix (line : List Char) : cutLine line <+: line := by
  unfold cutLine
  split_ifs
  · exact List.prefix_rfl
  · have hstrip : stripDirectives (trim line).length (trim line) <+: trimStart line :=
      (stripDirectives_isPrefix _ _).trans (trimEnd_isPrefix _)
    have hline : line.takeWhile isWhitespace ++ trimStart line = line :=
      List.takeWhile_append_dropWhile
    have happ := (List.prefix_append_right_inj (line.takeWhile isWhitespace)).mpr hstrip
    rwa [hline] at happ

/-- Cut lines have no line feeds. -/
theorem not_mem_cutLast {lines : List (List Char)} (h : ∀ line ∈ lines, '\n' ∉ line) :
    ∀ line ∈ cutLast lines, '\n' ∉ line := by
  induction lines with
  | nil => exact h
  | cons line lines ih =>
    rw [List.forall_mem_cons] at h
    unfold cutLast
    split_ifs
    · exact List.forall_mem_cons.mpr ⟨fun hmem => h.1 ((cutLine_isPrefix line).subset hmem), h.2⟩
    · exact List.forall_mem_cons.mpr ⟨h.1, ih h.2⟩

/-- Kept lines have no line feeds. -/
theorem not_mem_keptLines (input : List Char) : ∀ line ∈ keptLines input, '\n' ∉ line := by
  refine not_mem_cutLast fun line hline => ?_
  obtain ⟨body, hbody, rfl⟩ := List.mem_map.mp hline
  exact fun hmem => not_mem_splitOn _ body hbody ((keptLine_sublist body).subset hmem)

/-- Texts that do not end in white space are joined to one that does not. -/
theorem endsSolid_intercalate (sep : Char) : ∀ texts : List (List Char),
    (∀ text ∈ texts, text ≠ [] ∧ endsSolid isWhitespace text = true) →
    endsSolid isWhitespace ([sep].intercalate texts) = true
  | [], _ => rfl
  | [text], h => by
    rw [List.intercalate_singleton]
    exact (h text (by simp)).2
  | text :: next :: texts, h => by
    have ih := endsSolid_intercalate sep (next :: texts) fun u hu => h u (List.mem_cons_of_mem _ hu)
    have hne : [sep].intercalate (next :: texts) ≠ [] := by
      rw [intercalate_eq_flatMap]
      exact List.append_ne_nil_of_left_ne_nil (h next (by simp)).1 _
    obtain ⟨init, c, hc⟩ := ([sep].intercalate (next :: texts)).eq_nil_or_concat'.resolve_left hne
    rw [hc] at ih
    rw [List.intercalate_cons_cons, hc, ← List.append_assoc]
    unfold endsSolid at ih ⊢
    rwa [List.getLast?_concat] at ih ⊢

/-- A trimmed text ends solid. -/
theorem endsSolid_trim (text : List Char) : endsSolid isWhitespace (trim text) = true := by
  unfold endsSolid
  by_cases hne : trim text = []
  · rw [hne]
    rfl
  · have hlast : ¬isWhitespace ((trim text).getLast hne) = true := List.rdropWhile_last_not _ _ hne
    rw [List.getLast?_eq_some_getLast hne, Option.all_some]
    simpa using hlast

/-- The joined texts of lines end solid. -/
theorem endsSolid_texts (lines : List (List Char)) :
    endsSolid isWhitespace ([' '].intercalate (texts lines)) = true := by
  refine endsSolid_intercalate _ _ fun text htext => ?_
  obtain ⟨hmem, hne⟩ := List.mem_filter.mp htext
  obtain ⟨line, -, rfl⟩ := List.mem_map.mp hmem
  exact ⟨of_decide_eq_true hne, endsSolid_trim line⟩

/-- The text that is parsed, without a `SELECT *` in front, is the kept text with its line breaks
joined. -/
theorem joined_keptText (input : List Char) : Joined isWhitespace (trimStart (keptText input))
    ([' '].intercalate (texts (keptLines input))) :=
  joined_texts (keptLines input) (not_mem_keptLines input)

end QueryFabric.Dialect
