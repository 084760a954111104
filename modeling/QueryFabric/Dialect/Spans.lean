import QueryFabric.Dialect.Syql
import Mathlib.Data.List.Induction

/-!
# The source spans of tokens

The SQL parser reports where a token is as a line and a column in characters, and `map_sql_span`
adds the column to the byte offset of the line. So the offset falls short of the token's by the
excess of the line before it, the bytes beyond one for each character
(`locationToOffset_locationAfter`), and the span that is found may leave out the last pieces that
the token takes text from. `covers_iff` says exactly when it leaves out none.
-/

namespace QueryFabric.Dialect

open Lib

/-! ## Locations -/

/-- The position after a character. -/
def Location.advance (location : Location) (c : Char) : Location :=
  if c = '\n' then ⟨location.line + 1, 1⟩ else ⟨location.line, location.column + 1⟩

/-- The position after a text, as the SQL parser counts lines and columns. -/
def locationAfter (text : List Char) : Location := text.foldl Location.advance ⟨1, 1⟩

/-- The span of a token that stands after a text. -/
def tokenSpan (before token : List Char) : SqlSpan :=
  ⟨locationAfter before, locationAfter (before ++ token)⟩

/-- The characters after the last line feed of a text. -/
def lastLine (text : List Char) : List Char := text.rtakeWhile (· ≠ '\n')

/-- The bytes of the last line of a text beyond one for each character. -/
def excess (text : List Char) : Nat := utf8Len (lastLine text) - (lastLine text).length

/-- The offset that is found for the position after a text. -/
def foundOffset (text : List Char) : Nat := utf8Len text - excess text

/-- The line starts of a text followed by another are those of both, the second's shifted. -/
theorem lineStartsFrom_append (ds : List Char) : ∀ (offset : Nat) (cs : List Char),
    lineStartsFrom offset (cs ++ ds) = lineStartsFrom offset cs ++
      lineStartsFrom (offset + utf8Len cs) ds
  | offset, [] => by simp [lineStartsFrom]
  | offset, c :: cs => by
    have ih := lineStartsFrom_append ds (offset + c.utf8Size) cs
    rw [List.cons_append, lineStartsFrom, lineStartsFrom, ih, utf8Len_cons, Nat.add_assoc]
    split_ifs <;> rfl

/-- The last line is no longer than the text. -/
theorem utf8Len_lastLine_le (text : List Char) : utf8Len (lastLine text) ≤ utf8Len text := by
  obtain ⟨before, hbefore⟩ := List.rtakeWhile_suffix (fun c : Char => decide (c ≠ '\n')) text
  have h := congrArg utf8Len hbefore
  rw [utf8Len_append] at h
  unfold lastLine
  omega

/-- The offset that is found is that of the last line and a byte for each character of it. -/
theorem foundOffset_eq (text : List Char) :
    foundOffset text = (utf8Len text - utf8Len (lastLine text)) + (lastLine text).length := by
  have hle := utf8Len_lastLine_le text
  have hlength := length_le_utf8Len (lastLine text)
  unfold foundOffset excess
  omega

/-- The offset found for a text is within the text. -/
theorem foundOffset_le (text : List Char) : foundOffset text ≤ utf8Len text := Nat.sub_le _ _

/-- After a line feed the last line is empty. -/
@[simp]
theorem lastLine_feed (text : List Char) : lastLine (text ++ ['\n']) = [] :=
  List.rtakeWhile_concat_neg _ _ _ (by simp)

/-- Another character is put at the end of the last line. -/
theorem lastLine_snoc {c : Char} (hc : c ≠ '\n') (text : List Char) :
    lastLine (text ++ [c]) = lastLine text ++ [c] :=
  List.rtakeWhile_concat_pos _ _ _ (by simpa using hc)

/-- A further character is found further on. -/
theorem foundOffset_lt_snoc (text : List Char) (c : Char) :
    foundOffset text < foundOffset (text ++ [c]) := by
  by_cases hc : c = '\n'
  · have hle := foundOffset_le text
    have hfeed : utf8Len ['\n'] = 1 := by decide
    subst hc
    rw [foundOffset_eq (text ++ _), lastLine_feed, utf8Len_append, hfeed, utf8Len_nil,
      List.length_nil]
    omega
  · have hline := lastLine_snoc hc text
    rw [foundOffset_eq, foundOffset_eq, hline, utf8Len_append, utf8Len_append, List.length_append,
      List.length_singleton]
    omega

/-- A token that is not empty ends after the offset found for what comes before it. -/
theorem foundOffset_lt {before token : List Char} (h : token ≠ []) :
    foundOffset before < foundOffset (before ++ token) := by
  induction token using List.reverseRecOn with
  | nil => exact absurd rfl h
  | append_singleton token c ih =>
    have hsnoc := foundOffset_lt_snoc (before ++ token) c
    rw [List.append_assoc] at hsnoc
    by_cases htoken : token = []
    · subst htoken
      rwa [List.append_nil] at hsnoc
    · exact (ih htoken).trans hsnoc

/-- The lines before a position, their starts and the columns of the last one. -/
theorem locationAfter_eq (text : List Char) :
    locationAfter text = ⟨(lineStartsFrom 0 text).length + 1, (lastLine text).length + 1⟩ ∧
      (computeLineStarts text)[(lineStartsFrom 0 text).length]? =
        some (utf8Len text - utf8Len (lastLine text)) := by
  induction text using List.reverseRecOn with
  | nil => exact ⟨rfl, rfl⟩
  | append_singleton text c ih =>
    obtain ⟨hlocation, hstart⟩ := ih
    have hstep : locationAfter (text ++ [c]) = (locationAfter text).advance c := by
      unfold locationAfter
      rw [List.foldl_append]
      rfl
    rw [hstep, hlocation, computeLineStarts, lineStartsFrom_append, Nat.zero_add]
    by_cases hc : c = '\n'
    · have hfeed : utf8Len ['\n'] = 1 := by decide
      subst hc
      rw [lastLine_feed, utf8Len_append, hfeed]
      exact ⟨by simp [Location.advance, lineStartsFrom], by simp [lineStartsFrom]⟩
    · have hnone : lineStartsFrom (utf8Len text) [c] = [] := by simp [lineStartsFrom, hc]
      rw [hnone, List.append_nil, lastLine_snoc hc, utf8Len_append, utf8Len_append,
        Nat.add_sub_add_right]
      exact ⟨by simp [Location.advance, hc], hstart⟩

/-- The position after a start of the rewritten text is found at its offset less the excess of its
last line. -/
theorem locationToOffset_locationAfter (text after : List Char) (pieces : List SourcePiece) :
    (SourceMap.new (text ++ after) pieces).locationToOffset (locationAfter text) =
      some (foundOffset text) := by
  obtain ⟨hlocation, hstart⟩ := locationAfter_eq text
  have hlt := (List.getElem?_eq_some_iff.mp hstart).1
  have hstarts : (computeLineStarts (text ++ after))[(lineStartsFrom 0 text).length]? =
      some (utf8Len text - utf8Len (lastLine text)) := by
    rw [← hstart]
    unfold computeLineStarts at hlt ⊢
    rw [lineStartsFrom_append, ← List.cons_append]
    exact List.getElem?_append_left hlt
  rw [SourceMap.locationToOffset, hlocation, foundOffset_eq]
  simp [SourceMap.new, hstarts]

/-- The range that is found for a token. -/
theorem spanToRewritten_tokenSpan {before token : List Char} (h : token ≠ []) (after : List Char)
    (pieces : List SourcePiece) :
    (SourceMap.new (before ++ token ++ after) pieces).spanToRewritten (tokenSpan before token) =
      some ⟨foundOffset before, foundOffset (before ++ token) - foundOffset before⟩ := by
  have hlt : foundOffset before < foundOffset (before ++ token) := foundOffset_lt h
  have hstart := locationToOffset_locationAfter before (token ++ after) pieces
  have hstop := locationToOffset_locationAfter (before ++ token) after pieces
  rw [← List.append_assoc] at hstart
  have hempty : tokenSpan before token ≠ SqlSpan.empty := by
    unfold tokenSpan SqlSpan.empty
    rw [(locationAfter_eq before).1]
    simp
  rw [SourceMap.spanToRewritten, if_neg hempty, tokenSpan, hstart, hstop]
  have hmax : max (foundOffset (before ++ token) - foundOffset before) 1 =
      foundOffset (before ++ token) - foundOffset before := by omega
  simp [hmax]

/-! ## Pieces in order -/

/-- Two pieces of which the first ends before the second starts, and so do their origins. -/
def SourcePiece.Before (piece next : SourcePiece) : Prop :=
  piece.rewrittenStart + piece.rewrittenLen ≤ next.rewrittenStart ∧
    ∀ o o', piece.origin = some o → next.origin = some o' → o.stop ≤ o'.offset

/-- Of two pieces in order, one is before the other. -/
theorem before_of_mem {pieces : List SourcePiece} (h : pieces.Pairwise SourcePiece.Before)
    {p q : SourcePiece} (hp : p ∈ pieces) (hq : q ∈ pieces) : p = q ∨ p.Before q ∨ q.Before p := by
  have hpairs : pieces.Pairwise fun p q => p = q ∨ p.Before q ∨ q.Before p :=
    h.imp fun hpq => .inr (.inl hpq)
  have hflip : pieces.Pairwise (flip fun p q => p = q ∨ p.Before q ∨ q.Before p) :=
    h.imp fun hpq => .inr (.inr hpq)
  exact hpairs.forall_of_forall_of_flip (fun p _ => .inl rfl) hflip hp hq

/-- Pieces that tile a text do not overlap. -/
theorem Tiles.start_le {start stop : Nat} {pieces : List SourcePiece}
    (h : Tiles start pieces stop) :
    ∀ piece ∈ pieces, start ≤ piece.rewrittenStart := by
  induction pieces generalizing start with
  | nil => exact fun piece hpiece => by cases hpiece
  | cons first pieces ih =>
    obtain ⟨rfl, hrest⟩ := h
    intro piece hpiece
    obtain rfl | hpiece := List.mem_cons.mp hpiece
    · exact Nat.le_refl _
    · exact (Nat.le_add_right _ _).trans (ih hrest piece hpiece)

/-- Pieces that tile a text are in order when their origins are. -/
theorem Tiles.pairwise_before {start stop : Nat} {pieces : List SourcePiece}
    (h : Tiles start pieces stop)
    (horigins : (pieces.filterMap SourcePiece.origin).Pairwise fun o o' => o.stop ≤ o'.offset) :
    pieces.Pairwise SourcePiece.Before := by
  induction pieces generalizing start with
  | nil => exact List.Pairwise.nil
  | cons first pieces ih =>
    obtain ⟨rfl, hrest⟩ := h
    have htail : (pieces.filterMap SourcePiece.origin).Pairwise fun o o' => o.stop ≤ o'.offset := by
      rw [List.filterMap_cons] at horigins
      split at horigins
      · exact horigins
      · exact (List.pairwise_cons.mp horigins).2
    refine List.pairwise_cons.mpr
      ⟨fun next hnext => ⟨hrest.start_le next hnext, fun o o' ho ho' => ?_⟩, ih hrest htail⟩
    rw [List.filterMap_cons, ho] at horigins
    exact (List.pairwise_cons.mp horigins).1 o' (List.mem_filterMap.mpr ⟨next, hnext, ho'⟩)

/-! ## The origins that are found -/

/-- The union of two spans starts no later than either. -/
theorem QuerySourceSpan.offset_union_le (span other : QuerySourceSpan) :
    (span.union other).offset ≤ span.offset ∧ (span.union other).offset ≤ other.offset :=
  ⟨Nat.min_le_left _ _, Nat.min_le_right _ _⟩

/-- The union of two spans stops at the later stop. -/
theorem QuerySourceSpan.stop_union (span other : QuerySourceSpan) :
    (span.union other).stop = max span.stop other.stop := by
  unfold QuerySourceSpan.union QuerySourceSpan.stop
  dsimp only
  omega

/-- The union of spans holds each of them, and ends with one of them. -/
theorem foldl_union (spans : List QuerySourceSpan) (first : QuerySourceSpan) :
    (∀ span ∈ first :: spans, (spans.foldl QuerySourceSpan.union first).offset ≤ span.offset ∧
      span.stop ≤ (spans.foldl QuerySourceSpan.union first).stop) ∧
    ∀ bound, (∀ span ∈ first :: spans, span.stop ≤ bound) →
    (spans.foldl QuerySourceSpan.union first).stop ≤ bound := by
  induction spans generalizing first with
  | nil => simp
  | cons next spans ih =>
    -- The union of the first two takes the place of the first.
    obtain ⟨hholds, hbound⟩ := ih (first.union next)
    obtain ⟨hfirst, hnext⟩ := QuerySourceSpan.offset_union_le first next
    have hstop := QuerySourceSpan.stop_union first next
    obtain ⟨hoffset, hend⟩ := hholds _ List.mem_cons_self
    rw [List.foldl_cons]
    constructor
    · intro span hspan
      obtain rfl | rfl | hspan : span = first ∨ span = next ∨ span ∈ spans := by simpa using hspan
      · exact ⟨hoffset.trans hfirst, by omega⟩
      · exact ⟨hoffset.trans hnext, by omega⟩
      · exact hholds span (List.mem_cons_of_mem _ hspan)
    · intro bound h
      refine hbound bound fun span hspan => ?_
      obtain rfl | hspan := List.mem_cons.mp hspan
      · have h₁ := h first (by simp)
        have h₂ := h next (by simp)
        omega
      · exact h span (by simp [hspan])

/-- Whether a piece shares characters with a range of the rewritten text. -/
def SourcePiece.Shares (piece : SourcePiece) (start stop : Nat) : Prop :=
  max start piece.rewrittenStart < min stop (piece.rewrittenStart + piece.rewrittenLen)

/-- Whether a piece shares a range is decided by its bounds. -/
instance (piece : SourcePiece) (start stop : Nat) : Decidable (piece.Shares start stop) :=
  inferInstanceAs (Decidable (_ < _))

/-- The span holds the source text that a range of the rewritten text has from each of its
pieces. -/
def SourceMap.Covers (map : SourceMap) (start stop : Nat) (span : Option QuerySourceSpan) : Prop :=
  ∀ piece ∈ map.pieces, ∀ origin, piece.origin = some origin → piece.Shares start stop →
    ∃ found, span = some found ∧
      found.offset ≤ origin.offset + (max start piece.rewrittenStart - piece.rewrittenStart) ∧
      origin.offset +
        (min stop (piece.rewrittenStart + piece.rewrittenLen) - piece.rewrittenStart) ≤ found.stop

/-- The span that is found for a token is the union of the origins of the pieces that the found
range overlaps. -/
theorem mapSqlSpan_tokenSpan {before token : List Char} (h : token ≠ []) (after : List Char)
    (pieces : List SourcePiece) :
    (SourceMap.new (before ++ token ++ after) pieces).mapSqlSpan (tokenSpan before token) =
      QuerySourceSpan.reduceUnion
        (pieces.filterMap fun piece => if piece.overlaps ⟨foundOffset before,
        foundOffset (before ++ token) - foundOffset before⟩ then piece.origin else none) := by
  rw [SourceMap.mapSqlSpan, spanToRewritten_tokenSpan h]
  rfl

/-- A piece overlaps a token's span where it shares the token's bytes. -/
theorem overlaps_iff {before token : List Char} (h : token ≠ []) (piece : SourcePiece) :
    piece.overlaps ⟨foundOffset before, foundOffset (before ++ token) - foundOffset before⟩ = true ↔
      piece.rewrittenStart < foundOffset (before ++ token) ∧
        foundOffset before < piece.rewrittenStart + piece.rewrittenLen := by
  have hlt : foundOffset before < foundOffset (before ++ token) := foundOffset_lt h
  unfold SourcePiece.overlaps QuerySourceSpan.stop
  rw [Nat.add_sub_cancel' hlt.le, Bool.and_eq_true, decide_eq_true_iff, decide_eq_true_iff]

/-- The span that is found for a token holds its source text exactly when each piece that the token
has text from starts before the offset that is found for the token's end. -/
theorem covers_iff {before token : List Char} (htoken : token ≠ []) (after : List Char)
    {pieces : List SourcePiece} (hpieces : pieces.Pairwise SourcePiece.Before)
    (hlen : ∀ piece ∈ pieces, ∀ origin, piece.origin = some origin →
      origin.len = piece.rewrittenLen) :
    (SourceMap.new (before ++ token ++ after) pieces).Covers (utf8Len before)
    (utf8Len (before ++ token))
        ((SourceMap.new (before ++ token ++ after) pieces).mapSqlSpan (tokenSpan before token)) ↔
      ∀ piece ∈ pieces, ∀ origin, piece.origin = some origin →
        piece.Shares (utf8Len before) (utf8Len (before ++ token)) →
        piece.rewrittenStart + excess (before ++ token) < utf8Len (before ++ token) := by
  have hbefore := foundOffset_le before
  have hstop : foundOffset (before ++ token) = utf8Len (before ++ token) -
      excess (before ++ token) := rfl
  rw [mapSqlSpan_tokenSpan htoken]
  generalize hfound : pieces.filterMap _ = found
  have hmem : ∀ origin, origin ∈ found ↔ ∃ piece ∈ pieces, piece.origin = some origin ∧
      piece.rewrittenStart < foundOffset (before ++ token) ∧
        foundOffset before < piece.rewrittenStart + piece.rewrittenLen := by
    intro origin
    rw [← hfound, List.mem_filterMap]
    refine exists_congr fun piece => and_congr_right fun _ => ?_
    rw [← overlaps_iff htoken, Option.ite_none_right_eq_some, and_comm]
  constructor
  · intro hcovers piece hpiece origin horigin hshares
    obtain ⟨span, hspan, -, hend⟩ := hcovers piece hpiece origin horigin hshares
    by_contra hle
    -- The pieces that are found come before this one, so their origins end where its origin starts.
    have hbound : ∀ o ∈ found, o.stop ≤ origin.offset := by
      intro o ho
      obtain ⟨other, hother, ho, hstart, -⟩ := (hmem o).mp ho
      unfold SourcePiece.Shares at hshares
      obtain rfl | hlt | hlt := before_of_mem hpieces hother hpiece
      · omega
      · exact hlt.2 o origin ho horigin
      · have := hlt.1
        omega
    cases found with
    | nil => cases hspan
    | cons first rest =>
      obtain rfl := Option.some.inj hspan
      have hle := (foldl_union rest first).2 _ hbound
      unfold SourcePiece.Shares at hshares
      omega
  · intro hcondition piece hpiece origin horigin hshares
    have hstart := hcondition piece hpiece origin horigin hshares
    have horigin' := hlen piece hpiece origin horigin
    unfold SourcePiece.Shares at hshares
    have hin : origin ∈ found := (hmem origin).mpr ⟨piece, hpiece, horigin, by omega, by omega⟩
    cases found with
    | nil => cases hin
    | cons first rest =>
      obtain ⟨hoffset, hend⟩ := (foldl_union rest first).1 origin hin
      unfold QuerySourceSpan.stop at hend
      refine ⟨_, rfl, by omega, ?_⟩
      unfold QuerySourceSpan.stop
      omega

/-! ## The maps of the dialects -/

/-- The fragments come from ranges of the input in order, none of them after a bound. -/
def InOrder (bound : Nat) (fragments : List Fragment) : Prop :=
  (fragments.map Fragment.origin).Pairwise (fun o o' => o.stop ≤ o'.offset) ∧ ∀ f ∈ fragments,
    f.origin.stop ≤ bound

/-- A fragment after the last one keeps the fragments in order. -/
theorem InOrder.snoc {bound bound' : Nat} {fragments : List Fragment} {fragment : Fragment}
    (h : InOrder bound fragments) (hstart : bound ≤ fragment.origin.offset)
    (hstop : fragment.origin.stop ≤ bound') :
    InOrder bound' (fragments ++ [fragment]) := by
  obtain ⟨hpairs, hbound⟩ := h
  constructor
  · rw [List.map_append, List.pairwise_append]
    refine ⟨hpairs, List.pairwise_singleton _ _, fun o ho o' ho' => ?_⟩
    obtain ⟨f, hf, rfl⟩ := List.mem_map.mp ho
    obtain rfl := List.mem_singleton.mp ho'
    exact (hbound f hf).trans hstart
  · intro f hf
    unfold QuerySourceSpan.stop at hstop
    obtain hf | rfl := List.mem_append.mp hf |>.imp_right List.mem_singleton.mp
    · have := hbound f hf
      omega
    · exact hstop

/-- A larger bound also bounds the fragments. -/
theorem InOrder.mono {bound bound' : Nat} {fragments : List Fragment} (h : InOrder bound fragments)
    (hle : bound ≤ bound') : InOrder bound' fragments :=
  ⟨h.1, fun f hf => (h.2 f hf).trans hle⟩

/-- Scanning a line keeps the fragments in order. -/
theorem inOrder_scanLine {restOffset : Nat} {scan : LineScan} (line : List Char)
    (h : InOrder (restOffset + scan.cursor) scan.fragments) :
    InOrder (restOffset + (scanLine restOffset scan line).cursor)
      (scanLine restOffset scan line).fragments := by
  have hle := (slice_trim line).end_le
  rw [cursor_scanLine]
  unfold scanLine
  dsimp only
  split_ifs
  · exact h.mono (by omega)
  · split
    · exact h.mono (by omega)
    · refine h.snoc (Nat.le_add_right _ _) ?_
      unfold QuerySourceSpan.stop
      dsimp only
      omega

/-- Scanning the lines keeps the fragments in order. -/
theorem inOrder_scanLines {restOffset : Nat} (lines : List (List Char)) (scan : LineScan)
    (h : InOrder (restOffset + scan.cursor) scan.fragments) :
    ∃ bound, InOrder bound (lines.foldl (scanLine restOffset) scan).fragments := by
  induction lines generalizing scan with
  | nil => exact ⟨_, h⟩
  | cons line lines ih => exact ih _ (inOrder_scanLine line h)

/-- The fragments of a SyQL text are in order. -/
theorem inOrder_syqlFragments (input : List Char) :
    ∃ bound, InOrder bound (syqlFragments input) := by
  obtain ⟨bound, hscan⟩ : ∃ bound, InOrder bound (scanLines input).fragments :=
    inOrder_scanLines _ _ ⟨List.Pairwise.nil, fun f hf => by cases hf⟩
  obtain hnil | ⟨init, last, hlast⟩ := (scanLines input).fragments.eq_nil_or_concat'
  · rw [syqlFragments_nil hnil]
    exact ⟨bound, hnil ▸ hscan⟩
  · obtain ⟨fuel, -, hfragments⟩ := syqlFragments_concat hlast
    obtain ⟨hpairs, -⟩ := hscan
    rw [hlast, List.map_append, List.pairwise_append] at hpairs
    obtain ⟨hinit, -, hbefore⟩ := hpairs
    rw [hfragments]
    -- Only the end of the last fragment has moved.
    have hstart : InOrder last.origin.offset init :=
      ⟨hinit, fun f hf => hbefore _ (List.mem_map_of_mem hf) _ (by simp)⟩
    exact ⟨_, hstart.snoc (Nat.le_refl _) (Nat.le_refl _)⟩

/-- The origins written for the fragments are those of the fragments. -/
theorem origins_foldl_pushFragment (indexed : List (Fragment × Nat)) (w : Rewriting) :
    (indexed.foldl pushFragment w).pieces.filterMap SourcePiece.origin =
      w.pieces.filterMap SourcePiece.origin ++ indexed.map fun i => i.1.origin := by
  induction indexed generalizing w with
  | nil => simp
  | cons first indexed ih =>
    rw [List.foldl_cons, ih, pushFragment]
    split_ifs <;> simp [Rewriting.push]

/-- The pieces with an origin are the fragments. -/
theorem origins_writeFragments (fragments : List Fragment) :
    (writeFragments fragments).pieces.filterMap SourcePiece.origin =
      fragments.map Fragment.origin := by
  have hmap : fragments.zipIdx.map (fun i => i.1.origin) = fragments.map Fragment.origin := by
    rw [← List.zipIdx_map_fst 0 fragments, List.map_map, List.zipIdx_map_fst]
    rfl
  unfold writeFragments
  dsimp only
  rw [origins_foldl_pushFragment, hmap]
  split_ifs <;> simp [Rewriting.push]

/-- The dialects. -/
inductive QueryDialect
  | sql
  | syql
deriving DecidableEq, Repr

/-- The map that a dialect hands to the SQL parser. -/
def QueryDialect.sourceMap : QueryDialect → List Char → SourceMap
  | .sql, input =>
    SourceMap.identity (stripLeadingExplain input).2.1 (stripLeadingExplain input).2.2
  | .syql, input => (parseSyql input).sourceMap

/-- The source map that a dialect makes maps every copied byte to the byte it is copied from. -/
theorem exact_sourceMap (dialect : QueryDialect) (input : List Char) :
    (dialect.sourceMap input).Exact input := by
  cases dialect with
  | sql => exact SourceMap.exact_identity (slice_stripLeadingExplain input)
  | syql => exact syqlSourceMap_exact input

/-- The pieces of a dialect's source map come one before the other. -/
theorem pairwise_before_sourceMap (dialect : QueryDialect) (input : List Char) :
    (dialect.sourceMap input).pieces.Pairwise SourcePiece.Before := by
  refine (exact_sourceMap dialect input).tiles.pairwise_before ?_
  cases dialect with
  | sql => exact List.pairwise_singleton _ _
  | syql =>
    obtain ⟨bound, horder, -⟩ := inOrder_syqlFragments input
    rw [← origins_writeFragments] at horder
    exact horder

/-- A dialect's source map is the constructor's result for its own text and pieces. -/
theorem sourceMap_eq_new (dialect : QueryDialect) (input : List Char) :
    dialect.sourceMap input =
      SourceMap.new (dialect.sourceMap input).rewrittenSql (dialect.sourceMap input).pieces := by
  cases dialect <;> rfl

/-- The span that is found for a token holds its source text exactly when each piece that the token
has text from starts before the token's end by more than the excess of the line up to there. -/
theorem mapSqlSpan_covers_iff (dialect : QueryDialect) (input before token after : List Char)
    (hrewritten : (dialect.sourceMap input).rewrittenSql = before ++ token ++ after)
    (htoken : token ≠ []) :
    (dialect.sourceMap input).Covers (utf8Len before) (utf8Len (before ++ token))
        ((dialect.sourceMap input).mapSqlSpan (tokenSpan before token)) ↔
      ∀ piece ∈ (dialect.sourceMap input).pieces, ∀ origin, piece.origin = some origin →
        piece.Shares (utf8Len before) (utf8Len (before ++ token)) →
        piece.rewrittenStart + excess (before ++ token) < utf8Len (before ++ token) := by
  have hexact := exact_sourceMap dialect input
  have hpairs := pairwise_before_sourceMap dialect input
  have hlen : ∀ piece ∈ (dialect.sourceMap input).pieces, ∀ origin, piece.origin = some origin →
      origin.len = piece.rewrittenLen :=
    fun piece hpiece origin horigin => (hexact.holds piece hpiece origin horigin).1
  have hiff := @covers_iff before token htoken after _ hpairs hlen
  rw [← hrewritten, ← sourceMap_eq_new] at hiff
  exact hiff

/-- The span of a name on the second line of a query, whose first line has ten characters of two
bytes, is found in the first line. -/
theorem mapSqlSpan_misses_name :
    (QueryDialect.syql.sourceMap "SELECT 'éééééééééé'\n, name FROM t".toList).rewrittenSql =
        "SELECT 'éééééééééé' , ".toList ++ "name".toList ++ " FROM t".toList ∧
      ¬ (QueryDialect.syql.sourceMap "SELECT 'éééééééééé'\n, name FROM t".toList).Covers
        (utf8Len "SELECT 'éééééééééé' , ".toList)
        (utf8Len ("SELECT 'éééééééééé' , ".toList ++ "name".toList))
        ((QueryDialect.syql.sourceMap "SELECT 'éééééééééé'\n, name FROM t".toList).mapSqlSpan
          (tokenSpan "SELECT 'éééééééééé' , ".toList "name".toList)) := by
  have hspan : (QueryDialect.syql.sourceMap "SELECT 'éééééééééé'\n, name FROM t".toList).mapSqlSpan
      (tokenSpan "SELECT 'éééééééééé' , ".toList "name".toList) = some ⟨0, 29⟩ := by decide
  refine ⟨by decide, fun h => ?_⟩
  obtain ⟨found, hfound, -, hstop⟩ := h ⟨30, 13, some ⟨30, 13⟩⟩ (by decide) _ rfl (by decide)
  rw [hspan] at hfound
  obtain rfl := Option.some.inj hfound
  revert hstop
  decide

/-- A wide character on an earlier line shifts nothing: the mapped span covers `name`. -/
theorem mapSqlSpan_covers_name :
    (QueryDialect.syql.sourceMap "SELECT 'é'\n, name FROM t".toList).Covers
      (utf8Len "SELECT 'é' , ".toList) (utf8Len ("SELECT 'é' , ".toList ++ "name".toList))
      ((QueryDialect.syql.sourceMap "SELECT 'é'\n, name FROM t".toList).mapSqlSpan
        (tokenSpan "SELECT 'é' , ".toList "name".toList)) := by
  have hpieces : (QueryDialect.syql.sourceMap "SELECT 'é'\n, name FROM t".toList).pieces =
      [⟨0, 11, some ⟨0, 11⟩⟩, ⟨11, 1, none⟩, ⟨12, 13, some ⟨12, 13⟩⟩] := by decide
  refine (mapSqlSpan_covers_iff .syql _ _ _ " FROM t".toList (by decide) (by decide)).mpr ?_
  have hstart : ∀ piece ∈ (QueryDialect.syql.sourceMap "SELECT 'é'\n, name FROM t".toList).pieces,
      piece.rewrittenStart + excess ("SELECT 'é' , ".toList ++ "name".toList) <
        utf8Len ("SELECT 'é' , ".toList ++ "name".toList) := by
    rw [hpieces]
    decide
  exact fun piece hpiece _ _ _ => hstart piece hpiece

/-- Where the input is read as it stands, the span of every token holds its source text. -/
theorem mapSqlSpan_covers_sql (input before token after : List Char)
    (hrewritten : (QueryDialect.sql.sourceMap input).rewrittenSql = before ++ token ++ after)
    (htoken : token ≠ []) :
    (QueryDialect.sql.sourceMap input).Covers (utf8Len before) (utf8Len (before ++ token))
      ((QueryDialect.sql.sourceMap input).mapSqlSpan (tokenSpan before token)) := by
  have hexact := exact_sourceMap .sql input
  have hpairs := pairwise_before_sourceMap .sql input
  have hcovers := @covers_iff before token htoken after _ hpairs
    fun piece hpiece origin horigin => (hexact.holds piece hpiece origin horigin).1
  rw [← hrewritten, ← sourceMap_eq_new] at hcovers
  refine hcovers.mpr fun piece hpiece _ _ _ => ?_
  obtain rfl := List.mem_singleton.mp hpiece
  have hlt : foundOffset before < foundOffset (before ++ token) := foundOffset_lt htoken
  unfold foundOffset at hlt
  dsimp only
  omega

end QueryFabric.Dialect
