import QueryFabric.Dialect.Helpers
import QueryFabric.Maps

/-!
# The SyQL rewriting

`parse_syql` of `crates/queryfabric-dialect-syql/src/lib.rs` up to the SQL parser: a leading EXPLAIN
is taken off, the lines of the rest are trimmed, the directive lines and the directives at the end
are taken out, and what is left is joined with spaces, after `SELECT *` when it starts with FROM.
The loop over the directives at the end runs with fuel, which reaches to its end
(`stripTrailingDirective_stripDirectives`), and only shortens the last fragment
(`syqlFragments_concat`).

`syqlSourceMap_exact` is the result: the map that goes along with the rewriting is exact for every
input. Every fragment holds the characters of its origin after each step (`Fragment.Exact`), and
every piece is written at the end of the rewritten text (`Exact.push`).
-/

namespace QueryFabric.Dialect

open Lib

/-- `Fragment`. -/
structure Fragment where
  text : List Char
  origin : QuerySourceSpan
deriving DecidableEq, Repr

/-- The entries of a `DialectMetadata` in key order. -/
abbrev DialectMetadata := List (String × String)

/-- `DialectMetadata::insert` of a value in lower case. -/
def insertMetadata (key : String) (value : List Char) (metadata : DialectMetadata) :
    DialectMetadata :=
  mapInsert (fun a b => decide (a < b)) key (toAsciiLowercase (String.ofList value)) metadata

/-- The state of the loop over the lines. -/
structure LineScan where
  cursor : Nat := 0
  metadata : DialectMetadata := []
  fragments : List Fragment := []
deriving DecidableEq, Repr

/-- The key and the value of a directive line in upper case. -/
def lineDirective (uppercase : List Char) : Option (String × List Char) :=
  match stripPrefix "SCOPE ".toList uppercase with
  | some value => some ("syql.scope", value)
  | none =>
    match stripPrefix "DOWNLOAD ".toList uppercase with
    | some value => some ("syql.download", value)
    | none => none

/-- One line of the loop of `parse_syql`. -/
def scanLine (restOffset : Nat) (scan : LineScan) (line : List Char) : LineScan :=
  let lineOffset := restOffset + scan.cursor
  let cursor := scan.cursor + (utf8Len line + 1)
  let trimmedStart := utf8Len line - utf8Len (trimStart line)
  let trimmed := trim line
  if trimmed = [] then { scan with cursor := cursor }
  else
    let trimmedOffset := lineOffset + trimmedStart
    match lineDirective (toAsciiUppercase trimmed) with
    | some (key, value) =>
      { scan with cursor := cursor, metadata := insertMetadata key value scan.metadata }
    | none =>
      { scan with cursor := cursor,
                  fragments := scan.fragments ++ [⟨trimmed, ⟨trimmedOffset, utf8Len trimmed⟩⟩] }

/-- What is before the last occurrence of a needle, and the value after it when it is one word. -/
def directiveAfter (input needle : List Char) : Option (List Char × List Char) := do
  let idx ← rfind needle (toAsciiUppercase input)
  let pre := trimEnd (input.take idx)
  let value := trim (input.drop (idx + needle.length))
  if value ≠ [] ∧ value.any isWhitespace = false then some (pre, value) else none

/-- The text before a directive at the end, its length, and the value and the key of the
directive. -/
def stripTrailingDirective (input : List Char) : Option (List Char × Nat × List Char × String) :=
  match directiveAfter input " DOWNLOAD ".toList with
  | some (pre, value) => some (pre, utf8Len pre, value, "syql.download")
  | none =>
    match directiveAfter input " SCOPE ".toList with
    | some (pre, value) => some (pre, utf8Len pre, value, "syql.scope")
    | none => none

/-- The loop over the directives at the end of the last fragment, with fuel. -/
def stripTrailingDirectives : Nat → DialectMetadata → List Fragment →
    DialectMetadata × List Fragment
  | 0, metadata, fragments => (metadata, fragments)
  | fuel + 1, metadata, fragments =>
    match fragments.getLast? with
    | none => (metadata, fragments)
    | some last =>
      match stripTrailingDirective last.text with
      | none => (metadata, fragments)
      | some (pre, preLen, value, key) =>
        let metadata := insertMetadata key value metadata
        let last : Fragment := ⟨pre, { last.origin with len := preLen }⟩
        if pre = [] then stripTrailingDirectives fuel metadata fragments.dropLast
        else stripTrailingDirectives fuel metadata (fragments.dropLast ++ [last])

/-- The characters of fragments, and one more for each of them. -/
def fragmentsSize (fragments : List Fragment) : Nat :=
  (fragments.map fun f => f.text.length + 1).sum

/-- The rewritten text and its pieces as far as they are written. -/
structure Rewriting where
  rewritten : List Char := []
  pieces : List SourcePiece := []
deriving DecidableEq, Repr

/-- A piece is written at the end. -/
def Rewriting.push (w : Rewriting) (text : List Char) (len : Nat)
    (origin : Option QuerySourceSpan) : Rewriting where
  rewritten := w.rewritten ++ text
  pieces := w.pieces ++ [⟨utf8Len w.rewritten, len, origin⟩]

/-- One fragment of the loop that writes the statement. -/
def pushFragment (w : Rewriting) (indexed : Fragment × Nat) : Rewriting :=
  let w := if 0 < indexed.2 then w.push [' '] 1 none else w
  w.push indexed.1.text (utf8Len indexed.1.text) (some indexed.1.origin)

/-- Whether the first fragment starts with FROM. -/
def fromFirst (fragments : List Fragment) : Bool :=
  match fragments.head? with
  | some fragment => "FROM ".toList.isPrefixOf (toAsciiUppercase fragment.text)
  | none => false

/-- The statement that fragments are written to. -/
def writeFragments (fragments : List Fragment) : Rewriting :=
  let pre := "SELECT * ".toList
  let w : Rewriting := if fromFirst fragments then Rewriting.push {} pre (utf8Len pre) none else {}
  fragments.zipIdx.foldl pushFragment w

/-- What `parse_syql` hands to the SQL parser, beside the name of the dialect and the input. -/
structure SyqlRequest where
  sourceMap : SourceMap
  explain : Bool
  metadata : DialectMetadata
deriving DecidableEq, Repr

/-- The lines of the rest after a leading EXPLAIN, scanned. -/
def scanLines (input : List Char) : LineScan :=
  let (_, rest, restOffset) := stripLeadingExplain input
  (rest.splitOn '\n').foldl (scanLine restOffset) {}

/-- `parse_syql`. -/
def parseSyql (input : List Char) : SyqlRequest :=
  let explain := (stripLeadingExplain input).1
  let scan := scanLines input
  let (metadata, fragments) :=
    stripTrailingDirectives (fragmentsSize scan.fragments) scan.metadata scan.fragments
  let w := writeFragments fragments
  ⟨SourceMap.new w.rewritten w.pieces, explain, metadata⟩

/-! ## Directives at the end -/

/-- A text starts with a character other than white space. -/
def Solid (text : List Char) : Prop := ∃ c ∈ text.head?, isWhitespace c = false

/-- A solid text is not empty. -/
theorem Solid.ne_nil {text : List Char} (h : Solid text) : text ≠ [] := by
  rintro rfl
  obtain ⟨c, hc, -⟩ := h
  cases hc

/-- A start of a solid text is solid. -/
theorem Solid.of_isPrefix {text pre : List Char} (h : Solid text) (hpre : pre <+: text)
    (hne : pre ≠ []) :
    Solid pre := by
  obtain ⟨rest, rfl⟩ := hpre
  obtain ⟨c, hc, hsolid⟩ := h
  refine ⟨c, ?_, hsolid⟩
  rwa [List.head?_append_of_ne_nil _ hne] at hc

/-- A solid text keeps its first character when its end is trimmed. -/
theorem Solid.trimEnd {text : List Char} (h : Solid text) : Solid (trimEnd text) := by
  refine h.of_isPrefix (trimEnd_isPrefix text) fun hnil => ?_
  obtain ⟨c, hc, hsolid⟩ := h
  have hall := List.rdropWhile_eq_nil_iff.mp hnil c (List.mem_of_mem_head? hc)
  rw [hsolid] at hall
  cases hall

/-- A trimmed text is empty or solid. -/
theorem solid_trim {text : List Char} (h : trim text ≠ []) : Solid (trim text) := by
  have hne : trimStart text ≠ [] := fun hnil => h (by rw [trim, hnil]; rfl)
  obtain ⟨c, cs, hcs⟩ := List.exists_cons_of_ne_nil hne
  have hc : isWhitespace c = false := by
    have hhead := List.head?_dropWhile_not isWhitespace text
    unfold trimStart at hcs
    rw [hcs] at hhead
    simpa using hhead
  exact Solid.trimEnd ⟨c, by rw [hcs]; rfl, hc⟩

/-- What is found last stands there. -/
theorem rfind_eq_some {needle : List Char} :
    ∀ {text : List Char} {i : Nat}, rfind needle text = some i →
    needle <+: text.drop i
  | [], i, h => by
    unfold rfind at h
    split_ifs at h with hnil
    rw [hnil]
    exact List.nil_prefix
  | c :: cs, i, h => by
    unfold rfind at h
    split at h
    · rename_i j hj
      obtain rfl := Option.some.inj h
      rw [List.drop_succ_cons]
      exact rfind_eq_some hj
    · split_ifs at h with hstart
      obtain rfl := Option.some.inj h
      exact hstart

/-- What is before a directive is a shorter start of the text, and not empty when the text is
solid. -/
theorem directiveAfter_eq_some {input needle pre value : List Char}
    (h : directiveAfter input (' ' :: needle) = some (pre, value)) :
    pre <+: input ∧ pre.length < input.length ∧ (Solid input → Solid pre) := by
  unfold directiveAfter at h
  obtain ⟨idx, hidx, h⟩ := Option.bind_eq_some_iff.mp h
  dsimp only at h
  split_ifs at h
  obtain ⟨rfl, rfl⟩ := Prod.mk.inj (Option.some.inj h)
  have hstart := trimEnd_isPrefix (input.take idx)
  have hfound := rfind_eq_some hidx
  refine ⟨hstart.trans (List.take_prefix idx input), ?_, fun hsolid => ?_⟩
  · -- The needle lies within the text after the place that was found.
    have hle := hfound.length_le
    have htake := hstart.length_le
    rw [List.length_drop, length_toAsciiUppercase, List.length_cons] at hle
    rw [List.length_take] at htake
    omega
  · -- The needle starts with a space, and the text does not.
    refine Solid.trimEnd (hsolid.of_isPrefix (List.take_prefix idx input) fun hnil => ?_)
    obtain ⟨c, hc, hspace⟩ := hsolid
    obtain ⟨cs, rfl⟩ := List.head?_eq_some_iff.mp hc
    obtain rfl : idx = 0 := by simpa using hnil
    obtain ⟨rest, hrest⟩ := hfound
    have hupper : c.toUpper = ' ' := (List.cons.inj hrest).1.symm
    obtain hsame | ⟨hupper', -⟩ := toUpper_cases c
    · rw [← hsame, hupper] at hspace
      cases hspace
    · rw [hupper] at hupper'
      cases hupper'

/-- What is left before a directive, with its length. -/
theorem stripTrailingDirective_eq_some {input pre value : List Char} {preLen : Nat} {key : String}
    (h : stripTrailingDirective input = some (pre, preLen, value, key)) :
    pre <+: input ∧ pre.length < input.length ∧ (Solid input → Solid pre) ∧
    preLen = utf8Len pre := by
  unfold stripTrailingDirective at h
  split at h
  · rename_i hdownload
    obtain ⟨hstart, hlt, hsolid⟩ := directiveAfter_eq_some hdownload
    cases h
    exact ⟨hstart, hlt, hsolid, rfl⟩
  · split at h
    · rename_i hscope
      obtain ⟨hstart, hlt, hsolid⟩ := directiveAfter_eq_some hscope
      cases h
      exact ⟨hstart, hlt, hsolid, rfl⟩
    · cases h

/-- A text without the directives at its end, with fuel. -/
def stripDirectives : Nat → List Char → List Char
  | 0, text => text
  | fuel + 1, text =>
    match stripTrailingDirective text with
    | none => text
    | some (pre, _) => stripDirectives fuel pre

/-- Directives are stripped from the end. -/
theorem stripDirectives_isPrefix (fuel : Nat) (text : List Char) :
    stripDirectives fuel text <+: text := by
  induction fuel generalizing text with
  | zero => exact List.prefix_rfl
  | succ fuel ih =>
    unfold stripDirectives
    split
    · exact List.prefix_rfl
    · rename_i hstrip
      exact (ih _).trans (stripTrailingDirective_eq_some hstrip).1

/-- A solid text stays solid. -/
theorem solid_stripDirectives (fuel : Nat) {text : List Char} (h : Solid text) :
    Solid (stripDirectives fuel text) := by
  induction fuel generalizing text with
  | zero => exact h
  | succ fuel ih =>
    unfold stripDirectives
    split
    · exact h
    · rename_i hstrip
      exact ih ((stripTrailingDirective_eq_some hstrip).2.2.1 h)

/-- With enough fuel no directive is left. -/
theorem stripTrailingDirective_stripDirectives (fuel : Nat) (text : List Char)
    (hfuel : text.length ≤ fuel) :
    stripTrailingDirective (stripDirectives fuel text) = none := by
  induction fuel generalizing text with
  | zero =>
    obtain rfl := List.length_eq_zero_iff.mp (Nat.le_zero.mp hfuel)
    rfl
  | succ fuel ih =>
    unfold stripDirectives
    split
    · assumption
    · rename_i hstrip
      have hlt := (stripTrailingDirective_eq_some hstrip).2.1
      exact ih _ (by omega)

/-- The loop over the directives at the end shortens the last fragment and leaves the others as they
are. -/
theorem stripTrailingDirectives_concat (fuel : Nat) (metadata : DialectMetadata)
    (init : List Fragment) {text : List Char} (hsolid : Solid text) (offset : Nat) :
    (stripTrailingDirectives fuel metadata (init ++ [⟨text, ⟨offset, utf8Len text⟩⟩])).2 =
      init ++ [⟨stripDirectives fuel text, ⟨offset, utf8Len (stripDirectives fuel text)⟩⟩] := by
  induction fuel generalizing metadata text with
  | zero => rfl
  | succ fuel ih =>
    rw [stripTrailingDirectives, List.getLast?_concat, stripDirectives]
    dsimp only
    split
    · rename_i hnone
      rw [hnone]
    · rename_i pre preLen value key hstrip
      obtain ⟨-, -, hpre, rfl⟩ := stripTrailingDirective_eq_some hstrip
      rw [hstrip, List.dropLast_concat, if_neg (hpre hsolid).ne_nil]
      exact ih _ (hpre hsolid)

/-! ## Exactness -/

/-- A fragment holds the characters of its origin, and the first of them is solid. -/
def Fragment.Exact (input : List Char) (fragment : Fragment) : Prop :=
  Solid fragment.text ∧ fragment.origin.len = utf8Len fragment.text ∧
    Slice input fragment.origin.offset fragment.text

/-- A line adds no fragment but what is trimmed of it, at its place. -/
theorem exact_scanLine {input line : List Char} {restOffset : Nat} {scan : LineScan}
    (hline : Slice input (restOffset + scan.cursor) line)
    (h : ∀ f ∈ scan.fragments, f.Exact input) :
    ∀ f ∈ (scanLine restOffset scan line).fragments, f.Exact input := by
  unfold scanLine
  dsimp only
  split_ifs with hblank
  · exact h
  · split
    · exact h
    · intro f hf
      rw [List.mem_append, List.mem_singleton] at hf
      obtain hf | rfl := hf
      · exact h f hf
      · exact ⟨solid_trim hblank, rfl, hline.trans (slice_trim line)⟩

/-- A line moves the cursor behind it. -/
@[simp]
theorem cursor_scanLine (restOffset : Nat) (scan : LineScan) (line : List Char) :
    (scanLine restOffset scan line).cursor = scan.cursor + (utf8Len line + 1) := by
  unfold scanLine
  dsimp only
  split_ifs
  · rfl
  · split <;> rfl

/-- The cursor is where the next line starts, so that every fragment holds the characters of its
origin. -/
theorem exact_foldl_scanLine {input : List Char} {restOffset : Nat} :
    ∀ (lines : List (List Char)) (scan : LineScan),
    Slice input (restOffset + scan.cursor) (['\n'].intercalate lines) →
    (∀ f ∈ scan.fragments, f.Exact input) →
    ∀ f ∈ (lines.foldl (scanLine restOffset) scan).fragments, f.Exact input
  | [], _, _, h => h
  | [line], scan, hslice, h => by
    rw [List.intercalate_singleton] at hslice
    exact exact_scanLine hslice h
  | line :: next :: lines, scan, hslice, h => by
    rw [List.intercalate_cons_cons, List.append_assoc] at hslice
    refine exact_foldl_scanLine (next :: lines) _ ?_
      (exact_scanLine (hslice.isPrefix (List.prefix_append _ _)) h)
    have hfeed : utf8Len ['\n'] = 1 := by decide
    have hnext := hslice.isSuffix.isSuffix
    rw [cursor_scanLine]
    rwa [hfeed, Nat.add_assoc, Nat.add_assoc] at hnext

/-- The fragments that are scanned are parts of the input. -/
theorem exact_scanLines (input : List Char) : ∀ f ∈ (scanLines input).fragments, f.Exact input := by
  refine exact_foldl_scanLine _ _ ?_ fun f hf => by cases hf
  rw [List.intercalate_splitOn]
  exact slice_stripLeadingExplain input

/-- The fragments that are written. -/
def syqlFragments (input : List Char) : List Fragment :=
  let scan := scanLines input
  (stripTrailingDirectives (fragmentsSize scan.fragments) scan.metadata scan.fragments).2

/-- The last of the scanned fragments is written without the directives at its end, and the others
as they are. -/
theorem syqlFragments_concat {input : List Char} {init : List Fragment} {last : Fragment}
    (h : (scanLines input).fragments = init ++ [last]) :
    ∃ fuel, last.text.length ≤ fuel ∧ syqlFragments input = init ++
      [⟨stripDirectives fuel last.text,
        ⟨last.origin.offset, utf8Len (stripDirectives fuel last.text)⟩⟩] := by
  obtain ⟨hsolid, hlen, -⟩ := exact_scanLines input last (by rw [h]; simp)
  refine ⟨fragmentsSize (scanLines input).fragments, ?_, ?_⟩
  · rw [h]
    unfold fragmentsSize
    rw [List.map_append, List.sum_append, List.map_singleton, List.sum_singleton]
    omega
  · unfold syqlFragments
    dsimp only
    obtain ⟨text, offset, len⟩ := last
    obtain rfl : len = utf8Len text := hlen
    rw [h]
    exact stripTrailingDirectives_concat _ _ init hsolid offset

/-- Without fragments there are none to write. -/
theorem syqlFragments_nil {input : List Char} (h : (scanLines input).fragments = []) :
    syqlFragments input = [] := by
  unfold syqlFragments
  dsimp only
  rw [h]
  rfl

/-- The fragments that are written are parts of the input. -/
theorem exact_syqlFragments (input : List Char) : ∀ f ∈ syqlFragments input, f.Exact input := by
  obtain hnil | ⟨init, last, hlast⟩ := (scanLines input).fragments.eq_nil_or_concat'
  · rw [syqlFragments_nil hnil]
    exact fun f hf => by cases hf
  · have hlines := exact_scanLines input
    obtain ⟨fuel, -, hfragments⟩ := syqlFragments_concat hlast
    rw [hlast] at hlines
    rw [hfragments]
    intro f hf
    obtain hf | rfl := List.mem_append.mp hf |>.imp_right List.mem_singleton.mp
    · exact hlines f (List.mem_append_left _ hf)
    · obtain ⟨hsolid, -, hslice⟩ := hlines last (by simp)
      have hstart := stripDirectives_isPrefix fuel last.text
      exact ⟨solid_stripDirectives fuel hsolid, rfl, hslice.isPrefix hstart⟩

/-- What has been written is exact as far as it goes. -/
def Rewriting.Exact (input : List Char) (w : Rewriting) : Prop :=
  (SourceMap.new w.rewritten w.pieces).Exact input

/-- A piece more, exact if it has an origin. -/
theorem Rewriting.Exact.push {input text : List Char} {w : Rewriting}
    {origin : Option QuerySourceSpan}
    (hw : w.Exact input)
    (h : ∀ o, origin = some o → o.len = utf8Len text ∧ Slice input o.offset text) :
    (w.push text (utf8Len text) origin).Exact input where
  tiles := by
    have htiles := hw.tiles.snoc (utf8Len text) origin
    rwa [← utf8Len_append] at htiles
  holds := by
    intro piece hpiece
    obtain hpiece | hpiece := List.mem_append.mp hpiece
    · exact (hw.holds piece hpiece).append_right text
    · obtain rfl := List.mem_singleton.mp hpiece
      intro o ho
      obtain ⟨hlen, hslice⟩ := h o ho
      exact ⟨hlen, text, hlen.symm,
        ⟨w.rewritten, [], by simp [SourceMap.new, Rewriting.push], rfl⟩, hslice⟩

/-- A fragment more is exact. -/
theorem exact_pushFragment {input : List Char} {w : Rewriting} {indexed : Fragment × Nat}
    (hw : w.Exact input) (h : indexed.1.Exact input) : (pushFragment w indexed).Exact input := by
  unfold pushFragment
  have hfragment : ∀ o, some indexed.1.origin = some o →
      o.len = utf8Len indexed.1.text ∧ Slice input o.offset indexed.1.text :=
        fun o ho => Option.some.inj ho ▸ h.2
  dsimp only
  split_ifs
  · have hspace : (w.push [' '] 1 none).Exact input :=
      @Rewriting.Exact.push input [' '] w none hw fun o ho => by cases ho
    exact hspace.push hfragment
  · exact hw.push hfragment

/-- The statement of exact fragments is exact. -/
theorem exact_writeFragments {input : List Char} {fragments : List Fragment}
    (h : ∀ f ∈ fragments, f.Exact input) :
    (writeFragments fragments).Exact input := by
  have hempty : Rewriting.Exact input {} := ⟨rfl, fun piece hpiece => by cases hpiece⟩
  unfold writeFragments
  dsimp only
  refine List.foldlRecOn _ _ ?_ fun w hw indexed hindexed => ?_
  · split_ifs
    · exact hempty.push fun o ho => by cases ho
    · exact hempty
  · exact exact_pushFragment hw (h _ (List.fst_mem_of_mem_zipIdx hindexed))

/-- The source map of the rewriting is exact for every input. -/
theorem syqlSourceMap_exact (input : List Char) : (parseSyql input).sourceMap.Exact input :=
  exact_writeFragments (exact_syqlFragments input)

example : (parseSyql
    "FROM records WHERE score > 100 SCOPE remote DOWNLOAD csv".toList).sourceMap.rewrittenSql =
    "SELECT * FROM records WHERE score > 100".toList := by decide

end QueryFabric.Dialect
