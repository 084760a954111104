import QueryFabric.Ir.Syntax
import QueryFabric.Lib.Utf8

/-!
# Source maps

The source map of `crates/queryfabric-dialect-sql/src/source_map.rs`. A dialect rewrites its input
before the SQL parser reads it, and its map cuts the rewritten text into pieces, of which some come
from a range of the input. A map is exact when its pieces tile the rewritten text and every piece
with an origin holds the characters of that range.
-/

namespace QueryFabric

/-- `QuerySourceSpan::end`. -/
def QuerySourceSpan.stop (span : QuerySourceSpan) : Nat := span.offset + span.len

/-- `QuerySourceSpan::union`. -/
def QuerySourceSpan.union (span other : QuerySourceSpan) : QuerySourceSpan :=
  let start := min span.offset other.offset
  let stop := max span.stop other.stop
  ⟨start, stop - start⟩

/-- `reduce(QuerySourceSpan::union)`. -/
def QuerySourceSpan.reduceUnion : List QuerySourceSpan → Option QuerySourceSpan
  | [] => none
  | span :: spans => some (spans.foldl QuerySourceSpan.union span)

namespace Dialect

open Lib

/-- `SourcePiece`. -/
structure SourcePiece where
  rewrittenStart : Nat
  rewrittenLen : Nat
  origin : Option QuerySourceSpan
deriving DecidableEq, Repr

/-- Whether a piece overlaps a range of the rewritten text. -/
def SourcePiece.overlaps (piece : SourcePiece) (rewritten : QuerySourceSpan) : Bool :=
  piece.rewrittenStart < rewritten.stop && rewritten.offset < piece.rewrittenStart +
    piece.rewrittenLen

/-- A position that the SQL parser reports: a line and a column in characters, both from 1. -/
structure Location where
  line : Nat
  column : Nat
deriving DecidableEq, Repr

/-- A span that the SQL parser reports. -/
structure SqlSpan where
  start : Location
  stop : Location
deriving DecidableEq, Repr

/-- `Span::empty` of the SQL parser. -/
def SqlSpan.empty : SqlSpan := ⟨⟨0, 0⟩, ⟨0, 0⟩⟩

/-- The offsets after the line feeds of a text that starts at an offset. -/
def lineStartsFrom (offset : Nat) : List Char → List Nat
  | [] => []
  | c :: cs =>
    if c = '\n' then (offset + 1) :: lineStartsFrom (offset + c.utf8Size) cs
    else lineStartsFrom (offset + c.utf8Size) cs

/-- `compute_line_starts`. -/
def computeLineStarts (input : List Char) : List Nat := 0 :: lineStartsFrom 0 input

/-- `SourceMap`. -/
structure SourceMap where
  rewrittenSql : List Char
  pieces : List SourcePiece
  lineStarts : List Nat
deriving DecidableEq, Repr

namespace SourceMap

/-- `SourceMap::new`. -/
def new (rewrittenSql : List Char) (pieces : List SourcePiece) : SourceMap where
  rewrittenSql := rewrittenSql
  pieces := pieces
  lineStarts := computeLineStarts rewrittenSql

/-- `SourceMap::identity`. -/
def identity (body : List Char) (bodyOffset : Nat) : SourceMap :=
  new body [⟨0, utf8Len body, some ⟨bodyOffset, utf8Len body⟩⟩]

variable (map : SourceMap)

/-- `location_to_offset`. -/
def locationToOffset (location : Location) : Option Nat :=
  if location.line = 0 ∨ location.column = 0 then none
  else do
    let lineStart ← map.lineStarts[location.line - 1]?
    some (lineStart + (location.column - 1))

/-- `span_to_rewritten`. -/
def spanToRewritten (span : SqlSpan) : Option QuerySourceSpan :=
  if span = SqlSpan.empty then none
  else do
    let start ← map.locationToOffset span.start
    let stop ← map.locationToOffset span.stop
    some ⟨start, max (stop - start) 1⟩

/-- `map_sql_span`. -/
def mapSqlSpan (span : SqlSpan) : Option QuerySourceSpan := do
  let rewritten ← map.spanToRewritten span
  QuerySourceSpan.reduceUnion
    (map.pieces.filterMap fun piece => if piece.overlaps rewritten then piece.origin else none)

end SourceMap

/-! ## Exact maps -/

/-- The pieces follow one another from one offset to another. -/
def Tiles : Nat → List SourcePiece → Nat → Prop
  | start, [], stop => start = stop
  | start, piece :: pieces, stop =>
    piece.rewrittenStart = start ∧ Tiles (start + piece.rewrittenLen) pieces stop

/-- The characters of a piece with an origin are those of the origin. -/
def SourcePiece.Holds (input rewritten : List Char) (piece : SourcePiece) : Prop :=
  ∀ origin, piece.origin = some origin → origin.len = piece.rewrittenLen ∧
    ∃ text, utf8Len text = origin.len ∧ Slice rewritten piece.rewrittenStart text ∧
      Slice input origin.offset text

/-- The pieces of a map tile the rewritten text, and those with an origin hold its characters. -/
structure SourceMap.Exact (input : List Char) (map : SourceMap) : Prop where
  tiles : Tiles 0 map.pieces (utf8Len map.rewrittenSql)
  holds : ∀ piece ∈ map.pieces, piece.Holds input map.rewrittenSql

/-- A piece more behind the others. -/
theorem Tiles.snoc : ∀ {start stop : Nat} {pieces : List SourcePiece},
    Tiles start pieces stop → ∀ (len : Nat)
    (origin : Option QuerySourceSpan), Tiles start (pieces ++ [⟨stop, len, origin⟩]) (stop + len)
  | _, _, [], h, len, origin => by
    obtain rfl := h
    exact ⟨rfl, rfl⟩
  | _, _, _ :: _, h, len, origin => ⟨h.1, h.2.snoc len origin⟩

/-- A piece holds its characters also when the rewritten text grows. -/
theorem SourcePiece.Holds.append_right {input rewritten : List Char} {piece : SourcePiece}
    (h : piece.Holds input rewritten) (more : List Char) :
    piece.Holds input (rewritten ++ more) := by
  intro origin horigin
  obtain ⟨hlen, text, htext, hrewritten, hinput⟩ := h origin horigin
  exact ⟨hlen, text, htext, hrewritten.append_right more, hinput⟩

/-- The map of a dialect that reads a part of the input as it stands is exact. -/
theorem SourceMap.exact_identity {input body : List Char} {bodyOffset : Nat}
    (h : Slice input bodyOffset body) :
    (identity body bodyOffset).Exact input where
  tiles := ⟨rfl, Nat.zero_add _⟩
  holds := by
    intro piece hpiece origin horigin
    obtain rfl := List.mem_singleton.mp hpiece
    obtain rfl := Option.some.inj horigin
    exact ⟨rfl, body, rfl, Slice.whole body, h⟩

end Dialect

end QueryFabric
