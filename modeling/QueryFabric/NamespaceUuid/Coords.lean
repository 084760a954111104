import QueryFabric.NamespaceUuid

/-!
# Ids from coordinates

`from_coords` of `crates/queryfabric-namespace-uuid/src/lib.rs`. Five decimal numbers are written
into a stack buffer, with colons between them, and an error of the writer is dropped. A number has
at most 20 characters, so that all of them and the colons have room (`size_coordsText_le`) and
nothing is cut. The colons part the numbers again, and a number can be read off its digits
(`coordsName_exact`).
-/

namespace QueryFabric.NamespaceUuid

/-- The bytes that the stack buffer of `from_coords` holds. -/
def coordsBufferSize : Nat := 128

/-- The `&mut [u8]` that is written to, as the bytes of the buffer before it. -/
structure Cursor where
  bytes : ByteArray
  fits : bytes.size ≤ coordsBufferSize

namespace Cursor

/-- The empty cursor. -/
def start : Cursor := ⟨.empty, Nat.zero_le _⟩

/-- As much is written as there is room for. -/
def write (cursor : Cursor) (text : String) : Cursor where
  bytes := cursor.bytes ++ text.toByteArray.extract 0 (coordsBufferSize - cursor.bytes.size)
  fits := by
    have hfits := cursor.fits
    rw [ByteArray.size_append, ByteArray.size_extract]
    omega

/-- `write_all`: it is an error where there is no room for all. -/
def writeAll (cursor : Cursor) (text : String) : Cursor × Except String Unit :=
  if text.utf8ByteSize ≤ coordsBufferSize - cursor.bytes.size then (cursor.write text, .ok ())
  else (cursor.write text, .error "failed to write whole buffer")

/-- `write!`, for the pieces of the formatted text. It stops at the first error. -/
def writeFmt : Cursor → List String → Cursor × Except String Unit
  | cursor, [] => (cursor, .ok ())
  | cursor, piece :: pieces =>
    match cursor.writeAll piece with
    | (next, .ok ()) => next.writeFmt pieces
    | (next, .error error) => (next, .error error)

end Cursor

/-- The pieces of `"{pre}:{post}:{x}:{y}:{z}"`. -/
def coordsPieces (pre post : UInt64) (x y z : Int64) : List String :=
  [toString pre.toNat, ":", toString post.toNat, ":", toString x.toInt, ":", toString y.toInt, ":",
    toString z.toInt]

/-- The bytes that `from_coords` hashes. An error is dropped. -/
def coordsName (pre post : UInt64) (x y z : Int64) : ByteArray :=
  (Cursor.start.writeFmt (coordsPieces pre post x y z)).1.bytes

/-- `from_coords`, for a `Uuid::new_v5`. -/
def fromCoords {Uuid : Type} (newV5 : Uuid → ByteArray → Uuid) (namespaceId : Uuid)
    (pre post : UInt64) (x y z : Int64) : Uuid :=
  newV5 namespaceId (coordsName pre post x y z)

/-! ## Decimal numbers -/

/-- A text of one-byte characters has as many bytes as characters. -/
theorem utf8ByteSize_ofList : ∀ {cs : List Char}, (∀ c ∈ cs, c.utf8Size = 1) →
    (String.ofList cs).utf8ByteSize = cs.length
  | [], _ => rfl
  | c :: cs, h => by
    obtain ⟨hc, hcs⟩ := List.forall_mem_cons.mp h
    rw [String.ofList_cons, String.utf8ByteSize_append, String.utf8ByteSize_singleton, hc,
      utf8ByteSize_ofList hcs, List.length_cons, Nat.add_comm]

/-- A digit is one byte. -/
theorem utf8Size_of_isDigit {c : Char} (h : c.isDigit = true) : c.utf8Size = 1 := by
  have hle : c.val ≤ 57 := by
    rw [Char.isDigit, Bool.and_eq_true, decide_eq_true_eq, decide_eq_true_eq] at h
    exact h.2
  exact if_pos (UInt32.le_trans hle (by decide))

/-- The decimal text of a number has digits only. -/
theorem isDigit_of_mem_repr {n : Nat} {c : Char} (h : c ∈ n.repr.toList) : c.isDigit = true := by
  rw [Nat.toList_repr] at h
  exact Nat.isDigit_of_mem_toDigits (by decide) (by decide) h

/-- The decimal text determines the number. -/
theorem repr_injective : Function.Injective Nat.repr := by
  intro m n h
  have hdigits : Nat.toDigits 10 m = Nat.toDigits 10 n := by
    rw [← Nat.toList_repr, ← Nat.toList_repr, h]
  rw [← Nat.ofDigitChars_ten_toDigits (n := m), hdigits, Nat.ofDigitChars_ten_toDigits]

/-- A number below a power of ten has no more bytes than the power has zeros. -/
theorem utf8ByteSize_repr_le {n k : Nat} (hk : 0 < k) (hn : n < 10 ^ k) :
    n.repr.utf8ByteSize ≤ k := by
  have hsize : (String.ofList n.repr.toList).utf8ByteSize = n.repr.toList.length :=
    utf8ByteSize_ofList fun c hc => utf8Size_of_isDigit (isDigit_of_mem_repr hc)
  rw [String.ofList_toList, Nat.toList_repr] at hsize
  rw [hsize]
  exact (Nat.length_toDigits_le_iff (by decide) hk).mpr hn

/-- The decimal text of a 64-bit number has at most twenty bytes. -/
theorem utf8ByteSize_toString_uint64_le (n : UInt64) : (toString n.toNat).utf8ByteSize ≤ 20 :=
  utf8ByteSize_repr_le (by decide) (Nat.lt_trans n.toNat_lt (by decide))

/-- A sign takes the place of a digit: `2 ^ 63` has 19 of them. -/
theorem utf8ByteSize_toString_int64_le (i : Int64) : (toString i.toInt).utf8ByteSize ≤ 20 := by
  have hlt := i.toInt_lt
  have hle := i.le_toInt
  rw [Int.toString_eq_repr]
  cases hi : i.toInt with
  | ofNat n =>
    rw [hi] at hlt
    have hn : n < 2 ^ 63 := Int.ofNat_lt.mp hlt
    exact utf8ByteSize_repr_le (by decide) (by omega)
  | negSucc n =>
    rw [hi] at hle
    have hsize : n.succ.repr.utf8ByteSize ≤ 19 := utf8ByteSize_repr_le (by decide) (by omega)
    unfold Int.repr
    rw [String.utf8ByteSize_append]
    exact Nat.add_le_add_left hsize 1

/-- No number has a colon in it. -/
theorem colon_notMem_toString_nat (n : Nat) : ':' ∉ (toString n).toList :=
  fun h => absurd (isDigit_of_mem_repr h) (by decide)

/-- The text of an integer has no colon. -/
theorem colon_notMem_toString_int (i : Int) : ':' ∉ (toString i).toList := by
  rw [Int.toString_eq_repr]
  cases i with
  | ofNat n => exact colon_notMem_toString_nat n
  | negSucc n =>
    intro h
    unfold Int.repr at h
    rw [String.toList_append, List.mem_append] at h
    obtain hsign | hdigit := h
    · exact absurd (List.mem_singleton.mp hsign) (by decide)
    · exact colon_notMem_toString_nat n.succ hdigit

/-- A number is read off its text. -/
theorem toString_int_injective : Function.Injective (toString : Int → String) := by
  -- A sign is not a digit.
  have hsign : ∀ m n : Nat, m.repr ≠ "-" ++ n.repr := by
    intro m n h
    have hmem : '-' ∈ m.repr.toList := by
      rw [h, String.toList_append]
      exact List.mem_cons_self
    exact absurd (isDigit_of_mem_repr hmem) (by decide)
  intro i j h
  rw [Int.toString_eq_repr, Int.toString_eq_repr] at h
  cases i with
  | ofNat m =>
    cases j with
    | ofNat n => exact congrArg Int.ofNat (repr_injective h)
    | negSucc n => exact absurd h (hsign m n.succ)
  | negSucc m =>
    cases j with
    | ofNat n => exact absurd h.symm (hsign n m.succ)
    | negSucc n =>
      have hdigits : m.succ.repr = n.succ.repr := by
        have hlists := congrArg String.toList h
        unfold Int.repr at hlists
        rw [String.toList_append, String.toList_append] at hlists
        exact String.toList_inj.mp (List.append_cancel_left hlists)
      exact congrArg Int.negSucc (Nat.succ.inj (repr_injective hdigits))

/-! ## The text -/

/-- The numbers of a key. -/
def coordsParts (pre post : UInt64) (x y z : Int64) : List String :=
  [toString pre.toNat, toString post.toNat, toString x.toInt, toString y.toInt, toString z.toInt]

/-- `"pre:post:x:y:z"`. -/
def coordsText (pre post : UInt64) (x y z : Int64) : String :=
  toString pre.toNat ++ ":" ++ toString post.toNat ++ ":" ++ toString x.toInt ++ ":" ++
    toString y.toInt ++ ":" ++ toString z.toInt

/-- The text of the coordinates is its parts joined. -/
theorem coordsText_eq_join (pre post : UInt64) (x y z : Int64) :
    coordsText pre post x y z = join (coordsParts pre post x y z) := by
  simp only [coordsText, coordsParts, join, String.intercalate_cons_cons,
    String.intercalate_singleton, String.append_assoc]

/-- The pieces that the formatter writes make the text of the coordinates. -/
theorem join_coordsPieces (pre post : UInt64) (x y z : Int64) :
    String.join (coordsPieces pre post x y z) = coordsText pre post x y z := by
  simp [coordsPieces, coordsText, String.append_assoc]

/-- Five numbers and four colons are no more than 104 bytes. -/
theorem utf8ByteSize_coordsText_le (pre post : UInt64) (x y z : Int64) :
    (coordsText pre post x y z).utf8ByteSize ≤ 104 := by
  have hpre := utf8ByteSize_toString_uint64_le pre
  have hpost := utf8ByteSize_toString_uint64_le post
  have hx := utf8ByteSize_toString_int64_le x
  have hy := utf8ByteSize_toString_int64_le y
  have hz := utf8ByteSize_toString_int64_le z
  have hcolon : ":".utf8ByteSize = 1 := rfl
  simp only [coordsText, String.utf8ByteSize_append, hcolon]
  omega

namespace Cursor

/-- A text that there is room for is written as it is. -/
theorem writeAll_of_fits {cursor : Cursor} {text : String}
    (h : cursor.bytes.size + text.utf8ByteSize ≤ coordsBufferSize) :
    ∃ next, cursor.writeAll text = (next, .ok ()) ∧
    next.bytes = cursor.bytes ++ text.toByteArray := by
  have hroom : text.utf8ByteSize ≤ coordsBufferSize - cursor.bytes.size := Nat.le_sub_of_add_le' h
  refine ⟨cursor.write text, if_pos hroom, ?_⟩
  have hall : text.toByteArray.extract 0 (coordsBufferSize - cursor.bytes.size) =
      text.toByteArray := by
    have hextract := ByteArray.extract_zero_max_size (a := text.toByteArray)
      (i := coordsBufferSize - cursor.bytes.size)
    rwa [String.size_toByteArray, Nat.max_eq_left hroom] at hextract
  exact congrArg (cursor.bytes ++ ·) hall

/-- Pieces that fit in the buffer are written in full. -/
theorem writeFmt_of_fits : ∀ {pieces : List String} {cursor : Cursor},
    cursor.bytes.size + (String.join pieces).utf8ByteSize ≤ coordsBufferSize →
      ∃ next, cursor.writeFmt pieces = (next, .ok ()) ∧
        next.bytes = cursor.bytes ++ (String.join pieces).toByteArray
  | [], cursor, _ => ⟨cursor, rfl, ByteArray.append_empty.symm⟩
  | piece :: pieces, cursor, h => by
    rw [String.join_cons, String.utf8ByteSize_append] at h
    have hpiece : cursor.bytes.size + piece.utf8ByteSize ≤ coordsBufferSize := by omega
    obtain ⟨next, hnext, hbytes⟩ := writeAll_of_fits hpiece
    have hsize : next.bytes.size = cursor.bytes.size + piece.utf8ByteSize := by
      rw [hbytes, ByteArray.size_append]
      rfl
    have hpieces : next.bytes.size + (String.join pieces).utf8ByteSize ≤
        coordsBufferSize := by omega
    obtain ⟨last, hlast, hall⟩ := writeFmt_of_fits hpieces
    refine ⟨last, ?_, ?_⟩
    · rw [writeFmt, hnext]
      exact hlast
    · rw [hall, hbytes, String.join_cons, String.toByteArray_append, ByteArray.append_assoc]

end Cursor

/-- No write fails, and the bytes that are hashed are those of the text. -/
theorem writeFmt_coordsPieces (pre post : UInt64) (x y z : Int64) :
    (Cursor.start.writeFmt (coordsPieces pre post x y z)).2 = .ok () ∧
      coordsName pre post x y z = (coordsText pre post x y z).toByteArray := by
  have hsize : Cursor.start.bytes.size + (String.join (coordsPieces pre post x y z)).utf8ByteSize ≤
      coordsBufferSize := by
    rw [join_coordsPieces]
    exact Nat.le_trans (Nat.le_of_eq (Nat.zero_add _))
      (Nat.le_trans (utf8ByteSize_coordsText_le pre post x y z) (by decide))
  obtain ⟨cursor, hcursor, hbytes⟩ := Cursor.writeFmt_of_fits hsize
  refine ⟨by rw [hcursor], ?_⟩
  rw [coordsName, hcursor, hbytes, join_coordsPieces]
  exact ByteArray.empty_append

/-- The colons of the text are those between the numbers. -/
theorem splitOn_coordsText (pre post : UInt64) (x y z : Int64) :
    (coordsText pre post x y z).toList.splitOn ':' =
      (coordsParts pre post x y z).map String.toList := by
  have hcolons : ∀ part ∈ (coordsParts pre post x y z).map String.toList, ':' ∉ part := by
    simp only [coordsParts, List.map_cons, List.map_nil, List.forall_mem_cons]
    exact ⟨colon_notMem_toString_nat _, colon_notMem_toString_nat _, colon_notMem_toString_int _,
      colon_notMem_toString_int _, colon_notMem_toString_int _, List.forall_mem_nil _⟩
  have hlist : (coordsText pre post x y z).toList =
      [':'].intercalate ((coordsParts pre post x y z).map String.toList) := by
    rw [coordsText_eq_join, join, String.toList_intercalate]
    rfl
  rw [hlist]
  exact List.splitOn_intercalate ':' hcolons (List.cons_ne_nil _ _)

/-- Nothing of the text of a key is cut, and no two keys have the same bytes. -/
theorem coordsName_exact :
    (∀ (pre post : UInt64) (x y z : Int64),
      (coordsText pre post x y z).utf8ByteSize ≤ coordsBufferSize ∧
        (Cursor.start.writeFmt (coordsPieces pre post x y z)).2 = .ok () ∧
          coordsName pre post x y z = (coordsText pre post x y z).toByteArray) ∧
      Function.Injective fun key : UInt64 × UInt64 × Int64 × Int64 × Int64 =>
        coordsName key.1 key.2.1 key.2.2.1 key.2.2.2.1 key.2.2.2.2 := by
  refine ⟨fun pre post x y z => ⟨?_, writeFmt_coordsPieces pre post x y z⟩, ?_⟩
  · exact Nat.le_trans (utf8ByteSize_coordsText_le pre post x y z) (by decide)
  · rintro ⟨pre, post, x, y, z⟩ ⟨pre', post', x', y', z'⟩ h
    dsimp only at h
    rw [(writeFmt_coordsPieces pre post x y z).2, (writeFmt_coordsPieces pre' post' x' y' z').2,
      String.toByteArray_inj] at h
    -- The colons are read back: no part holds one.
    have hparts : coordsParts pre post x y z = coordsParts pre' post' x' y' z' := by
      refine List.map_injective_iff.mpr (fun s t => String.toList_inj.mp) ?_
      rw [← splitOn_coordsText, ← splitOn_coordsText, h]
    obtain ⟨hpre, hparts⟩ := List.cons.inj hparts
    obtain ⟨hpost, hparts⟩ := List.cons.inj hparts
    obtain ⟨hx, hparts⟩ := List.cons.inj hparts
    obtain ⟨hy, hparts⟩ := List.cons.inj hparts
    obtain ⟨hz, -⟩ := List.cons.inj hparts
    -- Decimal texts determine their numbers.
    obtain rfl := UInt64.toNat_inj.mp (repr_injective hpre)
    obtain rfl := UInt64.toNat_inj.mp (repr_injective hpost)
    obtain rfl := Int64.toInt_inj.mp (toString_int_injective hx)
    obtain rfl := Int64.toInt_inj.mp (toString_int_injective hy)
    obtain rfl := Int64.toInt_inj.mp (toString_int_injective hz)
    rfl

/-- The bound on the text is reached. -/
example : (coordsText 18446744073709551615 18446744073709551615 .minValue .minValue
    .minValue).utf8ByteSize = 104 := by
  decide +kernel

section Ids

variable {Uuid : Type} (newV5 : Uuid → ByteArray → Uuid) (namespaceId : Uuid)

/-- The id of coordinates is that of their decimal texts as parts of a key. -/
theorem fromCoords_eq_joinedUuid (pre post : UInt64) (x y z : Int64) :
    fromCoords newV5 namespaceId pre post x y z =
      joinedUuid newV5 namespaceId (coordsParts pre post x y z) := by
  have hsize := utf8ByteSize_coordsText_le pre post x y z
  have hkept : ¬ColonsLost [] (coordsParts pre post x y z) := by
    rintro ⟨first, rest, hparts, -, -, hfull⟩
    have hle := utf8ByteSize_join_le first rest
    rw [coordsText_eq_join, hparts] at hsize
    rw [List.nil_append] at hfull
    have hbuffer : bufferSize = 256 := rfl
    omega
  rw [fromCoords, joinedUuid, joinedName_eq_join hkept, (writeFmt_coordsPieces pre post x y z).2,
    coordsText_eq_join]

end Ids

end QueryFabric.NamespaceUuid
