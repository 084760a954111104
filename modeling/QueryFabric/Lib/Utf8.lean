import Mathlib.Algebra.BigOperators.Group.List.Basic
import Mathlib.Algebra.Ring.Nat
import Mathlib.Data.List.Basic

/-!
# Byte offsets into a text

A text is a list of characters, and its offsets count the bytes of its UTF-8 form. `Slice` says that
a part of a text starts at an offset. Slices compose (`Slice.trans`), and a slice of a text stays
one when the text grows.
-/

namespace Lib

/-- The bytes of a text in UTF-8. -/
def utf8Len (text : List Char) : Nat := (text.map Char.utf8Size).sum

/-- An empty text has no bytes. -/
@[simp]
theorem utf8Len_nil : utf8Len [] = 0 := rfl

/-- The bytes of a text with a character in front. -/
@[simp]
theorem utf8Len_cons (c : Char) (cs : List Char) :
    utf8Len (c :: cs) = c.utf8Size + utf8Len cs := rfl

/-- The bytes of two texts. -/
@[simp]
theorem utf8Len_append (cs ds : List Char) : utf8Len (cs ++ ds) = utf8Len cs + utf8Len ds := by
  unfold utf8Len
  rw [List.map_append, List.sum_append]

/-- Every character takes four bytes at most. -/
theorem utf8ByteSize_ofList_le (cs : List Char) :
    (String.ofList cs).utf8ByteSize ≤ 4 * cs.length := by
  induction cs with
  | nil => exact Nat.zero_le _
  | cons c cs ih =>
    have hc := c.utf8Size_le_four
    rw [String.ofList_cons, String.utf8ByteSize_append, String.utf8ByteSize_singleton,
      List.length_cons]
    omega

/-- Every character takes a byte at least. -/
theorem length_le_utf8Len : ∀ cs : List Char, cs.length ≤ utf8Len cs
  | [] => Nat.le_refl 0
  | c :: cs => by
    have hc := c.utf8Size_pos
    have ih := length_le_utf8Len cs
    rw [List.length_cons, utf8Len_cons]
    omega

/-- A part of a text starts at an offset. -/
def Slice (text : List Char) (offset : Nat) (part : List Char) : Prop :=
  ∃ before after : List Char, text = before ++ part ++ after ∧ utf8Len before = offset

variable {text part inner : List Char} {offset offset' : Nat}

/-- A text is a slice of itself. -/
theorem Slice.whole (text : List Char) : Slice text 0 text := ⟨[], [], by simp, rfl⟩

/-- A part that is followed by more. -/
theorem Slice.ofAppend (before part after : List Char) :
    Slice (before ++ part ++ after) (utf8Len before) part :=
  ⟨before, after, rfl, rfl⟩

/-- A slice of a slice. -/
theorem Slice.trans (h : Slice text offset part) (h' : Slice part offset' inner) :
    Slice text (offset + offset') inner := by
  obtain ⟨before, after, rfl, rfl⟩ := h
  obtain ⟨before', after', rfl, rfl⟩ := h'
  exact ⟨before ++ before', after' ++ after, by simp, utf8Len_append before before'⟩

/-- The start of a part starts where the part does. -/
theorem Slice.isPrefix (h : Slice text offset part) (h' : inner <+: part) :
    Slice text offset inner := by
  obtain ⟨rest, rfl⟩ := h'
  exact h.trans (Slice.ofAppend [] inner rest)

/-- The end of a part starts later by what comes before it. -/
theorem Slice.isSuffix {before : List Char} (h : Slice text offset (before ++ inner)) :
    Slice text (offset + utf8Len before) inner :=
  h.trans ⟨before, [], by simp, rfl⟩

/-- A slice of a text that goes on. -/
theorem Slice.append_right (h : Slice text offset part) (more : List Char) :
    Slice (text ++ more) offset part := by
  obtain ⟨before, after, rfl, rfl⟩ := h
  exact ⟨before, after ++ more, by simp, rfl⟩

/-- A part ends within the text. -/
theorem Slice.end_le (h : Slice text offset part) : offset + utf8Len part ≤ utf8Len text := by
  obtain ⟨before, after, rfl, rfl⟩ := h
  simp only [utf8Len_append]
  omega

end Lib
