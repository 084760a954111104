import Mathlib.Data.List.Basic

/-!
# Texts that are read line by line

A text of lines, each with a value in it, is read back by a reader of single lines when no value has
a line break and each line with its value is read as it should be. `LineField` is a line with what
has to be known about its reading, and `read_textLines_iff` says that the text is read back exactly
when every value is harmless.
-/

namespace Lib

/-- A line feed or a carriage return. The two together end one line. -/
def isLineBreak (c : Char) : Bool := c == '\n' || c == '\r'

/-- A test that line feeds and carriage returns fail is failed by every line break. -/
theorem not_isLineBreak_of {p : Char → Bool} (hfeed : p '\n' = false)
    (hreturn : p '\r' = false) {c : Char} (h : p c = true) : isLineBreak c = false := by
  by_contra hbreak
  simp only [Bool.not_eq_false, isLineBreak, Bool.or_eq_true, beq_iff_eq] at hbreak
  obtain rfl | rfl := hbreak
  · rw [hfeed] at h
    cases h
  · rw [hreturn] at h
    cases h

/-- There is no line break in it. -/
def Unbroken (cs : List Char) : Prop := ∀ c ∈ cs, isLineBreak c = false

/-- Whether a text is on one line can be checked. -/
instance (cs : List Char) : Decidable (Unbroken cs) :=
  List.decidableBAll (fun c => isLineBreak c = false) cs

/-- No characters are on one line. -/
theorem unbroken_nil : Unbroken [] := List.forall_mem_nil _

/-- Two texts on one line are on one line together. -/
theorem Unbroken.append {as bs : List Char} (ha : Unbroken as) (hb : Unbroken bs) :
    Unbroken (as ++ bs) :=
  List.forall_mem_append.mpr ⟨ha, hb⟩

/-- The lines of a text that are not empty. -/
def textLines (text : List Char) : List (List Char) :=
  (text.splitOnP isLineBreak).filter fun line => !line.isEmpty

/-- The first line of a text, before its line break. -/
theorem textLines_append {line : List Char} (hne : line ≠ []) (hline : Unbroken line) {c : Char}
    (hc : isLineBreak c = true) (rest : List Char) :
    textLines (line ++ c :: rest) = line :: textLines rest := by
  have hempty : (!line.isEmpty) = true := by simpa using hne
  rw [textLines, List.splitOnP_append_cons_of_forall_mem hline c hc rest]
  exact List.filter_cons_of_pos hempty

/-- A break at the end of a text makes no line. -/
theorem textLines_concat (text : List Char) {c : Char} (hc : isLineBreak c = true) :
    textLines (text ++ [c]) = textLines text := by
  rw [textLines, List.splitOnP_append_cons text [] hc, List.splitOnP_nil, List.filter_append]
  exact List.append_nil _

/-- A text with a line break is one without, a break and a rest. -/
theorem exists_break {cs : List Char} (h : ¬ Unbroken cs) : ∃ part c rest,
    cs = part ++ c :: rest ∧ Unbroken part ∧ isLineBreak c = true := by
  induction cs with
  | nil => exact absurd (List.forall_mem_nil _) h
  | cons c cs ih =>
    cases hc : isLineBreak c with
    | true => exact ⟨[], c, cs, rfl, List.forall_mem_nil _, hc⟩
    | false =>
      obtain ⟨part, b, rest, rfl, hpart, hb⟩ := ih fun hcs => h (List.forall_mem_cons.mpr ⟨hc, hcs⟩)
      exact ⟨c :: part, b, rest, rfl, List.forall_mem_cons.mpr ⟨hc, hpart⟩, hb⟩

variable {α : Type} {read : List Char → Option α}

/-- A line with a value in it, for a reader of lines. `line` is what the reader should give, and a
line that stops within the value is never read so. -/
structure LineField (read : List Char → Option α) where
  before : List Char
  value : List Char
  after : List Char
  line : α
  Harmless : Prop
  before_ne : before ≠ []
  before_unbroken : Unbroken before
  after_unbroken : Unbroken after
  unbroken : Harmless → Unbroken value
  read_iff : Unbroken value → (read (before ++ value ++ after) = some line ↔ Harmless)
  read_part : ∀ part, part.length < value.length → read (before ++ part) ≠ some line

namespace LineField

/-- A line without a value. -/
def fixed (text : List Char) (line : α) (hread : read text = some line) (hne : text ≠ [])
    (h : Unbroken text) :
    LineField read where
  before := text
  value := []
  after := []
  line := line
  Harmless := True
  before_ne := hne
  before_unbroken := h
  after_unbroken := unbroken_nil
  unbroken _ := unbroken_nil
  read_iff _ := by
    rw [List.append_nil, List.append_nil]
    exact iff_of_true hread trivial
  read_part part hpart := absurd hpart (Nat.not_lt_zero _)

/-- The line with its end. -/
def text (field : LineField read) : List Char :=
  field.before ++ field.value ++ field.after ++ ['\n']

/-- Reading a text whose first line is the field's. -/
theorem read_cons_iff (field : LineField read) (rest : List Char) (lines : List α) :
    (textLines (field.text ++ rest)).mapM read = some (field.line :: lines) ↔
      field.Harmless ∧ (textLines rest).mapM read = some lines := by
  have hbefore : ∀ part, field.before ++ part ≠ [] :=
    fun _ h => field.before_ne (List.append_eq_nil_iff.mp h).1
  have hcons : ∀ (line : List Char) (others : List (List Char)),
      (line :: others).mapM read = some (field.line :: lines) ↔
        read line = some field.line ∧ others.mapM read = some lines := by
    intro line others
    simp [List.mapM_cons, Option.bind_eq_some_iff]
  by_cases hvalue : Unbroken field.value
  -- The line ends where the field does.
  · have hline : Unbroken (field.before ++ field.value ++ field.after) :=
      (field.before_unbroken.append hvalue).append field.after_unbroken
    have hne : field.before ++ field.value ++ field.after ≠ [] := by
      rw [List.append_assoc]
      exact hbefore _
    rw [text, List.append_assoc _ ['\n'], List.singleton_append,
      textLines_append hne hline (by decide), hcons, field.read_iff hvalue]
  · -- The line stops at the break, and what is read of it is another one.
    obtain ⟨part, c, after, heq, hpart, hc⟩ := exists_break hvalue
    refine iff_of_false (fun h => ?_) fun h => hvalue (field.unbroken h.1)
    have htext : field.text ++ rest = (field.before ++ part) ++ c ::
        (after ++ field.after ++ ['\n'] ++ rest) := by
      rw [text, heq]
      simp only [List.append_assoc, List.cons_append]
    rw [htext, textLines_append (hbefore part) (field.before_unbroken.append hpart) hc, hcons] at h
    refine field.read_part part ?_ h.1
    rw [heq, List.length_append, List.length_cons]
    omega

/-- A text of such lines is read back exactly when all values are harmless. -/
theorem read_textLines_iff (fields : List (LineField read)) :
    (textLines (fields.flatMap text)).mapM read = some (fields.map line) ↔ ∀ field ∈ fields,
    field.Harmless := by
  induction fields with
  | nil => exact iff_of_true rfl (List.forall_mem_nil _)
  | cons field fields ih =>
    rw [List.flatMap_cons, List.map_cons, read_cons_iff, ih, List.forall_mem_cons]

end LineField

end Lib
