import QueryFabric.Lib.Lines

/-!
# RIS texts

A RIS text has a line for each value, with a tag of two characters before it. The values are pasted
into the lines, and `readPairs_join_iff` says that they are read back exactly when there is no line
break in them.
-/

namespace Lib.Ris

/-- A line of a RIS text: a tag of two characters, and a value. -/
def readLine : List Char → Option (String × String)
  | a :: b :: ' ' :: ' ' :: '-' :: ' ' :: value =>
    if a.isUpper && (b.isUpper || b.isDigit) then
      some (String.ofList [a, b], String.ofList value) else none
  | _ => none

/-- The reader of RIS texts. -/
def readPairs (text : List Char) : Option (List (String × String)) := (textLines text).mapM readLine

/-- A tag of two characters. -/
def isTag (tag : String) : Bool :=
  match tag.toList with
  | [a, b] => a.isUpper && (b.isUpper || b.isDigit)
  | _ => false

/-- A line with a tag and a value. -/
def line (pair : String × String) : String := pair.1 ++ ("  - " ++ (pair.2 ++ "\n"))

/-- A line with a tag is read back. -/
theorem readLine_append {tag : String} (h : isTag tag = true) (value : List Char) :
    readLine (tag.toList ++ ("  - ".toList ++ value)) = some (tag, String.ofList value) := by
  unfold isTag at h
  split at h
  · rename_i a b htag
    have hread : readLine ([a, b] ++ ("  - ".toList ++ value)) =
        some (String.ofList [a, b], String.ofList value) :=
      if_pos h
    rw [htag, hread, ← htag, String.ofList_toList]
  · cases h

/-- A tag is on one line. -/
theorem unbroken_of_isTag {tag : String} (h : isTag tag = true) : Unbroken tag.toList := by
  have hletter : ∀ c : Char, (c.isUpper || c.isDigit) = true → isLineBreak c = false := fun _ =>
    not_isLineBreak_of (p := fun c => c.isUpper || c.isDigit) rfl rfl
  unfold isTag at h
  split at h
  · rename_i a b htag
    obtain ⟨ha, hb⟩ := Bool.and_eq_true_iff.mp h
    rw [htag]
    exact List.forall_mem_cons.mpr ⟨hletter a (by simp [ha]),
      List.forall_mem_singleton.mpr (hletter b hb)⟩
  · cases h

/-- The line as one with a value, which is harmless without a line break. -/
def field (pair : String × String) (h : isTag pair.1 = true) : LineField readLine where
  before := pair.1.toList ++ "  - ".toList
  value := pair.2.toList
  after := []
  line := pair
  Harmless := Unbroken pair.2.toList
  before_ne := List.append_ne_nil_of_right_ne_nil _ (List.cons_ne_nil _ _)
  before_unbroken := (unbroken_of_isTag h).append (by decide)
  after_unbroken := unbroken_nil
  unbroken h := h
  read_iff hvalue := by
    rw [List.append_nil, List.append_assoc, readLine_append h, String.ofList_toList]
    exact iff_of_true rfl hvalue
  read_part part hpart := by
    rw [List.append_assoc, readLine_append h]
    intro heq
    have hvalue : String.ofList part = pair.2 := congrArg Prod.snd (Option.some.inj heq)
    rw [← hvalue, String.toList_ofList] at hpart
    exact Nat.lt_irrefl _ hpart

/-- The text of a field is its line. -/
theorem text_field (pair : String × String) (h : isTag pair.1 = true) :
    (field pair h).text = (line pair).toList := by
  have hend : "\n".toList = ['\n'] := rfl
  simp only [field, LineField.text, line, String.toList_append, List.append_assoc, List.nil_append,
    hend]

/-- Lines with tags are read back exactly when there is no line break in a value. -/
theorem readPairs_join_iff {pairs : List (String × String)}
    (htags : ∀ pair ∈ pairs, isTag pair.1 = true) :
    readPairs (String.join (pairs.map line)).toList = some pairs ↔ ∀ pair ∈ pairs,
    Unbroken pair.2.toList := by
  obtain ⟨fields, hlines, htext, hharmless⟩ : ∃ fields : List (LineField readLine),
      fields.map LineField.line = pairs ∧
        fields.flatMap LineField.text = (String.join (pairs.map line)).toList ∧
          ((∀ field ∈ fields, field.Harmless) ↔ ∀ pair ∈ pairs, Unbroken pair.2.toList) := by
    -- Each line is a field of its own, whose text is the line's.
    induction pairs with
    | nil => exact ⟨[], rfl, rfl, iff_of_true (List.forall_mem_nil _) (List.forall_mem_nil _)⟩
    | cons pair pairs ih =>
      obtain ⟨htag, htags⟩ := List.forall_mem_cons.mp htags
      obtain ⟨fields, hlines, htext, hharmless⟩ := ih htags
      refine ⟨field pair htag :: fields, ?_, ?_, ?_⟩
      · rw [List.map_cons, hlines]
        rfl
      · rw [List.flatMap_cons, htext, text_field, List.map_cons, String.join_cons,
          String.toList_append]
      · rw [List.forall_mem_cons, List.forall_mem_cons, hharmless]
        rfl
  rw [readPairs, ← htext, ← hharmless, ← LineField.read_textLines_iff, hlines]

end Lib.Ris
