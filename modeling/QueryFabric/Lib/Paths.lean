import Mathlib.Data.List.Basic
import Mathlib.Data.List.Nodup

/-!
# Paths as identities

The nodes of a tree are told apart by their paths, which are texts: a part of a node adds its name
after a dot, and a member of a list its index in brackets. `At`, `Under` and `From` say of a list of
identities that they are distinct and where they are: at a path or below it, below some of its
parts, and below the members of a list from one on. The rules follow the shape of a tree, and two
identities are told apart where their paths part.
-/

namespace Lib.Paths

/-- The path of a part. -/
def part (path name : String) : String := path ++ "." ++ name

/-- The path of a member of a list. -/
def item (path : String) (idx : Nat) : String := path ++ "[" ++ toString idx ++ "]"

/-- The characters that end a name. -/
def isMark (c : Char) : Bool := c == '.' || c == '['

/-- A name without marks. -/
def isName (name : String) : Bool := name.toList.all fun c => !isMark c

/-- An identity is that of a path, followed by what starts with a mark. -/
def Extends (path id : String) (isMark : Char → Bool) : Prop :=
  ∃ rest : List Char, id.toList = path.toList ++ rest ∧ ∀ c ∈ rest.head?, isMark c = true

/-- Distinct identities at a path or below it. -/
structure At (path : String) (ids : List String) : Prop where
  nodup : ids.Nodup
  below : ∀ id ∈ ids, Extends path id (· == '.')

/-- Distinct identities below parts of a path. -/
structure Under (path : String) (names ids : List String) : Prop where
  nodup : ids.Nodup
  below : ∀ id ∈ ids, ∃ name ∈ names, isName name = true ∧ Extends (part path name) id isMark

/-- Distinct identities below the members of a list from one on. -/
structure From (path : String) (idx : Nat) (ids : List String) : Prop where
  nodup : ids.Nodup
  below : ∀ id ∈ ids, ∃ i, idx ≤ i ∧ Extends (item path i) id (· == '.')

variable {path name : String} {names names' ids ids' : List String} {idx : Nat}

/-! ## Where paths part -/

/-- The name before a mark. -/
theorem takeWhile_mark {name rest : List Char} (hname : name.all (fun c => !isMark c) = true)
    (hrest : ∀ c ∈ rest.head?, isMark c = true) :
    (name ++ rest).takeWhile (fun c => !isMark c) = name := by
  induction name with
  | nil =>
    cases rest with
    | nil => rfl
    | cons c rest =>
      have hc := hrest c rfl
      rw [List.nil_append, List.takeWhile_cons_of_neg (by simp [hc])]
  | cons c name ih =>
    rw [List.all_cons, Bool.and_eq_true] at hname
    rw [List.cons_append, List.takeWhile_cons_of_pos (p := fun c => !isMark c) hname.1,
      ih hname.2]

/-- The characters of a part of a path. -/
theorem toList_part (path name : String) :
    (part path name).toList = path.toList ++ '.' :: name.toList := by
  simp [part]

/-- The characters of an item of a path. -/
theorem toList_item (path : String) (idx : Nat) :
    (item path idx).toList = path.toList ++ '[' :: (Nat.toDigits 10 idx ++ [']']) := by
  simp [item]

/-- An identity is below one part only. -/
theorem part_unique {name' id : String} (hname : isName name = true) (hname' : isName name' = true)
    (h : Extends (part path name) id isMark) (h' : Extends (part path name') id isMark) :
    name = name' := by
  obtain ⟨rest, hid, hrest⟩ := h
  obtain ⟨rest', hid', hrest'⟩ := h'
  rw [toList_part, List.append_assoc] at hid hid'
  rw [hid'] at hid
  have hnames := List.append_cancel_left hid
  rw [List.cons_append, List.cons_append] at hnames
  have htake := congrArg (List.takeWhile fun c => !isMark c) (List.cons.inj hnames).2
  rw [takeWhile_mark hname hrest, takeWhile_mark hname' hrest'] at htake
  exact String.toList_inj.mp htake.symm

/-- The digits before a bracket. -/
theorem takeWhile_bracket {digits : List Char} (h : ∀ c ∈ digits, c.isDigit = true)
    (rest : List Char) :
    (digits ++ ']' :: rest).takeWhile Char.isDigit = digits := by
  have hbracket : (']' :: rest).takeWhile Char.isDigit = [] :=
  List.takeWhile_cons_of_neg (by decide)
  rw [List.takeWhile_append_of_pos h, hbracket, List.append_nil]

/-- An identity is below one member only. -/
theorem item_unique {i j : Nat} {id : String} (h : Extends (item path i) id (· == '.'))
    (h' : Extends (item path j) id (· == '.')) : i = j := by
  have hdigits (n : Nat) : ∀ c ∈ Nat.toDigits 10 n, c.isDigit = true := fun c hc =>
    Nat.isDigit_of_mem_toDigits (by decide) (by decide) hc
  obtain ⟨rest, hid, -⟩ := h
  obtain ⟨rest', hid', -⟩ := h'
  rw [toList_item] at hid hid'
  rw [hid', List.append_assoc, List.append_assoc, List.append_cancel_left_eq, List.cons_append,
    List.cons_append] at hid
  have htail := (List.cons.inj hid).2
  rw [List.append_assoc, List.append_assoc, List.singleton_append, List.singleton_append] at htail
  have htake := congrArg (List.takeWhile Char.isDigit) htail
  rw [takeWhile_bracket (hdigits j), takeWhile_bracket (hdigits i)] at htake
  have hvalue := congrArg (Nat.ofDigitChars 10 · 0) htake
  simp only [Nat.ofDigitChars_ten_toDigits] at hvalue
  exact hvalue.symm

/-! ## Rules -/

/-- No identifiers are at a path. -/
theorem At.nil : At path [] := ⟨List.nodup_nil, fun id hid => by cases hid⟩

/-- No identifiers are under names. -/
theorem Under.nil : Under path names [] := ⟨List.nodup_nil, fun id hid => by cases hid⟩

/-- No identifiers are from an index on. -/
theorem From.nil : From path idx [] := ⟨List.nodup_nil, fun id hid => by cases hid⟩

/-- What is below parts of a path is below the path. -/
theorem Under.atPath (h : Under path names ids) : At path ids where
  nodup := h.nodup
  below := by
    intro id hid
    obtain ⟨name, -, -, rest, hrest, -⟩ := h.below id hid
    refine ⟨'.' :: (name.toList ++ rest), ?_, by simp⟩
    rw [hrest, toList_part]
    simp

/-- The identity of the path itself, before what is below it. -/
theorem Under.cons (h : Under path names ids) : At path (path :: ids) where
  nodup := by
    refine List.nodup_cons.mpr ⟨fun hmem => ?_, h.nodup⟩
    obtain ⟨name, -, -, rest, hrest, -⟩ := h.below path hmem
    have hlength := congrArg List.length hrest
    rw [toList_part] at hlength
    simp only [List.length_append, List.length_cons] at hlength
    omega
  below := by
    intro id hid
    obtain rfl | hid := List.mem_cons.mp hid
    · exact ⟨[], by simp, by simp⟩
    · exact h.atPath.below id hid

/-- What is at a part is under its name. -/
theorem At.under (hname : isName name = true) (h : At (part path name) ids) :
    Under path [name] ids where
  nodup := h.nodup
  below := by
    intro id hid
    obtain ⟨rest, hrest, hhead⟩ := h.below id hid
    refine ⟨name, List.mem_singleton_self name, hname, rest, hrest, fun c hc => ?_⟩
    have hdot : c = '.' := by simpa using hhead c hc
    rw [hdot]
    rfl

/-- The items of a part are under its name. -/
theorem From.under (hname : isName name = true) (h : From (part path name) idx ids) :
    Under path [name] ids where
  nodup := h.nodup
  below := by
    intro id hid
    obtain ⟨i, -, rest, hrest, -⟩ := h.below id hid
    refine ⟨name, List.mem_singleton_self name, hname,
      '[' :: (Nat.toDigits 10 i ++ ']' :: rest), ?_, ?_⟩
    · rw [hrest, toList_item]
      simp
    · intro c hc
      obtain rfl : c = '[' := by simpa using hc.symm
      rfl

/-- Identities below different parts are distinct. -/
theorem Under.append (h : Under path names ids) (h' : Under path names' ids')
    (hdisjoint : ∀ name ∈ names, name ∉ names') : Under path (names ++ names') (ids ++ ids') where
  nodup := by
    refine List.nodup_append.mpr ⟨h.nodup, h'.nodup, ?_⟩
    rintro id hid _ hid' rfl
    obtain ⟨name, hmem, hname, hext⟩ := h.below id hid
    obtain ⟨name', hmem', hname', hext'⟩ := h'.below id hid'
    obtain rfl := part_unique hname hname' hext hext'
    exact hdisjoint name hmem hmem'
  below := by
    intro id hid
    obtain hid | hid := List.mem_append.mp hid
    · obtain ⟨name, hmem, hext⟩ := h.below id hid
      exact ⟨name, List.mem_append_left _ hmem, hext⟩
    · obtain ⟨name, hmem, hext⟩ := h'.below id hid
      exact ⟨name, List.mem_append_right _ hmem, hext⟩

/-- What is under names is under more of them. -/
theorem Under.mono (h : Under path names ids) (hsubset : names ⊆ names') :
    Under path names' ids where
  nodup := h.nodup
  below := by
    intro id hid
    obtain ⟨name, hmem, hext⟩ := h.below id hid
    exact ⟨name, hsubset hmem, hext⟩

/-- Identities below one member and below the later ones are distinct. -/
theorem At.cons (h : At (item path idx) ids) (h' : From path (idx + 1) ids') :
    From path idx (ids ++ ids') where
  nodup := by
    refine List.nodup_append.mpr ⟨h.nodup, h'.nodup, ?_⟩
    rintro id hid _ hid' rfl
    obtain ⟨i, hi, hext⟩ := h'.below id hid'
    have heq := item_unique (h.below id hid) hext
    omega
  below := by
    intro id hid
    obtain hid | hid := List.mem_append.mp hid
    · exact ⟨idx, Nat.le_refl idx, h.below id hid⟩
    · obtain ⟨i, hi, hext⟩ := h'.below id hid
      exact ⟨i, by omega, hext⟩

end Lib.Paths
