import QueryFabric.Lib.Words
import QueryFabric.Text

/-!
# The names of the snapshot clones

`snapshot_clone_pvc_name` of `crates/queryfabric-runtime-k8s/src/storage.rs` makes the name of a
volume claim out of the names of the claim that is cloned and of the snapshot class. Each of them
becomes a label of lower-case letters, digits and single dashes, cut at 45 characters, and a dash
stands between the labels.

The labels are the words of the names with dashes between them (`sanitizeDnsLabel_eq`). As the dash
between the labels is not told from the dashes in them, a name stands for all the pairs with its
words, and for them only.
-/

namespace QueryFabric.K8s

open Lib

/-! ## The names -/

/-- `char::to_lowercase`. -/
structure Lowercase where
  toLowercase : Char → List Char
  /-- On ASCII it is `to_ascii_lowercase`. -/
  ascii : ∀ c : Char, c.toNat < 128 → toLowercase c = [c.toLower]
  /-- Its results are not upper-case letters. -/
  notUpper : ∀ c, ∀ d ∈ toLowercase c, d.isUpper = false

variable (lower : Lowercase)

/-- The body of the loop of `sanitize_dns_label`, on `out` and `last_dash`. -/
def pushLabelChar (s : List Char × Bool) (ch : Char) : List Char × Bool :=
  let (out, lastDash) := s
  if ch.isAlphanum then (out ++ [ch], false)
  else if !lastDash then (out ++ ['-'], true)
  else (out, lastDash)

/-- `sanitize_dns_label`. -/
def sanitizeDnsLabel (value : String) : String :=
  let (out, _) := (value.toList.flatMap lower.toLowercase).foldl pushLabelChar ([], false)
  let trimmed := trim '-' out
  if trimmed.isEmpty then "volume" else String.ofList (trimmed.take 45)

/-- `snapshot_clone_pvc_name`. -/
def snapshotClonePvcName (sourcePvc snapshotClass : String) : String :=
  "syndb-snapshot-" ++ sanitizeDnsLabel lower sourcePvc ++ "-" ++
    sanitizeDnsLabel lower snapshotClass

/-! ## Valid names -/

/-- `[a-z0-9]` -/
def isLabelChar (c : Char) : Bool := c.isLower || c.isDigit

/-- A DNS-1123 name without dots: lower-case letters, digits and dashes, with no dash at its
ends. -/
def IsDnsName (name : List Char) : Prop :=
  name.length ≤ 253 ∧ (∀ c ∈ name, isLabelChar c = true ∨ c = '-') ∧
    (∃ c ∈ name.head?, isLabelChar c = true) ∧
    ∃ c ∈ name.getLast?, isLabelChar c = true

/-- A DNS name in terms of its characters and its ends. -/
theorem isDnsName_iff {name : List Char} : IsDnsName name ↔
    (decide (name.length ≤ 253) && name.all (fun c => isLabelChar c || c = '-') &&
      name.head?.any isLabelChar && name.getLast?.any isLabelChar) = true := by
  simp [IsDnsName, and_assoc, Option.any_eq_true]

/-- Whether a text is a DNS name is decided by its characters. -/
instance : DecidablePred IsDnsName := fun _ => decidable_of_iff' _ isDnsName_iff

/-- A name of a Kubernetes object: a DNS-1123 subdomain, with dots between its parts. -/
def IsKubernetesName (name : String) : Prop :=
  name.toList.length ≤ 253 ∧ ∀ part ∈ name.toList.splitOn '.', IsDnsName part

/-- Whether a text is a Kubernetes name is decided by its parts. -/
instance : DecidablePred IsKubernetesName := fun name =>
  inferInstanceAs
    (Decidable (name.toList.length ≤ 253 ∧ ∀ part ∈ name.toList.splitOn '.', IsDnsName part))

/-! ## Labels -/

/-- The words of a name in lower case, with a dash between each and the next. -/
def dashed (value : String) : List Char :=
  join '-' (words Char.isAlphanum (value.toList.flatMap lower.toLowercase))

/-- Folding the characters of a label gives the collapsed text. -/
theorem foldl_pushLabelChar (out chars : List Char) (lastDash : Bool) :
    (chars.foldl pushLabelChar (out, lastDash)).1 = out ++
      collapse Char.isAlphanum '-' lastDash chars := by
  induction chars generalizing out lastDash with
  | nil => exact (List.append_nil out).symm
  | cons c chars ih =>
    rw [List.foldl_cons, pushLabelChar, collapse]
    cases c.isAlphanum with
    | true =>
      rw [if_pos rfl, if_pos rfl, ih, List.append_assoc]
      rfl
    | false =>
      cases lastDash with
      | true => exact ih out true
      | false =>
        refine (ih (out ++ ['-']) true).trans ?_
        rw [List.append_assoc]
        rfl

/-- The label is made of the words, and cut. -/
theorem sanitizeDnsLabel_eq (value : String) : (sanitizeDnsLabel lower value).toList =
    if dashed lower value = [] then "volume".toList else (dashed lower value).take 45 := by
  -- what the loop pushes has at most one dash at each end, which are trimmed
  have hout := foldl_pushLabelChar [] (value.toList.flatMap lower.toLowercase) false
  have htrim :
    trim '-' ((value.toList.flatMap lower.toLowercase).foldl pushLabelChar ([], false)).1 =
      dashed lower value := by
    rw [hout, List.nil_append]
    exact trim_collapse rfl _
  have hbody : sanitizeDnsLabel lower value =
      if (trim '-' ((value.toList.flatMap lower.toLowercase).foldl pushLabelChar
        ([], false)).1).isEmpty then "volume"
      else String.ofList
        ((trim '-' ((value.toList.flatMap lower.toLowercase).foldl pushLabelChar
            ([], false)).1).take 45) := rfl
  rw [hbody, htrim]
  cases dashed lower value with
  | nil => rfl
  | cons c rest => exact String.toList_ofList

variable {lower} {value : String} {c : Char}

/-- A dashed text has no capital. -/
theorem isUpper_of_mem_dashed (h : c ∈ dashed lower value) : c.isUpper = false := by
  rw [dashed, ← trim_collapse rfl] at h
  obtain hchar | rfl := mem_of_mem_collapse (mem_of_mem_trim h)
  · obtain ⟨d, -, hc⟩ := List.mem_flatMap.mp hchar
    exact lower.notUpper d c hc
  · rfl

/-- The letters and digits of a dashed text are label characters. -/
theorem isLabelChar_of_mem_dashed (h : c ∈ dashed lower value) (hc : c.isAlphanum = true) :
    isLabelChar c = true := by
  simpa [isAlphanum_eq, isUpper_of_mem_dashed h, isLabelChar] using hc

/-- A dashed text has only label characters and dashes. -/
theorem of_mem_dashed (h : c ∈ dashed lower value) : isLabelChar c = true ∨ c = '-' :=
  (keep_of_mem_join (isWord_words _) h).imp_left (isLabelChar_of_mem_dashed h)

/-- The label is at most 45 characters long, and ends with a letter or digit if it is not cut behind
a dash. -/
theorem isLabel_sanitizeDnsLabel (lower : Lowercase) (value : String) :
    (sanitizeDnsLabel lower value).toList.length ≤ 45 ∧
    (∀ c ∈ (sanitizeDnsLabel lower value).toList, isLabelChar c = true ∨ c = '-') ∧
    ((dashed lower value)[44]? ≠ some '-' →
      ∃ c ∈ (sanitizeDnsLabel lower value).toList.getLast?, isLabelChar c = true) := by
  rw [sanitizeDnsLabel_eq]
  by_cases hempty : dashed lower value = []
  · rw [if_pos hempty]
    have hvolume : "volume".toList.all isLabelChar = true := by decide
    exact ⟨by decide, fun c hc => .inl (List.all_eq_true.mp hvolume c hc), fun _ => ⟨'e', rfl, rfl⟩⟩
  · rw [if_neg hempty]
    refine ⟨List.length_take_le _ _, fun c hc => of_mem_dashed (List.mem_of_mem_take hc),
      fun hcut => ?_⟩
    rw [List.getLast?_take, if_neg (by decide)]
    -- the last character is the one at the cut, or that of the last word
    cases hchar : (dashed lower value)[44]? with
    | some c =>
      have hmem := List.mem_of_getElem? hchar
      have hne : c ≠ '-' := fun heq => hcut (heq ▸ hchar)
      exact ⟨c, rfl, (of_mem_dashed hmem).resolve_right hne⟩
    | none =>
      have hlast := List.getLast?_eq_some_getLast hempty
      rw [hlast]
      exact ⟨_, rfl, isLabelChar_of_mem_dashed (List.getLast_mem hempty)
        (keep_of_mem_getLast? (isWord_words _) hlast)⟩

/-- The characters of the clone's name. -/
theorem toList_snapshotClonePvcName (lower : Lowercase) (sourcePvc snapshotClass : String) :
    (snapshotClonePvcName lower sourcePvc snapshotClass).toList = "syndb-snapshot-".toList ++
      ((sanitizeDnsLabel lower sourcePvc).toList ++ '-' ::
        (sanitizeDnsLabel lower snapshotClass).toList) := by
  have hbody : snapshotClonePvcName lower sourcePvc snapshotClass =
      "syndb-snapshot-" ++ sanitizeDnsLabel lower sourcePvc ++ "-" ++
          sanitizeDnsLabel lower snapshotClass := rfl
  rw [hbody, String.toList_append, String.toList_append, String.toList_append, List.append_assoc,
    List.append_assoc]
  rfl

/-! ## The labels of valid names -/

/-- A label character is ASCII and no capital. -/
theorem ascii_of_isLabelChar {c : Char} (h : isLabelChar c = true) :
    c.toNat < 128 ∧ c.isUpper = false := by
  rw [← Bool.not_eq_true, isUpper_iff, ← Char.toNat_val]
  simp only [isLabelChar, Bool.or_eq_true, isLower_iff, Char.isDigit, Bool.and_eq_true,
    decide_eq_true_eq, ge_iff_le, UInt32.le_iff_toNat_le, Char.reduceVal, UInt32.reduceToNat] at h ⊢
  omega

/-- A Kubernetes name has only label characters, dashes and dots. -/
theorem of_mem_kubernetesName {name : String} (h : IsKubernetesName name) {c : Char}
    (hc : c ∈ name.toList) :
    isLabelChar c = true ∨ c = '-' ∨ c = '.' := by
  have hparts : ∀ part ∈ name.toList.splitOn '.',
      IsWord (fun c => isLabelChar c || decide (c = '-')) part := by
    intro part hpart
    obtain ⟨-, hchars, ⟨first, hfirst, -⟩, -⟩ := h.2 part hpart
    refine ⟨fun hnil => by simp [hnil] at hfirst, fun c hc => ?_⟩
    simpa using hchars c hc
  have hkeep : (isLabelChar c || decide (c = '-')) = true ∨ c = '.' :=
    keep_of_mem_join hparts (by rwa [join_splitOn])
  simpa [or_assoc] using hkeep

/-- There is nothing to lower in a valid name. -/
theorem toLowercase_kubernetesName (lower : Lowercase) {name : String} (h : IsKubernetesName name) :
    name.toList.flatMap lower.toLowercase = name.toList := by
  have hsame : ∀ c ∈ name.toList, lower.toLowercase c = [c] := by
    intro c hc
    have hascii : c.toNat < 128 ∧ c.isUpper = false := by
      obtain hc | rfl | rfl := of_mem_kubernetesName h hc
      · exact ascii_of_isLabelChar hc
      · decide
      · decide
    rw [lower.ascii c hascii.1, toLower_of_isUpper_eq_false hascii.2]
  rw [List.flatMap_congr hsame, List.flatMap_singleton']

/-- A label character is a letter or a digit. -/
theorem isAlphanum_of_isLabelChar {c : Char} (h : isLabelChar c = true) : c.isAlphanum = true := by
  rw [isLabelChar, Bool.or_eq_true] at h
  obtain h | h := h <;> simp [isAlphanum_eq, h]

/-- There is a letter or a digit in a valid name. -/
theorem words_kubernetesName_ne_nil {name : String} (h : IsKubernetesName name) :
    words Char.isAlphanum name.toList ≠ [] := by
  obtain ⟨part, rest, hparts⟩ := List.exists_cons_of_ne_nil (List.splitOn_ne_nil '.' name.toList)
  have hpart : part ∈ name.toList.splitOn '.' := by
    rw [hparts]
    exact List.mem_cons_self
  obtain ⟨-, -, ⟨c, hc, hchar⟩, -⟩ := h.2 part hpart
  have hmem : c ∈ join '.' (name.toList.splitOn '.') :=
    mem_join_of_mem hpart (List.mem_of_mem_head? hc)
  rw [join_splitOn] at hmem
  exact words_ne_nil hmem (isAlphanum_of_isLabelChar hchar)

/-- The words of the label that is made of a valid name. -/
def labelWords (name : String) : List (List Char) :=
  ((join '-' (words Char.isAlphanum name.toList)).take 45).splitOn '-'

/-- The parts of a sanitized Kubernetes name are its label words. -/
theorem splitOn_sanitizeDnsLabel (lower : Lowercase) {name : String} (h : IsKubernetesName name) :
    (sanitizeDnsLabel lower name).toList.splitOn '-' = labelWords name := by
  have hdashed : dashed lower name = join '-' (words Char.isAlphanum name.toList) := by
    rw [dashed, toLowercase_kubernetesName lower h]
  have hne : dashed lower name ≠ [] := by
    rw [hdashed]
    exact (join_eq_nil_iff (isWord_words _)).not.mpr (words_kubernetesName_ne_nil h)
  rw [sanitizeDnsLabel_eq, if_neg hne, hdashed, labelWords]

/-- If the label is not cut, its words are those of the name. -/
theorem labelWords_eq {name : String} (h : IsKubernetesName name)
    (hlength : (join '-' (words Char.isAlphanum name.toList)).length ≤ 45) :
    labelWords name = words Char.isAlphanum name.toList := by
  rw [labelWords, List.take_of_length_le hlength]
  exact splitOn_join rfl (isWord_words _) (words_kubernetesName_ne_nil h)

/-! ## What the names tell -/

/-- The clone's name is a DNS name within its length. -/
theorem isDnsName_snapshotClonePvcName (lower : Lowercase) (sourcePvc snapshotClass : String) :
    (snapshotClonePvcName lower sourcePvc snapshotClass).toList.length ≤ 253 ∧
    (∀ c ∈ (snapshotClonePvcName lower sourcePvc snapshotClass).toList,
      isLabelChar c = true ∨ c = '-') ∧
    (∃ c ∈ (snapshotClonePvcName lower sourcePvc snapshotClass).toList.head?,
      isLabelChar c = true) ∧
    ((dashed lower snapshotClass)[44]? ≠ some '-' →
      IsDnsName (snapshotClonePvcName lower sourcePvc snapshotClass).toList) := by
  obtain ⟨hsourceLength, hsourceChars, -⟩ := isLabel_sanitizeDnsLabel lower sourcePvc
  obtain ⟨hclassLength, hclassChars, hclassLast⟩ := isLabel_sanitizeDnsLabel lower snapshotClass
  -- Fifteen characters of the prefix, a dash, and two labels that were cut.
  have hlength : (snapshotClonePvcName lower sourcePvc snapshotClass).toList.length ≤ 253 := by
    have hprefix : "syndb-snapshot-".toList.length = 15 := by decide
    rw [toList_snapshotClonePvcName, List.length_append, List.length_append, List.length_cons,
      hprefix]
    omega
  -- Every part has label characters and dashes only.
  have hchars : ∀ c ∈ (snapshotClonePvcName lower sourcePvc snapshotClass).toList,
      isLabelChar c = true ∨ c = '-' := by
    have hprefix : "syndb-snapshot-".toList.all (fun c => isLabelChar c || c = '-') =
        true := by decide
    rw [toList_snapshotClonePvcName]
    intro c hc
    rw [List.mem_append, List.mem_append, List.mem_cons] at hc
    obtain hc | hc | rfl | hc := hc
    · simpa using List.all_eq_true.mp hprefix c hc
    · exact hsourceChars c hc
    · exact .inr rfl
    · exact hclassChars c hc
  -- The name starts with the prefix.
  have hhead : ∃ c ∈ (snapshotClonePvcName lower sourcePvc snapshotClass).toList.head?,
      isLabelChar c = true := by
    rw [toList_snapshotClonePvcName]
    exact ⟨'s', rfl, rfl⟩
  refine ⟨hlength, hchars, hhead, fun hcut => ⟨hlength, hchars, hhead, ?_⟩⟩
  -- It ends with the last label, which does not end in a dash unless it was cut there.
  obtain ⟨c, hc, hchar⟩ := hclassLast hcut
  refine ⟨c, ?_, hchar⟩
  rw [toList_snapshotClonePvcName, List.append_cons, ← List.append_assoc, List.getLast?_append,
    Option.mem_def.mp hc]
  rfl

/-- Two pairs of valid names have the same name if the words of their labels are the same, those of
the source before those of the class. -/
theorem snapshotClonePvcName_eq_iff (lower : Lowercase)
    {sourcePvc snapshotClass sourcePvc' snapshotClass' : String}
    (hsource : IsKubernetesName sourcePvc) (hclass : IsKubernetesName snapshotClass)
    (hsource' : IsKubernetesName sourcePvc') (hclass' : IsKubernetesName snapshotClass') :
    snapshotClonePvcName lower sourcePvc snapshotClass =
      snapshotClonePvcName lower sourcePvc' snapshotClass' ↔
      labelWords sourcePvc ++ labelWords snapshotClass = labelWords sourcePvc' ++
        labelWords snapshotClass' := by
  rw [← String.toList_inj, toList_snapshotClonePvcName, toList_snapshotClonePvcName,
    List.append_cancel_left_eq, append_sep_eq_iff, splitOn_sanitizeDnsLabel lower hsource,
    splitOn_sanitizeDnsLabel lower hclass, splitOn_sanitizeDnsLabel lower hsource',
    splitOn_sanitizeDnsLabel lower hclass']

/-- A name is a valid one if the label of the class is not cut behind a dash, and stands for all the
pairs with its words. A name of at most 45 letters, digits and single dashes keeps its words. -/
theorem snapshotClonePvcName_exact (lower : Lowercase) :
    (∀ sourcePvc snapshotClass,
      (snapshotClonePvcName lower sourcePvc snapshotClass).toList.length ≤ 253 ∧
      (∀ c ∈ (snapshotClonePvcName lower sourcePvc snapshotClass).toList,
        isLabelChar c = true ∨ c = '-') ∧
      (∃ c ∈ (snapshotClonePvcName lower sourcePvc snapshotClass).toList.head?,
        isLabelChar c = true) ∧
      ((dashed lower snapshotClass)[44]? ≠ some '-' →
        IsDnsName (snapshotClonePvcName lower sourcePvc snapshotClass).toList)) ∧
    (∀ sourcePvc snapshotClass sourcePvc' snapshotClass', IsKubernetesName sourcePvc →
      IsKubernetesName snapshotClass →
      IsKubernetesName sourcePvc' → IsKubernetesName snapshotClass' →
      (snapshotClonePvcName lower sourcePvc snapshotClass =
        snapshotClonePvcName lower sourcePvc' snapshotClass' ↔
        labelWords sourcePvc ++ labelWords snapshotClass = labelWords sourcePvc' ++
          labelWords snapshotClass')) ∧
    ∀ name, IsKubernetesName name → (join '-' (words Char.isAlphanum name.toList)).length ≤ 45 →
      labelWords name = words Char.isAlphanum name.toList :=
  ⟨isDnsName_snapshotClonePvcName lower,
    fun _ _ _ _ hsource hclass hsource' hclass' =>
      snapshotClonePvcName_eq_iff lower hsource hclass hsource' hclass',
    fun _ hname hlength => labelWords_eq hname hlength⟩

/-- A lowered character is no capital. -/
theorem isUpper_toLower (c : Char) : c.toLower.isUpper = false := by
  cases hc : c.isUpper with
  | false => rw [toLower_of_isUpper_eq_false hc, hc]
  | true =>
    have hupper := isUpper_iff.mp hc
    have hlower : c.toLower.val = c.val + ('a'.val - 'A'.val) := congrArg Char.val (dif_pos hupper)
    rw [← Bool.not_eq_true, isUpper_iff, hlower]
    simp only [UInt32.le_iff_toNat_le, UInt32.toNat_add, Char.reduceVal, UInt32.reduceSub,
      UInt32.reduceToNat] at hupper ⊢
    omega

/-- Lower case on ASCII. -/
def asciiLowercase : Lowercase where
  toLowercase c := [c.toLower]
  ascii _ _ := rfl
  notUpper _ _ h := List.mem_singleton.mp h ▸ isUpper_toLower _

/-- The clone of a data volume in the snapshot class `csi-snap`. -/
theorem snapshotClonePvcName_exact_csi :
    IsDnsName (snapshotClonePvcName asciiLowercase "ClickHouse_Data_0" "csi-snap").toList ∧
    (snapshotClonePvcName asciiLowercase "click.house" "csi" =
      snapshotClonePvcName asciiLowercase "click" "house-csi" ↔
      labelWords "click.house" ++ labelWords "csi" = labelWords "click" ++ labelWords "house-csi") ∧
    labelWords "click.house" = words Char.isAlphanum "click.house".toList :=
  ⟨((snapshotClonePvcName_exact asciiLowercase).1 "ClickHouse_Data_0" "csi-snap").2.2.2 (by decide),
    (snapshotClonePvcName_exact asciiLowercase).2.1 "click.house" "csi" "click" "house-csi"
      (by decide) (by decide) (by decide) (by decide),
    (snapshotClonePvcName_exact asciiLowercase).2.2 "click.house" (by decide) (by decide)⟩

/-- The dash between the labels is not told from one in them, and the cut may leave a dash at the
end. -/
theorem snapshotClonePvcName_ambiguous :
    (IsKubernetesName "a" ∧ IsKubernetesName "b-c" ∧ IsKubernetesName "a-b" ∧ IsKubernetesName "c" ∧
      snapshotClonePvcName asciiLowercase "a" "b-c" =
        snapshotClonePvcName asciiLowercase "a-b" "c") ∧
    ¬ IsDnsName (snapshotClonePvcName asciiLowercase "a"
      "aaaaaaaaaaaaaaaaaaaaaaaaaaaaaaaaaaaaaaaaaaaa-b").toList := by
  decide

end QueryFabric.K8s
