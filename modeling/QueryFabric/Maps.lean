import Mathlib.Data.List.Basic
import Mathlib.Data.String.Basic

/-!
# Maps and sets in key order

A `BTreeMap` is kept as the list of its entries, which `mapInsert` leaves in key order, and a
`BTreeSet` as the list of its members. What an entry of such a list is after an insertion, and which
entry a search finds first, follows from the order of the keys.
-/

namespace QueryFabric

/-- `BTreeSet::insert` on the members in order. -/
def setInsert {α : Type} (lt : α → α → Bool) (x : α) : List α → List α
  | [] => [x]
  | y :: ys =>
    if lt x y then x :: y :: ys
    else if lt y x then y :: setInsert lt x ys
    else y :: ys

/-- `BTreeMap::insert` on the entries in key order. -/
def mapInsert {α β : Type} (lt : α → α → Bool) (k : α) (v : β) : List (α × β) → List (α × β)
  | [] => [(k, v)]
  | (k', v') :: kvs =>
    if lt k k' then (k, v) :: (k', v') :: kvs
    else if lt k' k then (k', v') :: mapInsert lt k v kvs
    else (k', v) :: kvs

/-- A lookup by the first key. -/
theorem lookup_cons_eq {α β : Type} [DecidableEq α] (a k : α) (v : β) (m : List (α × β)) :
    List.lookup a ((k, v) :: m) = if a = k then some v else List.lookup a m := by
  by_cases h : a = k
  · subst h
    simp
  · have hne : (a == k) = false := by simpa using h
    rw [List.lookup_cons, hne, if_neg h]

/-- An inserted key holds its value, and the others hold theirs. -/
theorem lookup_mapInsert {α β : Type} [DecidableEq α] {lt : α → α → Bool}
    (hirrefl : ∀ a, lt a a = false) (htri : ∀ a b, lt a b = false → lt b a = false → a = b)
    (k : α) (v : β) (other : α) : ∀ m : List (α × β),
    (mapInsert lt k v m).lookup other = if other = k then some v else m.lookup other
  | [] => lookup_cons_eq other k v []
  | (k', v') :: m => by
    have ih := lookup_mapInsert hirrefl htri k v other m
    rw [mapInsert]
    by_cases h₁ : lt k k' = true
    · rw [if_pos h₁, lookup_cons_eq]
    · rw [if_neg h₁]
      by_cases h₂ : lt k' k = true
      · have hk : k' ≠ k := by
          rintro rfl
          rw [hirrefl] at h₂
          cases h₂
        rw [if_pos h₂, lookup_cons_eq, lookup_cons_eq, ih]
        by_cases h₃ : other = k'
        · rw [if_pos h₃, if_pos h₃, h₃, if_neg hk]
        · rw [if_neg h₃, if_neg h₃]
      · -- Neither key comes before the other: the entry is replaced.
        have hk : k = k' := htri k k' (by simpa using h₁) (by simpa using h₂)
        rw [if_neg h₂, lookup_cons_eq, lookup_cons_eq, ← hk]
        by_cases h₃ : other = k
        · rw [if_pos h₃, if_pos h₃]
        · rw [if_neg h₃, if_neg h₃, if_neg h₃]

/-- A lookup after an insertion. -/
theorem lookup_mapInsert_string {β : Type} (k : String) (v : β) (other : String)
    (m : List (String × β)) :
    (mapInsert (fun a b => decide (a < b)) k v m).lookup other =
      if other = k then some v else m.lookup other := by
  refine lookup_mapInsert (fun a => by simp) (fun a b hab hba => ?_) k v other m
  simp only [decide_eq_false_iff_not, not_lt] at hab hba
  exact le_antisymm hba hab

/-- The keys of a map after an insertion: the new key and the old ones. -/
theorem mem_keys_mapInsert {α β : Type} {lt : α → α → Bool}
    (heq : ∀ a b, lt a b = false → lt b a = false → a = b) (k : α) (v : β) (x : α) :
    ∀ m : List (α × β),
      x ∈ (mapInsert lt k v m).map Prod.fst ↔ x = k ∨ x ∈ m.map Prod.fst
  | [] => by simp [mapInsert]
  | (k', v') :: m => by
    rw [mapInsert]
    split
    · simp
    · rename_i h1
      split
      · rename_i h2
        simp only [List.map_cons, List.mem_cons, mem_keys_mapInsert heq k v x m]
        grind
      · rename_i h2
        have hk : k = k' := heq k k' (by simpa using h1) (by simpa using h2)
        simp [hk]

/-- The keys of a map after a run of insertions. -/
theorem mem_keys_foldl_mapInsert {α β γ : Type} {lt : α → α → Bool}
    (heq : ∀ a b, lt a b = false → lt b a = false → a = b) (key : γ → α) (value : γ → β) (x : α) :
    ∀ (l : List γ) (m : List (α × β)),
      x ∈ (l.foldl (fun m c => mapInsert lt (key c) (value c) m) m).map Prod.fst ↔
        x ∈ l.map key ∨ x ∈ m.map Prod.fst
  | [], m => by simp
  | c :: l, m => by
    rw [List.foldl_cons, mem_keys_foldl_mapInsert heq key value x l, mem_keys_mapInsert heq,
      List.map_cons, List.mem_cons]
    grind

/-- The keys of a map are kept as a set is. -/
theorem keys_mapInsert {α β : Type} (lt : α → α → Bool) (k : α) (v : β) : ∀ m : List (α × β),
    (mapInsert lt k v m).map Prod.fst = setInsert lt k (m.map Prod.fst)
  | [] => rfl
  | (k', v') :: m => by
    have ih := keys_mapInsert lt k v m
    rw [mapInsert, List.map_cons, setInsert]
    split
    · rfl
    · split
      · rw [List.map_cons, ih]
      · rfl

/-- The members of a set after an insertion. -/
theorem mem_setInsert {α : Type} {lt : α → α → Bool}
    (htri : ∀ a b, lt a b = false → lt b a = false → a = b) (x y : α) : ∀ ys : List α,
    y ∈ setInsert lt x ys ↔ y = x ∨ y ∈ ys
  | [] => by simp [setInsert]
  | z :: ys => by
    have ih := mem_setInsert htri x y ys
    rw [setInsert]
    split
    · simp
    · rename_i hxz
      split
      · rw [List.mem_cons, ih, List.mem_cons]
        grind
      · -- Neither comes before the other: the member is there.
        rename_i hzx
        obtain rfl := htri x z (by simpa using hxz) (by simpa using hzx)
        simp

/-- The members of a set after insertions. -/
theorem mem_foldl_setInsert {α : Type} {lt : α → α → Bool}
    (htri : ∀ a b, lt a b = false → lt b a = false → a = b) (y : α) : ∀ xs ys : List α,
    y ∈ xs.foldl (fun ys x => setInsert lt x ys) ys ↔ y ∈ ys ∨ y ∈ xs
  | [], ys => by simp
  | x :: xs, ys => by
    rw [List.foldl_cons, mem_foldl_setInsert htri y xs, mem_setInsert htri, List.mem_cons]
    grind

/-- A Boolean comparison that is a strict total order. -/
structure IsKeyOrder {α : Type} (lt : α → α → Bool) : Prop where
  irrefl : ∀ a, lt a a = false
  trans : ∀ {a b c}, lt a b = true → lt b c = true → lt a c = true
  trichotomy : ∀ a b, lt a b = false → lt b a = false → a = b

/-- The entries of a map are in strict key order. -/
def KeysSorted {α β : Type} (lt : α → α → Bool) (m : List (α × β)) : Prop :=
  m.Pairwise fun a b => lt a.1 b.1 = true

section Sorted

variable {α β : Type} {lt : α → α → Bool} (O : IsKeyOrder lt)

include O

/-- The entries after an insertion are the new one, and the old ones of other keys. -/
theorem mem_mapInsert_iff (k : α) (v : β) (entry : α × β) : ∀ {m : List (α × β)}, KeysSorted lt m →
    (entry ∈ mapInsert lt k v m ↔ entry = (k, v) ∨ (entry.1 ≠ k ∧ entry ∈ m))
  | [], _ => by simp [mapInsert]
  | (k', v') :: m, hm => by
    obtain ⟨hhead, htail⟩ := List.pairwise_cons.mp hm
    have ih := mem_mapInsert_iff k v entry htail
    -- Every entry of the tail has a key above the first one.
    have habove : ∀ {a}, lt a k' = true ∨ a = k' → entry ∈ m → entry.1 ≠ a := by
      rintro a ha hentry rfl
      have hlt := hhead entry hentry
      obtain ha | ha := ha
      · simpa [O.irrefl] using O.trans hlt ha
      · rw [ha, O.irrefl] at hlt
        cases hlt
    rw [mapInsert]
    split
    · rename_i hlt
      have hne : k' ≠ k := by
        rintro rfl
        rw [O.irrefl] at hlt
        cases hlt
      simp only [List.mem_cons]
      constructor
      · rintro (rfl | rfl | hentry)
        · exact .inl rfl
        · exact .inr ⟨hne, .inl rfl⟩
        · exact .inr ⟨habove (.inl hlt) hentry, .inr hentry⟩
      · rintro (rfl | ⟨-, hentry⟩)
        · exact .inl rfl
        · exact .inr hentry
    · rename_i hnlt
      split
      · rename_i hlt
        have hne : k' ≠ k := by
          rintro rfl
          rw [O.irrefl] at hlt
          cases hlt
        rw [List.mem_cons, ih, List.mem_cons]
        constructor
        · rintro (rfl | rfl | ⟨hkey, hentry⟩)
          · exact .inr ⟨hne, .inl rfl⟩
          · exact .inl rfl
          · exact .inr ⟨hkey, .inr hentry⟩
        · rintro (rfl | ⟨hkey, rfl | hentry⟩)
          · exact .inr (.inl rfl)
          · exact .inl rfl
          · exact .inr (.inr ⟨hkey, hentry⟩)
      · rename_i hnlt'
        obtain rfl : k = k' := O.trichotomy k k' (by simpa using hnlt) (by simpa using hnlt')
        simp only [List.mem_cons]
        constructor
        · rintro (rfl | hentry)
          · exact .inl rfl
          · exact .inr ⟨habove (.inr rfl) hentry, .inr hentry⟩
        · rintro (rfl | ⟨hkey, rfl | hentry⟩)
          · exact .inl rfl
          · exact absurd rfl hkey
          · exact .inr hentry

/-- An insertion keeps a list in order. -/
theorem pairwise_setInsert (x : α) : ∀ {ys : List α}, ys.Pairwise (lt · · = true) →
    (setInsert lt x ys).Pairwise (lt · · = true)
  | [], _ => List.pairwise_singleton _ _
  | y :: ys, hys => by
    obtain ⟨hhead, htail⟩ := List.pairwise_cons.mp hys
    have ih := pairwise_setInsert x htail
    rw [setInsert]
    split
    · rename_i hlt
      refine List.pairwise_cons.mpr ⟨fun z hz => ?_, hys⟩
      obtain rfl | hz := List.mem_cons.mp hz
      · exact hlt
      · exact O.trans hlt (hhead z hz)
    · split
      · rename_i hlt
        refine List.pairwise_cons.mpr ⟨fun z hz => ?_, ih⟩
        obtain rfl | hz := (mem_setInsert O.trichotomy x z ys).mp hz
        · exact hlt
        · exact hhead z hz
      · exact hys

omit O in
/-- The keys are sorted when the list of them is. -/
theorem keysSorted_iff {m : List (α × β)} :
    KeysSorted lt m ↔ (m.map Prod.fst).Pairwise (lt · · = true) := by
  rw [List.pairwise_map]
  exact Iff.rfl

/-- An insertion keeps the keys sorted. -/
theorem keysSorted_mapInsert (k : α) (v : β) {m : List (α × β)} (hm : KeysSorted lt m) :
    KeysSorted lt (mapInsert lt k v m) := by
  rw [keysSorted_iff, keys_mapInsert]
  exact pairwise_setInsert O k (keysSorted_iff.mp hm)

/-- Insertions keep the keys sorted. -/
theorem keysSorted_foldl_mapInsert {γ : Type} (key : γ → α) (value : γ → β) :
    ∀ (l : List γ) {m : List (α × β)},
    KeysSorted lt m → KeysSorted lt (l.foldl (fun m c => mapInsert lt (key c) (value c) m) m)
  | [], _, hm => hm
  | c :: l, _, hm =>
    keysSorted_foldl_mapInsert key value l (keysSorted_mapInsert O (key c) (value c) hm)

/-- The entries after a run of insertions under different keys: those inserted, and those of other
keys. -/
theorem mem_foldl_mapInsert_iff {γ : Type} {key : γ → α} (value : γ → β) (entry : α × β) :
    ∀ {l : List γ} {m : List (α × β)}, KeysSorted lt m → (l.map key).Nodup →
    (entry ∈ l.foldl (fun m c => mapInsert lt (key c) (value c) m) m ↔
      (entry ∈ m ∧ entry.1 ∉ l.map key) ∨ ∃ c ∈ l, entry = (key c, value c))
  | [], m, _, _ => by simp
  | c :: l, m, hm, hnodup => by
    obtain ⟨hc, hl⟩ := List.nodup_cons.mp hnodup
    have hinsert := mem_mapInsert_iff O (key c) (value c) entry hm
    rw [List.foldl_cons,
      mem_foldl_mapInsert_iff value entry (keysSorted_mapInsert O (key c) (value c) hm) hl, hinsert,
      List.map_cons, List.mem_cons, not_or]
    constructor
    · rintro (⟨rfl | ⟨hkey, hentry⟩, hkeys⟩ | ⟨d, hd, rfl⟩)
      · exact .inr ⟨c, List.mem_cons_self, rfl⟩
      · exact .inl ⟨hentry, hkey, hkeys⟩
      · exact .inr ⟨d, List.mem_cons_of_mem _ hd, rfl⟩
    · rintro (⟨hentry, hkey, hkeys⟩ | ⟨d, hd, rfl⟩)
      · exact .inl ⟨.inr ⟨hkey, hentry⟩, hkeys⟩
      · obtain rfl | hd := List.mem_cons.mp hd
        · exact .inl ⟨.inl rfl, hc⟩
        · exact .inr ⟨d, hd, rfl⟩

/-- Maps in key order with the same entries are equal. -/
theorem eq_of_mem_iff {m m' : List (α × β)} (hm : KeysSorted lt m) (hm' : KeysSorted lt m')
    (h : ∀ entry, entry ∈ m ↔ entry ∈ m') : m = m' := by
  have hnodup : ∀ {m : List (α × β)}, KeysSorted lt m → m.Nodup := by
    intro m hm
    refine hm.imp fun {a b} hlt heq => ?_
    rw [heq, O.irrefl] at hlt
    cases hlt
  refine List.Perm.eq_of_pairwise (fun a b _ _ hab hba => ?_) hm hm'
    ((List.perm_ext_iff_of_nodup (hnodup hm) (hnodup hm')).mpr h)
  have hself := O.trans hab hba
  rw [O.irrefl] at hself
  cases hself

/-- The keys of a map in order are different. -/
theorem nodup_keys {m : List (α × β)} (hm : KeysSorted lt m) : (m.map Prod.fst).Nodup := by
  refine (keysSorted_iff.mp hm).imp fun {a b} hlt heq => ?_
  rw [heq, O.irrefl] at hlt
  cases hlt

/-- A map is what its entries in order are inserted to. -/
theorem foldl_mapInsert_entries {m : List (α × β)} (hm : KeysSorted lt m) :
    m.foldl (fun m entry => mapInsert lt entry.1 entry.2 m) [] = m := by
  refine eq_of_mem_iff O (keysSorted_foldl_mapInsert O Prod.fst Prod.snd m List.Pairwise.nil) hm
    fun entry => ?_
  rw [mem_foldl_mapInsert_iff O Prod.snd entry List.Pairwise.nil (nodup_keys O hm)]
  constructor
  · rintro (⟨hnil, -⟩ | ⟨c, hc, rfl⟩)
    · cases hnil
    · exact hc
  · exact fun hentry => .inr ⟨entry, hentry, rfl⟩

/-- A map whose keys are read from its values is what its values are inserted to. -/
theorem foldl_mapInsert_values {key : β → α} {m : List (α × β)} (hm : KeysSorted lt m)
    (hkey : ∀ entry ∈ m, entry.1 = key entry.2) :
    (m.map Prod.snd).foldl (fun m value => mapInsert lt (key value) value m) [] = m := by
  rw [List.foldl_map]
  calc m.foldl (fun m' entry => mapInsert lt (key entry.2) entry.2 m') []
      = m.foldl (fun m' entry => mapInsert lt entry.1 entry.2 m') [] :=
        List.foldl_ext _ _ _ fun m' entry hentry => by rw [hkey entry hentry]
    _ = m := foldl_mapInsert_entries O hm

/-- A set in strict order has no member twice. -/
theorem nodup_of_pairwise {xs : List α} (h : xs.Pairwise (lt · · = true)) : xs.Nodup := by
  refine h.imp fun {a b} hlt heq => ?_
  rw [heq, O.irrefl] at hlt
  cases hlt

/-- An entry of a sorted map is what its key is looked up to. -/
theorem lookup_eq_some_iff [BEq α] [LawfulBEq α] (k : α) (v : β) :
    ∀ {m : List (α × β)}, KeysSorted lt m →
    (m.lookup k = some v ↔ (k, v) ∈ m)
  | [], _ => by simp
  | (k', v') :: m, hm => by
    obtain ⟨hhead, htail⟩ := List.pairwise_cons.mp hm
    rw [List.lookup_cons, List.mem_cons, Prod.mk.injEq]
    cases hk : k == k' with
    | true =>
      obtain rfl : k = k' := eq_of_beq hk
      rw [Option.some_inj]
      constructor
      · rintro rfl
        exact .inl ⟨rfl, rfl⟩
      · rintro (⟨-, rfl⟩ | hmem)
        · rfl
        · have hlt := hhead _ hmem
          rw [O.irrefl] at hlt
          cases hlt
    | false =>
      have hne : k ≠ k' := fun heq => by simp [heq] at hk
      simp only [lookup_eq_some_iff k v htail, hne, false_and, false_or]

/-- A map that is filled by a loop holds what was inserted last under a key. -/
theorem lookup_foldl_mapInsert [DecidableEq α] {γ : Type} (key : γ → α) (value : γ → β) (k : α) :
    ∀ (l : List γ) (m : List (α × β)),
    (l.foldl (fun m c => mapInsert lt (key c) (value c) m) m).lookup k =
      ((l.reverse.find? fun c => key c = k).map value).or (m.lookup k)
  | [], m => rfl
  | c :: l, m => by
    rw [List.foldl_cons, lookup_foldl_mapInsert key value k l,
      lookup_mapInsert O.irrefl O.trichotomy, List.reverse_cons, List.find?_append]
    cases hfind : l.reverse.find? fun c => key c = k with
    | some d => rfl
    | none =>
      by_cases hk : k = key c
      · simp [hk]
      · simp [hk, Ne.symm hk]

omit O in
/-- A search over a sorted map finds the entry of the least key that is wanted. -/
theorem find?_eq_some_of_sorted {p : α × β → Bool} {entry : α × β} :
    ∀ {m : List (α × β)}, KeysSorted lt m →
    m.find? p = some entry → entry ∈ m ∧ p entry = true ∧
      ∀ other ∈ m, p other = true → other = entry ∨ lt entry.1 other.1 = true
  | [], _, h => by cases h
  | first :: m, hm, h => by
    obtain ⟨hhead, htail⟩ := List.pairwise_cons.mp hm
    by_cases hp : p first = true
    · rw [List.find?_cons_of_pos hp, Option.some_inj] at h
      subst h
      refine ⟨List.mem_cons_self, hp, fun other hother _ => ?_⟩
      exact (List.mem_cons.mp hother).imp_right (hhead other)
    · rw [List.find?_cons_of_neg hp] at h
      obtain ⟨hmem, hentry, hleast⟩ := find?_eq_some_of_sorted htail h
      refine ⟨List.mem_cons_of_mem _ hmem, hentry, fun other hother hwanted => ?_⟩
      obtain rfl | hother := List.mem_cons.mp hother
      · exact absurd hwanted hp
      · exact hleast other hother hwanted

end Sorted

end QueryFabric
