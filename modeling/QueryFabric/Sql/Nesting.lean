import QueryFabric.Sql.Pieces

/-!
# Parentheses

At an opening parenthesis a parser looks for the one that closes it. `splitGroup` is that search,
and `depthAfter` how deep in parentheses a text is. Tokens that leave no parenthesis open and close
none that they do not open are `Balanced`: wherever they stand, a parser finds the parenthesis that
was written after them (`Balanced.split_eq`).
-/

namespace Sql

/-- An opening parenthesis. -/
def openParen : Token := ⟨.symbol, ['(']⟩

/-- A closing parenthesis. -/
def closeParen : Token := ⟨.symbol, [')']⟩

/-- The depth after some tokens, from the depth before them, unless they close a parenthesis that is
not open. -/
def depthAfter : Nat → List Token → Option Nat
  | depth, [] => some depth
  | depth, t :: ts =>
    if t = openParen then depthAfter (depth + 1) ts
    else if t = closeParen then
      match depth with
      | 0 => none
      | depth + 1 => depthAfter depth ts
    else depthAfter depth ts

/-- The tokens up to the parenthesis that closes the group that is `depth` groups above them, and
those after it. -/
def splitGroup : Nat → List Token → Option (List Token × List Token)
  | _, [] => none
  | depth, t :: ts =>
    if t = openParen then (splitGroup (depth + 1) ts).map fun p => (t :: p.1, p.2)
    else if t = closeParen then
      match depth with
      | 0 => some ([], ts)
      | depth + 1 => (splitGroup depth ts).map fun p => (t :: p.1, p.2)
    else (splitGroup depth ts).map fun p => (t :: p.1, p.2)

variable {d e k : Nat} {t : Token} {ts us : List Token}

/-- The depth after an opening parenthesis. -/
theorem depthAfter_open : depthAfter d (openParen :: ts) = depthAfter (d + 1) ts := if_pos rfl

/-- The depth after a closing parenthesis. -/
theorem depthAfter_close : depthAfter (d + 1) (closeParen :: ts) = depthAfter d ts := rfl

/-- The depth after another token. -/
theorem depthAfter_other (ho : t ≠ openParen) (hc : t ≠ closeParen) :
    depthAfter d (t :: ts) = depthAfter d ts := by
  cases d <;> rw [depthAfter, if_neg ho, if_neg hc]

/-- An opening parenthesis within a group. -/
theorem splitGroup_open : splitGroup d (openParen :: ts) =
    (splitGroup (d + 1) ts).map fun p => (openParen :: p.1, p.2) := if_pos rfl

/-- A closing parenthesis within a group. -/
theorem splitGroup_close : splitGroup (d + 1) (closeParen :: ts) =
    (splitGroup d ts).map fun p => (closeParen :: p.1, p.2) := rfl

/-- Another token within a group. -/
theorem splitGroup_other (ho : t ≠ openParen) (hc : t ≠ closeParen) :
    splitGroup d (t :: ts) = (splitGroup d ts).map fun p => (t :: p.1, p.2) := by
  cases d <;> rw [splitGroup, if_neg ho, if_neg hc]

/-- The depth after two lists of tokens. -/
theorem depthAfter_append (h : depthAfter d ts = some e) :
    depthAfter d (ts ++ us) = depthAfter e us := by
  induction ts generalizing d with
  | nil =>
    obtain rfl := Option.some.inj h
    rfl
  | cons t ts ih =>
    rw [List.cons_append]
    by_cases ho : t = openParen
    · subst ho
      rw [depthAfter_open] at h ⊢
      exact ih h
    by_cases hc : t = closeParen
    · subst hc
      cases d with
      | zero => cases h
      | succ d =>
        rw [depthAfter_close] at h ⊢
        exact ih h
    · rw [depthAfter_other ho hc] at h ⊢
      exact ih h

/-- Deeper in parentheses the same tokens do the same. -/
theorem depthAfter_add (h : depthAfter d ts = some e) (k : Nat) :
    depthAfter (d + k) ts = some (e + k) := by
  induction ts generalizing d with
  | nil =>
    obtain rfl := Option.some.inj h
    rfl
  | cons t ts ih =>
    by_cases ho : t = openParen
    · subst ho
      rw [depthAfter_open] at h ⊢
      rw [Nat.add_right_comm]
      exact ih h
    by_cases hc : t = closeParen
    · subst hc
      cases d with
      | zero => cases h
      | succ d =>
        rw [depthAfter_close] at h
        rw [Nat.add_right_comm, depthAfter_close]
        exact ih h
    · rw [depthAfter_other ho hc] at h ⊢
      exact ih h

/-- A search goes past tokens that close no parenthesis but what they open or what they are in. -/
theorem splitGroup_append (h : depthAfter d ts = some e) :
    splitGroup d (ts ++ us) = (splitGroup e us).map fun p => (ts ++ p.1, p.2) := by
  induction ts generalizing d with
  | nil =>
    obtain rfl := Option.some.inj h
    exact (congrFun Option.map_id _).symm
  | cons t ts ih =>
    rw [List.cons_append]
    -- An opening bracket goes one level in, a closing one out again.
    by_cases ho : t = openParen
    · subst ho
      rw [depthAfter_open] at h
      rw [splitGroup_open, ih h, Option.map_map]
      rfl
    by_cases hc : t = closeParen
    · subst hc
      cases d with
      | zero => cases h
      | succ d =>
        rw [depthAfter_close] at h
        rw [splitGroup_close, ih h, Option.map_map]
        rfl
    · rw [depthAfter_other ho hc] at h
      rw [splitGroup_other ho hc, ih h, Option.map_map]
      rfl

/-- What a search finds is the text, at the parenthesis that closes the group. -/
theorem splitGroup_eq {p : List Token × List Token} (h : splitGroup d ts = some p) :
    ts = p.1 ++ closeParen :: p.2 := by
  induction ts generalizing d p with
  | nil => cases h
  | cons t ts ih =>
    by_cases ho : t = openParen
    · subst ho
      rw [splitGroup_open] at h
      obtain ⟨rest, hrest, rfl⟩ := Option.map_eq_some_iff.mp h
      exact congrArg (openParen :: ·) (ih hrest)
    by_cases hc : t = closeParen
    · subst hc
      cases d with
      -- The bracket that closes the group.
      | zero =>
        obtain rfl := Option.some.inj h
        rfl
      | succ d =>
        rw [splitGroup_close] at h
        obtain ⟨rest, hrest, rfl⟩ := Option.map_eq_some_iff.mp h
        exact congrArg (closeParen :: ·) (ih hrest)
    · rw [splitGroup_other ho hc] at h
      obtain ⟨rest, hrest, rfl⟩ := Option.map_eq_some_iff.mp h
      exact congrArg (t :: ·) (ih hrest)

/-- Each closing parenthesis among the tokens closes an opening one among them, and each opening one
is closed. -/
def Balanced (ts : List Token) : Prop := depthAfter 0 ts = some 0

namespace Balanced

/-- Balanced tokens keep the depth. -/
theorem depth_eq (h : Balanced ts) (d : Nat) : depthAfter d ts = some d := by
  have := depthAfter_add h d
  rwa [Nat.zero_add] at this

/-- The parenthesis after balanced tokens is the one that closes the group that they are in. -/
theorem split_eq (h : Balanced ts) (us : List Token) :
    splitGroup 0 (ts ++ closeParen :: us) = some (ts, us) := by
  rw [splitGroup_append h]
  exact congrArg some (congrArg (·, us) (List.append_nil ts))

/-- Balanced tokens behind balanced ones. -/
theorem append (hts : Balanced ts) (hus : Balanced us) : Balanced (ts ++ us) :=
  (depthAfter_append hts).trans hus

/-- Tokens without parentheses are balanced. -/
theorem of_forall (h : ∀ t ∈ ts, t ≠ openParen ∧ t ≠ closeParen) : Balanced ts := by
  induction ts with
  | nil => rfl
  | cons t ts ih =>
    obtain ⟨⟨ho, hc⟩, hrest⟩ := List.forall_mem_cons.mp h
    exact (depthAfter_other ho hc).trans (ih hrest)

end Balanced

/-! ## Texts -/

section Lex

variable {R : LexRules}

/-- The characters of a token are characters of the text. -/
theorem mem_of_mem_lex {cs : List Char} {a : Char} (h : t ∈ lex R cs) (ha : a ∈ t.text) :
    a ∈ cs := by
  induction hn : cs.length using Nat.strong_induction_on generalizing cs with
  | _ n ih =>
    subst hn
    cases cs with
    | nil =>
      rw [lex_nil] at h
      cases h
    | cons c cs =>
      -- A blank, a comment, or a token that the character belongs to.
      cases hspace : isSpace c with
      | true =>
        rw [lex_space R hspace] at h
        exact List.mem_cons_of_mem c (ih _ (Nat.lt_succ_self _) h rfl)
      | false =>
        cases hcomment : startsComment (c :: cs) with
        | true =>
          rw [lex_comment R hcomment] at h
          obtain ⟨d, e, tail, heq, -, -, hsuffix⟩ := afterComment_suffix hcomment
          have htail := hsuffix.subset (ih _ (length_afterComment_lt hcomment) h rfl)
          rw [heq]
          exact List.mem_cons_of_mem d (List.mem_cons_of_mem e htail)
        | false =>
          rw [lex_token R hspace hcomment] at h
          rw [← lexToken_append R (c :: cs)]
          obtain rfl | h := List.mem_cons.mp h
          · exact List.mem_append_left _ ha
          · exact List.mem_append_right _ (ih _ (length_lexToken_lt R c cs) h rfl)

/-- A text without parentheses. -/
theorem balanced_lex_of_not_mem {cs : List Char} (ho : '(' ∉ cs) (hc : ')' ∉ cs) :
    Balanced (lex R cs) := by
  refine .of_forall fun t ht => ⟨?_, ?_⟩
  · rintro rfl
    exact ho (mem_of_mem_lex ht List.mem_cons_self)
  · rintro rfl
    exact hc (mem_of_mem_lex ht List.mem_cons_self)

/-- A closed text with another in parentheses after it. -/
theorem balanced_lex_group {cs ds : List Char} (hcs : closed R cs = true) (hds : closed R ds = true)
    (hc : Balanced (lex R cs)) (hd : Balanced (lex R ds)) :
    Balanced (lex R (cs ++ '(' :: (ds ++ [')']))) := by
  have hopen : lex R ('(' :: (ds ++ [')'])) = openParen :: lex R (ds ++ [')']) :=
    lex_punctuation R rfl rfl
  have hclose : lex R [')'] = [closeParen] := lex_punctuation R rfl rfl
  rw [lex_closed_append hcs (Safe.cons (by decide) _), hopen,
    lex_closed_append hds (Safe.cons (by decide) _), hclose]
  refine hc.append ?_
  show depthAfter 1 (lex R ds ++ [closeParen]) = some 0
  rw [depthAfter_append (hd.depth_eq 1)]
  rfl

end Lex

end Sql
