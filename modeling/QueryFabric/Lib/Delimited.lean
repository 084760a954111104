import Mathlib.Data.List.Basic

/-!
# Texts that say where they end

A text that is written in front of others can be read back when it says what its value is and where
it ends, whatever follows it (`Delimits`). A list of such texts with a separator between them can be
read back up to the mark that closes it (`delimits_intercalate`), and so can a text in quotes whose
quotes are escaped (`EscapedBody.append_inj`).
-/

namespace Lib

section Delimits

variable {α β γ : Type}

/-- In front of anything that may follow it the text of `a` says what its value is and where it
ends. -/
def Delimits (text : α → List γ) (value : α → β) (follows : List γ → Prop) (a : α) : Prop :=
  ∀ b r r', follows r → follows r' → text a ++ r = text b ++ r' → value a = value b ∧ r = r'

variable {text : α → List γ} {value : α → β} {follows : List γ → Prop} {separator close : γ}

/-- The texts of a list with a separator between them, and what closes them. -/
def closedTexts (text : α → List γ) (separator close : γ) (as : List α) (r : List γ) : List γ :=
  [separator].intercalate (as.map text) ++ close :: r

/-- What comes after the first of the texts. -/
def textsAfter (text : α → List γ) (separator close : γ) : List α → List γ → List γ
  | [], r => close :: r
  | a :: as, r => separator :: closedTexts text separator close (a :: as) r

/-- Delimited texts, with the first one in front. -/
theorem closedTexts_cons (a : α) (as : List α) (r : List γ) :
    closedTexts text separator close (a :: as) r = text a ++
      textsAfter text separator close as r := by
  unfold closedTexts
  cases as with
  | nil =>
    rw [List.map_singleton, List.intercalate_singleton]
    rfl
  | cons a' as =>
    rw [List.map_cons, List.map_cons, List.intercalate_cons_cons, List.append_assoc,
      List.append_assoc]
    rfl

/-- What follows the texts starts with a delimiter. -/
theorem follows_textsAfter (hseparator : ∀ r, follows (separator :: r))
    (hclose : ∀ r, follows (close :: r))
    (as : List α) (r : List γ) : follows (textsAfter text separator close as r) := by
  cases as with
  | nil => exact hclose r
  | cons a as => exact hseparator _

/-- A list that is closed at once is not one that has a text. -/
theorem closedTexts_cons_ne (hopen : ∀ a, ∃ c rest, text a = c :: rest ∧ c ≠ close) (a : α)
    (as : List α) (r r' : List γ) : closedTexts text separator close (a :: as) r ≠ close :: r' := by
  obtain ⟨c, rest, htext, hc⟩ := hopen a
  rw [closedTexts_cons, htext]
  exact fun h => hc (List.cons.inj h).1

/-- Texts with a separator between them can be read back up to the mark that closes them. -/
theorem delimits_intercalate (hne : separator ≠ close)
    (hopen : ∀ a, ∃ c rest, text a = c :: rest ∧ c ≠ close)
    (hseparator : ∀ r, follows (separator :: r)) (hclose : ∀ r, follows (close :: r)) {as : List α}
    (h : ∀ a ∈ as, Delimits text value follows a) : ∀ {bs : List α} {r r' : List γ},
    closedTexts text separator close as r = closedTexts text separator close bs r' →
      as.map value = bs.map value ∧ r = r' := by
  induction as with
  | nil =>
    intro bs r r' heq
    cases bs with
    | nil => exact ⟨rfl, (List.cons.inj heq).2⟩
    | cons b bs => exact absurd heq.symm (closedTexts_cons_ne hopen b bs r' r)
  | cons a as ih =>
    obtain ⟨ha, has⟩ := List.forall_mem_cons.mp h
    intro bs r r' heq
    cases bs with
    | nil => exact absurd heq (closedTexts_cons_ne hopen a as r r')
    | cons b bs =>
      rw [closedTexts_cons, closedTexts_cons] at heq
      obtain ⟨hvalue, hafter⟩ := ha b _ _ (follows_textsAfter hseparator hclose as r)
        (follows_textsAfter hseparator hclose bs r') heq
      rw [List.map_cons, List.map_cons, hvalue]
      -- Both lists go on behind a separator, or both end.
      cases as with
      | nil =>
        cases bs with
        | nil => exact ⟨rfl, (List.cons.inj hafter).2⟩
        | cons b' bs => exact absurd (List.cons.inj hafter).1.symm hne
      | cons a' as =>
        cases bs with
        | nil => exact absurd (List.cons.inj hafter).1 hne
        | cons b' bs =>
          obtain ⟨hvalues, hend⟩ := ih has (List.cons.inj hafter).2
          exact ⟨by rw [hvalues], hend⟩

/-- A text of some characters only ends where another character follows. -/
theorem append_inj_of_all {p : γ → Bool} {s t r r' : List γ} (hs : ∀ c ∈ s, p c = true)
    (ht : ∀ c ∈ t, p c = true)
    (hr : ∀ c ∈ r.head?, p c = false) (hr' : ∀ c ∈ r'.head?, p c = false) (h : s ++ r = t ++ r') :
    s = t ∧ r = r' := by
  have htake {l rest : List γ} (hl : ∀ c ∈ l, p c = true) (hrest : ∀ c ∈ rest.head?, p c = false) :
      (l ++ rest).takeWhile p = l := by
    rw [List.takeWhile_append_of_pos hl]
    cases rest with
    | nil => rw [List.takeWhile_nil, List.append_nil]
    | cons c rest => rw [List.takeWhile_cons_of_neg (by simp [hrest c rfl]), List.append_nil]
  have hst : s = t := by rw [← htake hs hr, h, htake ht hr']
  subst hst
  exact ⟨rfl, List.append_cancel_left h⟩

end Delimits

section Escapes

/-- A text in which each quote stands behind a backslash, as the backslash itself does. -/
inductive EscapedBody : List Char → Prop
  | nil : EscapedBody []
  | plain {c : Char} {rest : List Char} (hquote : c ≠ '"') (hescape : c ≠ '\\')
    (hrest : EscapedBody rest) :
    EscapedBody (c :: rest)
  | escape (c : Char) {rest : List Char} (hrest : EscapedBody rest) :
    EscapedBody ('\\' :: c :: rest)

/-- The first quote that is not escaped ends the text. -/
theorem EscapedBody.append_inj {body body' : List Char} (h : EscapedBody body)
    (h' : EscapedBody body')
    {r r' : List Char} (heq : body ++ '"' :: r = body' ++ '"' :: r') : body = body' ∧ r = r' := by
  -- The two bodies are compared character by character.
  induction h generalizing body' with
  | nil =>
    cases h' with
    | nil => exact ⟨rfl, (List.cons.inj heq).2⟩
    | plain hquote => exact absurd (List.cons.inj heq).1.symm hquote
    | escape c => exact absurd (List.cons.inj heq).1 (by decide)
  | plain hquote hescape hrest ih =>
    cases h' with
    | nil => exact absurd (List.cons.inj heq).1 hquote
    | plain hquote' hescape' hrest' =>
      obtain ⟨hc, htail⟩ := List.cons.inj heq
      obtain ⟨hbody, hend⟩ := ih hrest' htail
      exact ⟨by rw [hc, hbody], hend⟩
    | escape c => exact absurd (List.cons.inj heq).1 hescape
  | escape c hrest ih =>
    cases h' with
    | nil => exact absurd (List.cons.inj heq).1 (by decide)
    | plain hquote hescape => exact absurd (List.cons.inj heq).1.symm hescape
    | escape c' hrest' =>
      obtain ⟨-, htail⟩ := List.cons.inj heq
      obtain ⟨hc, htail⟩ := List.cons.inj htail
      obtain ⟨hbody, hend⟩ := ih hrest' htail
      exact ⟨by rw [hc, hbody], hend⟩

end Escapes

end Lib
