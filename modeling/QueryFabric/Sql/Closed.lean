import QueryFabric.Sql.Dialects

/-!
# Closed texts

A text is closed when reading it meets no comment and leaves no quote open. A closed text before a
safe rest is read as by itself (`lex_closed_append`), and one that ends in a boundary character is,
whatever the rest (`lex_glue_append`). Both are decided by running the lexer, so that the fixed
texts of a printer are dealt with by evaluation.
-/

namespace Sql

variable (R : LexRules)

/-- Whether reading a text meets no comment and leaves no quote open, with fuel. -/
def closedFuel : Nat → List Char → Bool
  | 0, cs => cs.isEmpty
  | _ + 1, [] => true
  | fuel + 1, c :: cs =>
    if isSpace c then closedFuel fuel cs
    else if startsComment (c :: cs) then false
    else if isQuote R c && (scanQuoted R.escapes c cs).isNone then false
    else closedFuel fuel (lexToken R (c :: cs)).2

/-- Whether reading a text meets no comment and leaves no quote open. -/
def closed (cs : List Char) : Bool := closedFuel R cs.length cs

/-- A closed text that a boundary character follows. -/
def glue (cs : List Char) : Bool :=
  match cs.getLast? with
  | none => true
  | some c => isBoundary c && closed R cs.dropLast

variable {R}

/-- A quoted text ends at its quote, whatever follows. -/
theorem scanQuoted_append {escapes : Bool} {q : Char} {cs body r rest : List Char}
    (h : scanQuoted escapes q cs = some (body, r)) (hrest : Stops (· == q) rest) :
    scanQuoted escapes q (cs ++ rest) = some (body, r ++ rest) := by
  fun_induction scanQuoted escapes q cs generalizing body r with
  | case1 => cases h
  -- The closing quote is the last character: what is appended must not double it.
  | case2 =>
    cases h
    rcases rest with _ | ⟨d, rest⟩
    · simp [scanQuoted]
    · have hd : d ≠ q := by simpa using hrest d (by simp)
      simp [scanQuoted, hd]
  | case3 ds ih =>
    obtain ⟨p, hp, heq⟩ := Option.map_eq_some_iff.mp h
    cases heq
    simp [scanQuoted, ih hp]
  | case4 d ds hd =>
    cases h
    simp [scanQuoted, hd]
  | case5 => cases h
  -- An escaped character is passed over together with its backslash.
  | case6 c hc hesc d ds ih =>
    obtain ⟨p, hp, heq⟩ := Option.map_eq_some_iff.mp h
    cases heq
    rw [List.cons_append, List.cons_append, scanQuoted.eq_def]
    simp [hc, hesc, ih hp]
  | case7 c cs hc hesc ih =>
    obtain ⟨p, hp, heq⟩ := Option.map_eq_some_iff.mp h
    cases heq
    rw [List.cons_append, scanQuoted.eq_def]
    simp [hc, hesc, ih hp]

/-- A boundary changes nothing of how a number starts. -/
theorem Safe.startsNumber_append {rest : List Char} (h : Safe rest) (c : Char) (cs : List Char) :
    startsNumber (c :: (cs ++ rest)) = startsNumber (c :: cs) := by
  rcases cs with _ | ⟨d, cs⟩
  · rcases rest with _ | ⟨d, rest⟩
    · rfl
    · by_cases hc : c = '.'
      · subst hc
        rcases isBoundary_cases (by simpa using h d (by simp)) with
          rfl | rfl | rfl | rfl | rfl | rfl | rfl | rfl <;> rfl
      · simp [startsNumber, hc]
  · by_cases hc : c = '.'
    · subst hc
      rfl
    · simp [startsNumber, hc]

/-- A boundary changes nothing of how a comment starts. -/
theorem Safe.startsComment_append {rest : List Char} (h : Safe rest) (c : Char) (cs : List Char) :
    startsComment (c :: (cs ++ rest)) = startsComment (c :: cs) := by
  rcases cs with _ | ⟨d, cs⟩
  · rcases rest with _ | ⟨d, rest⟩
    · rfl
    · rcases isBoundary_cases (by simpa using h d (by simp)) with
        rfl | rfl | rfl | rfl | rfl | rfl | rfl | rfl <;> simp [startsComment]
  · unfold startsComment
    split <;> simp_all

/-- A boundary is no quote. -/
theorem Safe.stops_quote {rest : List Char} (h : Safe rest) {q : Char} (hq : isQuote R q = true) :
    Stops (· == q) rest := by
  refine h.stops fun d hd => ?_
  rcases isQuote_cases R hq with rfl | rfl | rfl <;>
    rcases isBoundary_cases hd with rfl | rfl | rfl | rfl | rfl | rfl | rfl | rfl <;> decide

/-- A token before a safe rest is the token of the text before it, unless that text leaves a quote
open. -/
theorem lexToken_append_safe {c : Char} {cs rest : List Char}
    (hq : (isQuote R c && (scanQuoted R.escapes c cs).isNone) = false) (h : Safe rest) :
    lexToken R (c :: (cs ++ rest)) =
      ((lexToken R (c :: cs)).1, (lexToken R (c :: cs)).2 ++ rest) := by
  simp only [lexToken, h.startsNumber_append]
  split_ifs with h₁ h₂ h₃ h₄ h₅ h₆
  · rw [h₁, Bool.true_and, Option.isNone_eq_false_iff, Option.isSome_iff_exists] at hq
    obtain ⟨⟨body, r⟩, hscan⟩ := hq
    rw [scanQuoted_append hscan (h.stops_quote h₁), hscan]
  · rw [takeWhile_append_stops (h.stops_wordPart R), dropWhile_append_stops (h.stops_wordPart R)]
  · rw [← List.cons_append, scanNumber_safe h]
  · rw [takeWhile_append_stops h.stops_digit, dropWhile_append_stops h.stops_digit]
  · rfl
  · -- The operator ends within the run, and the run ends within the text.
    have hrun := takeWhile_append_stops (h.stops_operator R) (c :: cs)
    have hle : R.operatorLength ((c :: cs).takeWhile R.isOperator) ≤ (c :: cs).length := by
      have hcons : ∃ d ds, (c :: cs).takeWhile R.isOperator = d :: ds := by
        simp [h₆]
      obtain ⟨d, ds, hd⟩ := hcons
      have hlen := (List.takeWhile_prefix R.isOperator : _ <+: c :: cs).length_le
      rw [hd] at hlen ⊢
      exact (R.operatorLength_le d ds).trans hlen
    rw [← List.cons_append, hrun, List.take_append_of_le_length hle,
      List.drop_append_of_le_length hle]
  · rfl

/-- The fuel does not matter, if there is enough of it. -/
theorem closedFuel_eq_closedFuel : ∀ (m n : Nat) (cs : List Char), cs.length ≤ m → cs.length ≤ n →
    closedFuel R m cs = closedFuel R n cs
  | 0, 0, _, _, _ => rfl
  | 0, n + 1, [], _, _ => rfl
  | m + 1, 0, [], _, _ => rfl
  | m + 1, n + 1, [], _, _ => rfl
  | m + 1, n + 1, c :: cs, hm, hn => by
    rw [List.length_cons] at hm hn
    have hlt := length_lexToken_lt R c cs
    rw [List.length_cons] at hlt
    rw [closedFuel, closedFuel, closedFuel_eq_closedFuel m n cs (by omega) (by omega),
      closedFuel_eq_closedFuel m n _ (by omega) (by omega)]

/-- What a closed text is made of, one step at a time. -/
theorem closed_cons (c : Char) (cs : List Char) :
    closed R (c :: cs) =
      if isSpace c then closed R cs
      else if startsComment (c :: cs) then false
      else if isQuote R c && (scanQuoted R.escapes c cs).isNone then false
      else closed R (lexToken R (c :: cs)).2 := by
  have hlt := length_lexToken_lt R c cs
  rw [List.length_cons] at hlt
  rw [closed, List.length_cons, closedFuel,
    closedFuel_eq_closedFuel cs.length (lexToken R (c :: cs)).2.length _ (by omega) (le_refl _)]
  rfl

/-- A closed text before a safe rest is read as by itself, and every visible character of it is
read. -/
theorem lex_closed (cs : List Char) (hcs : closed R cs = true) :
    (∀ rest, Safe rest → lex R (cs ++ rest) = lex R cs ++ lex R rest) ∧
      weight (lex R cs) = visible cs := by
  induction hn : cs.length using Nat.strong_induction_on generalizing cs with
  | _ n ih =>
    subst hn
    cases cs with
    | nil => simp [weight, visible]
    | cons c cs =>
      rw [closed_cons] at hcs
      -- A blank, or a token; a closed text starts no comment and leaves no quote open.
      split_ifs at hcs with hspace hcomment hquote
      · obtain ⟨happ, hweight⟩ := ih cs.length (by simp) cs hcs rfl
        refine ⟨fun rest hrest => ?_, ?_⟩
        · rw [List.cons_append, lex_space R hspace, lex_space R hspace, happ rest hrest]
        · rw [lex_space R hspace, hweight]
          simp [visible, hspace]
      · rw [Bool.not_eq_true] at hspace hcomment hquote
        obtain ⟨happ, hweight⟩ := ih _ (length_lexToken_lt R c cs) _ hcs rfl
        refine ⟨fun rest hrest => ?_, ?_⟩
        · have hcomment' : startsComment (c :: (cs ++ rest)) = false := by
            rw [hrest.startsComment_append, hcomment]
          rw [List.cons_append, lex_token R hspace hcomment', lexToken_append_safe hquote hrest,
            happ rest hrest, lex_token R hspace hcomment, List.cons_append]
        · rw [lex_token R hspace hcomment, weight_cons, hweight, ← visible_append, lexToken_append]

/-- The tokens of a closed text stand before those of what follows. -/
theorem lex_closed_append {cs rest : List Char} (hcs : closed R cs = true) (hrest : Safe rest) :
    lex R (cs ++ rest) = lex R cs ++ lex R rest :=
  (lex_closed cs hcs).1 rest hrest

/-- The tokens of a closed text have all its visible characters. -/
theorem weight_lex_closed {cs : List Char} (hcs : closed R cs = true) :
    weight (lex R cs) = visible cs :=
  (lex_closed cs hcs).2

/-- Closed texts compose like texts that are read. -/
theorem closed_append {cs ds : List Char} (hcs : closed R cs = true) (hds : closed R ds = true)
    (hsafe : Safe ds) : closed R (cs ++ ds) = true := by
  induction hn : cs.length using Nat.strong_induction_on generalizing cs with
  | _ n ih =>
    subst hn
    cases cs with
    | nil => exact hds
    | cons c cs =>
      rw [closed_cons] at hcs
      rw [List.cons_append, closed_cons]
      split_ifs at hcs with hspace hcomment hquote
      · rw [if_pos hspace]
        exact ih _ (by simp) hcs rfl
      · rw [Bool.not_eq_true] at hspace hcomment hquote
        -- A quoted text that is closed stays closed.
        have hquote' : (isQuote R c && (scanQuoted R.escapes c (cs ++ ds)).isNone) = false := by
          cases hq : isQuote R c with
          | false => rfl
          | true =>
            rw [hq, Bool.true_and, Option.isNone_eq_false_iff, Option.isSome_iff_exists] at hquote
            obtain ⟨⟨body, r⟩, hscan⟩ := hquote
            rw [scanQuoted_append hscan (hsafe.stops_quote hq)]
            rfl
        rw [hspace, hsafe.startsComment_append, hcomment, hquote',
          lexToken_append_safe hquote hsafe]
        exact ih _ (length_lexToken_lt R c cs) hcs rfl

/-- A boundary character before a closed text. -/
theorem closed_boundary_cons {c : Char} (hc : isBoundary c = true) (cs : List Char) :
    closed R (c :: cs) = closed R cs := by
  rw [closed_cons]
  rcases isBoundary_cases hc with rfl | rfl | rfl | rfl | rfl | rfl | rfl | rfl
  · rfl
  all_goals
    rw [if_neg (by decide), startsComment_cons (by decide) (by decide),
      isQuote_of_isPlain R (by decide), lexToken_punctuation R (by decide) (by simp [startsNumber])]
    rfl

/-- Closed texts around a boundary are closed together. -/
theorem closed_append_boundary {c : Char} {cs ds : List Char} (hcs : closed R cs = true)
    (hc : isBoundary c = true) (hds : closed R ds = true) : closed R (cs ++ c :: ds) = true := by
  refine closed_append hcs ?_ fun d hd => ?_
  · rw [closed_boundary_cons hc, hds]
  · simp only [List.head?_cons, Option.mem_def, Option.some.injEq] at hd
    simp [← hd, hc]

/-- Whether no two neighbouring characters open a comment. -/
def commentFree : List Char → Bool
  | [] => true
  | c :: cs => !startsComment (c :: cs) && commentFree cs

/-- The end of a text without comments has none. -/
theorem commentFree_append_right : ∀ {cs ds : List Char}, commentFree (cs ++ ds) = true →
    commentFree ds = true
  | [], _, h => h
  | c :: cs, ds, h => by
    rw [List.cons_append, commentFree, Bool.and_eq_true] at h
    exact commentFree_append_right h.2

/-- A text without quotes and comments is closed. -/
theorem closed_of_quoteFree {cs : List Char} (hq : ∀ c ∈ cs, isQuote R c = false)
    (hc : commentFree cs = true) : closed R cs = true := by
  induction hn : cs.length using Nat.strong_induction_on generalizing cs with
  | _ n ih =>
    subst hn
    cases cs with
    | nil => rfl
    | cons c cs =>
      have hcomment : startsComment (c :: cs) = false ∧ commentFree cs = true := by
        simpa [commentFree] using hc
      have happ := lexToken_append R (c :: cs)
      rw [closed_cons, hcomment.1, hq c (by simp), Bool.false_and, if_neg Bool.false_ne_true,
        if_neg Bool.false_ne_true]
      split_ifs with hspace
      · exact ih _ (by simp) (fun d hd => hq d (by simp [hd])) hcomment.2 rfl
      · refine ih _ (length_lexToken_lt R c cs) (fun d hd => hq d ?_) ?_ rfl
        · exact happ ▸ List.mem_append_right _ hd
        · exact commentFree_append_right (happ.symm ▸ hc)

/-- A boundary character is read by itself. -/
theorem lex_boundary {c : Char} (h : isBoundary c = true) (rest : List Char) :
    lex R (c :: rest) = lex R [c] ++ lex R rest := by
  rcases isBoundary_cases h with rfl | rfl | rfl | rfl | rfl | rfl | rfl | rfl
  · rw [lex_space R (by decide), lex_space R (by decide)]
    rfl
  all_goals
    rw [lex_punctuation R (by decide) (by simp [startsNumber]),
      lex_punctuation R (by decide) (by decide)]
    rfl

/-- The token of a boundary has its visible characters. -/
theorem weight_boundary {c : Char} (h : isBoundary c = true) :
    weight (lex R [c]) = visible [c] := by
  rcases isBoundary_cases h with rfl | rfl | rfl | rfl | rfl | rfl | rfl | rfl
  · rw [lex_space R (by decide)]
    rfl
  all_goals
    rw [lex_punctuation R (by decide) (by decide)]
    rfl

/-- A closed text with a boundary character at its end is read as by itself before any rest. -/
theorem lex_glue {cs : List Char} (hcs : glue R cs = true) :
    (∀ rest, lex R (cs ++ rest) = lex R cs ++ lex R rest) ∧ weight (lex R cs) = visible cs := by
  unfold glue at hcs
  rcases List.eq_nil_or_concat cs with rfl | ⟨init, c, rfl⟩
  · simp [weight, visible]
  · simp only [List.concat_eq_append, List.getLast?_append, List.getLast?_singleton, Option.some_or,
      List.dropLast_concat, Bool.and_eq_true] at hcs ⊢
    have hsafe : ∀ rest, Safe (c :: rest) := fun rest d hd => by
      simp only [List.head?_cons, Option.mem_def, Option.some.injEq] at hd
      simp [← hd, hcs.1]
    have hinit := lex_closed_append hcs.2 (hsafe [])
    refine ⟨fun rest => ?_, ?_⟩
    · rw [List.append_assoc, List.singleton_append, lex_closed_append hcs.2 (hsafe rest),
        lex_boundary hcs.1, hinit, List.append_assoc]
    · rw [hinit, weight_append, weight_lex_closed hcs.2, weight_boundary hcs.1, visible_append]

/-- The tokens of glue stand before those of what follows. -/
theorem lex_glue_append {cs : List Char} (hcs : glue R cs = true) (rest : List Char) :
    lex R (cs ++ rest) = lex R cs ++ lex R rest :=
  (lex_glue hcs).1 rest

/-- The tokens of glue have all its visible characters. -/
theorem weight_lex_glue {cs : List Char} (hcs : glue R cs = true) :
    weight (lex R cs) = visible cs :=
  (lex_glue hcs).2

/-! ## Comments -/

/-- Whether reading a text meets a comment, with fuel. -/
def meetsCommentFuel (R : LexRules) : Nat → List Char → Bool
  | 0, _ => false
  | _ + 1, [] => false
  | fuel + 1, c :: cs =>
    if isSpace c then meetsCommentFuel R fuel cs
    else startsComment (c :: cs) || meetsCommentFuel R fuel (lexToken R (c :: cs)).2

/-- Whether reading a text meets a comment: one that opens outside the tokens. -/
def meetsComment (R : LexRules) (cs : List Char) : Bool := meetsCommentFuel R cs.length cs

/-- A text meets no comment exactly when every visible character of it belongs to a token. -/
theorem weight_lex_eq_iff_fuel : ∀ (fuel : Nat) (cs : List Char), cs.length ≤ fuel →
    (weight (lex R cs) = visible cs ↔ meetsCommentFuel R fuel cs = false)
  | 0, [], _ => by simp [weight, visible, meetsCommentFuel]
  | _ + 1, [], _ => by simp [weight, visible, meetsCommentFuel]
  | fuel + 1, c :: cs, hlen => by
    have hlt := length_lexToken_lt R c cs
    rw [List.length_cons] at hlen hlt
    rw [meetsCommentFuel]
    by_cases hspace : isSpace c = true
    · have ih := weight_lex_eq_iff_fuel fuel cs (by omega)
      rw [if_pos hspace, lex_space R hspace, ← ih]
      simp [visible, hspace]
    · rw [if_neg hspace]
      rw [Bool.not_eq_true] at hspace
      cases hcomment : startsComment (c :: cs) with
      | true => simpa using (weight_lex_comment_lt R hcomment).ne
      | false =>
        have ih := weight_lex_eq_iff_fuel fuel (lexToken R (c :: cs)).2 (by omega)
        have happ := congrArg visible (lexToken_append R (c :: cs))
        rw [visible_append] at happ
        rw [lex_token R hspace hcomment, weight_cons, Bool.false_or, ← ih]
        omega

/-- The tokens have all visible characters just when no comment is met. -/
theorem weight_lex_eq_iff (cs : List Char) :
    weight (lex R cs) = visible cs ↔ meetsComment R cs = false :=
  weight_lex_eq_iff_fuel cs.length cs (le_refl _)

/-! ## Texts without a backslash -/

/-- The rules without escapes: inside quotes only the doubled quote is special. -/
def LexRules.plain (R : LexRules) : LexRules := { R with escapes := false }

/-- Without backslashes escapes change nothing of a quoted text. -/
theorem scanQuoted_plain_of_not_mem (escapes : Bool) {q : Char} {cs : List Char} (h : '\\' ∉ cs) :
    scanQuoted escapes q cs = scanQuoted false q cs := by
  fun_induction scanQuoted escapes q cs with
  | case1 => rfl
  | case2 => simp [scanQuoted]
  | case3 ds ih => simp [scanQuoted, ih (by simp_all)]
  | case4 d ds hd => simp [scanQuoted, hd]
  | case5 c hc hesc => simp_all
  | case6 c hc hesc d ds ih => simp_all
  | case7 c cs hc hesc ih =>
    rw [ih (by simp_all), scanQuoted.eq_def false q (c :: cs)]
    simp [hc]

variable (R)

/-- Without backslashes escapes change nothing of a token. -/
theorem lexToken_plain {cs : List Char} (h : '\\' ∉ cs) : lexToken R.plain cs = lexToken R cs := by
  cases cs with
  | nil => rfl
  | cons c cs =>
    have hcs : '\\' ∉ cs := fun hmem => h (List.mem_cons_of_mem _ hmem)
    have hscan := scanQuoted_plain_of_not_mem R.escapes (q := c) hcs
    simp only [lexToken]
    rw [show R.plain.escapes = false from rfl, ← hscan]
    rfl

/-- What follows a token has no backslashes either. -/
theorem not_mem_lexToken_snd {cs : List Char} (h : '\\' ∉ cs) : '\\' ∉ (lexToken R cs).2 := by
  have happ := lexToken_append R cs
  intro hmem
  exact h (happ ▸ List.mem_append_right _ hmem)

/-- Without a backslash, escapes make no difference. -/
theorem lex_plain (cs : List Char) (h : '\\' ∉ cs) : lex R.plain cs = lex R cs := by
  induction hn : cs.length using Nat.strong_induction_on generalizing cs with
  | _ n ih =>
    subst hn
    cases cs with
    | nil => rfl
    | cons c cs =>
      have hcs : '\\' ∉ cs := fun hmem => h (List.mem_cons_of_mem _ hmem)
      by_cases hspace : isSpace c = true
      · rw [lex_space _ hspace, lex_space _ hspace]
        exact ih _ (by simp) _ hcs rfl
      by_cases hcomment : startsComment (c :: cs) = true
      · rw [lex_comment _ hcomment, lex_comment _ hcomment]
        obtain ⟨a, b, tail, heq, -, -, hsuffix⟩ := afterComment_suffix hcomment
        refine ih _ (length_afterComment_lt hcomment) _ (fun hmem => h ?_) rfl
        rw [heq]
        exact List.mem_cons_of_mem _ (List.mem_cons_of_mem _ (hsuffix.subset hmem))
      · rw [Bool.not_eq_true] at hspace hcomment
        rw [lex_token _ hspace hcomment, lex_token _ hspace hcomment, lexToken_plain R h]
        rw [ih _ (length_lexToken_lt R c cs) _ (not_mem_lexToken_snd R h) rfl]

end Sql
