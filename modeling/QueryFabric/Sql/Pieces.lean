import QueryFabric.Sql.Closed

/-!
# Texts written piece by piece

A printer writes a text as a list of pieces. The tokens it means to write are those of the pieces,
each read by itself and with doubled quotes as the only escapes (`writtenTokens`). `Reads R P ok ps`
says what a dialect reads before a rest that `P` allows: the tokens written when `ok` holds, and
something else when it does not. The lemmas compose pieces: a piece that ends in a boundary
character may stand before anything, any other piece before one that starts with a boundary
character.
-/

namespace Sql

/-- The characters of the pieces. -/
def chars (ps : List String) : List Char := ps.flatMap String.toList

/-- The tokens of the pieces, each read by itself. -/
def writtenTokens (R : LexRules) (ps : List String) : List Token :=
  ps.flatMap fun p => lex R.plain p.toList

/-- The text of the pieces, before a rest that `P` allows, is read as the tokens written exactly
when `ok` holds. -/
structure Reads (R : LexRules) (P : List Char → Prop) (ok : Prop) (ps : List String) : Prop where
  whole : weight (writtenTokens R ps) = visible (chars ps)
  joins : ok → ∀ rest, P rest → lex R (chars ps ++ rest) = writtenTokens R ps ++ lex R rest
  fails : ¬ ok → ∀ rest tokens, P rest → weight tokens = visible rest →
    lex R (chars ps ++ rest) ≠ writtenTokens R ps ++ tokens

/-- The text of the pieces is read as the tokens written before any rest. -/
abbrev Glues (R : LexRules) (ps : List String) : Prop := Reads R (fun _ => True) True ps

variable {R : LexRules} {P Q : List Char → Prop} {ok ok' : Prop} {ps qs : List String}

/-- The characters of two lists of pieces. -/
@[simp]
theorem chars_append (ps qs : List String) : chars (ps ++ qs) = chars ps ++ chars qs :=
  List.flatMap_append

/-- The characters of a piece and of those behind it. -/
@[simp]
theorem chars_cons (p : String) (ps : List String) : chars (p :: ps) = p.toList ++ chars ps :=
  List.flatMap_cons

/-- No pieces have no characters. -/
@[simp]
theorem chars_nil : chars [] = [] := rfl

/-- The tokens of two lists of pieces. -/
@[simp]
theorem writtenTokens_append (ps qs : List String) :
    writtenTokens R (ps ++ qs) = writtenTokens R ps ++ writtenTokens R qs :=
  List.flatMap_append

/-- The tokens of a piece and of those behind it. -/
@[simp]
theorem writtenTokens_cons (p : String) (ps : List String) :
    writtenTokens R (p :: ps) = lex R.plain p.toList ++ writtenTokens R ps :=
  List.flatMap_cons

/-- No pieces have no tokens. -/
@[simp]
theorem writtenTokens_nil : writtenTokens R [] = [] := rfl

/-- Nothing is safe to follow. -/
theorem Safe.nil : Safe [] := Stops.nil _

/-- A boundary is safe to follow. -/
theorem Safe.cons {c : Char} (h : isBoundary c = true) (cs : List Char) : Safe (c :: cs) := by
  intro d hd
  simp only [List.head?_cons, Option.mem_def, Option.some.injEq] at hd
  simp [← hd, h]

/-- A safe text is safe before another. -/
theorem Safe.append {cs rest : List Char} (hcs : Safe cs) (hrest : Safe rest) :
    Safe (cs ++ rest) := by
  rcases cs with _ | ⟨c, cs⟩
  · exact hrest
  · exact fun d hd => hcs d (by simpa using hd)

/-- Pieces are read under an equivalent condition. -/
theorem Reads.congr (h : Reads R P ok ps) (hok : ok ↔ ok') : Reads R P ok' ps :=
  ⟨h.whole, fun ho => h.joins (hok.mpr ho), fun ho => h.fails fun h => ho (hok.mp h)⟩

/-- Pieces are read before less. -/
theorem Reads.mono (h : Reads R P ok ps) (hpq : ∀ rest, Q rest → P rest) : Reads R Q ok ps :=
  ⟨h.whole, fun ho rest hr => h.joins ho rest (hpq rest hr),
    fun ho rest tokens hr => h.fails ho rest tokens (hpq rest hr)⟩

/-- No pieces are read as nothing. -/
theorem Reads.nil : Reads R P True [] :=
  ⟨rfl, fun _ rest _ => by simp, fun h => absurd trivial h⟩

/-- The empty text is read as written. -/
theorem Reads.ok_of_nil (h : Reads R P ok []) (hnil : P []) : ok := by
  by_contra hok
  exact h.fails hok [] [] hnil rfl (by simp)

/-- The whole text, read by itself. -/
theorem Reads.lex_eq_iff (h : Reads R P ok ps) (hnil : P []) :
    lex R (chars ps) = writtenTokens R ps ↔ ok := by
  constructor
  · intro heq
    by_contra hok
    exact h.fails hok [] [] hnil rfl (by simpa using heq)
  · intro hok
    simpa using h.joins hok [] hnil

/-- A text of which every token was written meets no comment. -/
theorem Reads.meetsComment_eq_false (h : Reads R P ok ps)
    (heq : lex R (chars ps) = writtenTokens R ps) : meetsComment R (chars ps) = false := by
  rw [← weight_lex_eq_iff, heq, h.whole]

/-- Pieces before others that may follow them. -/
theorem Reads.append (hp : Reads R P ok ps) (hq : Reads R Q ok' qs)
    (hfollow : ∀ rest, Q rest → P (chars qs ++ rest)) : Reads R Q (ok ∧ ok') (ps ++ qs) where
  whole := by simp [hp.whole, hq.whole]
  joins hok rest hrest := by
    simp [hp.joins hok.1 _ (hfollow rest hrest), hq.joins hok.2 rest hrest]
  fails hok rest tokens hrest hw heq := by
    rw [chars_append, writtenTokens_append, List.append_assoc, List.append_assoc] at heq
    by_cases hfirst : ok
    · -- The first pieces are read as written, so the others are not.
      rw [hp.joins hfirst _ (hfollow rest hrest), List.append_cancel_left_eq] at heq
      exact hq.fails (fun h => hok ⟨hfirst, h⟩) rest tokens hrest hw heq
    · exact hp.fails hfirst _ _ (hfollow rest hrest) (by simp [hq.whole, hw]) heq

/-- Pieces that end in a boundary may stand before anything. -/
theorem Reads.glue_append (hp : Glues R ps) (hq : Reads R P ok qs) : Reads R P ok (ps ++ qs) :=
  (hp.append hq fun _ _ => trivial).congr (by simp)

/-- Pieces before others that start with a boundary. -/
theorem Reads.append_safe (hp : Reads R Safe ok ps) (hq : Reads R Safe ok' qs)
    (hsafe : Safe (chars qs)) : Reads R Safe (ok ∧ ok') (ps ++ qs) :=
  hp.append hq fun _ hrest => hsafe.append hrest

/-- Pieces before glue that starts with a boundary. -/
theorem Reads.append_glue (hp : Reads R Safe ok ps) (hq : Glues R qs) (hsafe : Safe (chars qs)) :
    Reads R Safe ok (ps ++ qs) :=
  (hp.append_safe (hq.mono fun _ _ => trivial) hsafe).congr (by simp)

/-- A piece whose plain reading is the dialect's. -/
theorem Reads.of_lex {p : String} (hb : '\\' ∉ p.toList)
    (hw : weight (lex R p.toList) = visible p.toList)
    (h : ∀ rest, P rest → lex R (p.toList ++ rest) = lex R p.toList ++ lex R rest) :
    Reads R P True [p] where
  whole := by simpa [lex_plain R _ hb] using hw
  joins _ rest hrest := by simp [h rest hrest, lex_plain R _ hb]
  fails hok := absurd trivial hok

/-- A closed piece without a backslash is read as written. -/
theorem Reads.of_closed {p : String} (h : closed R p.toList = true) (hb : '\\' ∉ p.toList) :
    Reads R Safe True [p] :=
  .of_lex hb (weight_lex_closed h) fun _ hrest => lex_closed_append h hrest

/-- A closed piece that ends in a boundary, without a backslash, is glue. -/
theorem Reads.of_glue {p : String} (h : glue R p.toList = true) (hb : '\\' ∉ p.toList) :
    Glues R [p] :=
  .of_lex hb (weight_lex_glue h) fun rest _ => lex_glue_append h rest

/-! ## Names -/

/-- The rests before which a name ends. -/
def EndsName (R : LexRules) (rest : List Char) : Prop :=
  Stops R.isWordPart rest ∧ Stops (· == '"') rest

/-- A boundary ends a name. -/
theorem Safe.endsName {rest : List Char} (h : Safe rest) : EndsName R rest :=
  ⟨h.stops_wordPart R, h.stops_quote (R := R) (by simp [isQuote, R.doubleQuote_mem])⟩

/-- A dot is a token unless a digit follows. -/
theorem Reads.dot : Reads R (Stops Char.isDigit) True ["."] := by
  have hdot : ∀ rest, Stops Char.isDigit rest →
      lex R ('.' :: rest) = ⟨.symbol, ['.']⟩ :: lex R rest := by
    intro rest hrest
    refine lex_punctuation R (by decide) ?_
    rcases rest with _ | ⟨c, rest⟩
    · rfl
    · simpa [startsNumber] using hrest c (by simp)
  have hone : lex R ['.'] = [⟨.symbol, ['.']⟩] := by simpa using hdot [] (by simp [Stops])
  refine .of_lex (by decide) ?_ fun rest hrest => ?_
  · rw [show ".".toList = ['.'] from rfl, hone]
    rfl
  · rw [show ".".toList = ['.'] from rfl, hone, List.singleton_append, hdot rest hrest]
    rfl

/-- A dot before a digit starts a number. -/
theorem Reads.dot_digit {c : Char} {cs : List Char} (hc : c.isDigit = true)
    (hps : chars ps = c :: cs) (h : Reads R P ok ps) : Reads R P False (["."] ++ ps) where
  whole := by
    have hdot := (Reads.dot (R := R)).whole
    simp only [writtenTokens_append, chars_append, weight_append, visible_append, hdot, h.whole]
  joins hok := hok.elim
  fails _ rest tokens _ _ heq := by
    have hdot := (Reads.dot (R := R.plain)).joins trivial [] (by simp [Stops])
    have hstart : startsNumber ('.' :: c :: (cs ++ rest)) = true := hc
    have hwritten : lex R.plain ".".toList = [⟨.symbol, ['.']⟩] :=
      lex_punctuation R.plain (by decide) (by decide)
    simp only [List.singleton_append, chars_cons, hps, writtenTokens_cons, hwritten] at heq
    rw [show ".".toList = ['.'] from rfl, List.singleton_append, List.cons_append, List.cons_append,
      lex_number R hstart] at heq
    simp at heq

/-- A word is a token before a rest that ends it. -/
theorem Reads.word {p : String} {c : Char} {cs : List Char} (hp : p.toList = c :: cs)
    (hc : R.isWordStart c = true) (hcs : cs.all R.isWordPart = true) (hb : '\\' ∉ p.toList) :
    Reads R (EndsName R) True [p] := by
  have hone := lex_word R hc hcs (Stops.nil _)
  rw [List.append_nil, lex_nil] at hone
  refine .of_lex hb ?_ fun rest hrest => ?_
  · rw [hp, hone, weight_cons]
    simp [weight]
  · rw [hp, hone, lex_word R hc hcs hrest.1]
    rfl

/-! ## Signs -/

/-- The text of the pieces starts with signs, if any, and a character that is no operator. -/
def Leads (R : LexRules) (ps : List String) : Prop :=
  ∃ signs c tail, chars ps = signs ++ c :: tail ∧ signs.all isSign = true ∧ R.isOperator c = false

/-- Leading pieces lead with others behind them. -/
theorem Leads.append (h : Leads R ps) (qs : List String) : Leads R (ps ++ qs) := by
  obtain ⟨signs, c, tail, heq, hsigns, hc⟩ := h
  exact ⟨signs, c, tail ++ chars qs, by simp [heq], hsigns, hc⟩

/-- The text of the pieces starts with a character that is no operator. -/
def Starts (R : LexRules) (ps : List String) : Prop :=
  ∃ c tail, chars ps = c :: tail ∧ R.isOperator c = false

/-- Starting pieces start with others behind them. -/
theorem Starts.append (h : Starts R ps) (qs : List String) : Starts R (ps ++ qs) := by
  obtain ⟨c, tail, heq, hc⟩ := h
  exact ⟨c, tail ++ chars qs, by simp [heq], hc⟩

/-- What starts leads. -/
theorem Starts.leads (h : Starts R ps) : Leads R ps := by
  obtain ⟨c, tail, heq, hc⟩ := h
  exact ⟨[], c, tail, heq, rfl, hc⟩

/-- What starts is no minus. -/
theorem Starts.head?_ne (h : Starts R ps) : (chars ps).head? ≠ some '-' := by
  obtain ⟨c, tail, heq, hc⟩ := h
  rw [heq, List.head?_cons]
  intro hminus
  rw [Option.some.injEq] at hminus
  rw [hminus, R.isOperator_standard '-' (by decide)] at hc
  cases hc

/-- A sign before an operand is read as written unless the two open a comment. -/
theorem Reads.sign {p : String} {c : Char} (hp : p.toList = [c]) (hc : isSign c = true)
    (hlead : Leads R ps) (h : Reads R P ok ps) :
    Reads R P (ok ∧ ¬ (c = '-' ∧ (chars ps).head? = some '-')) ([p] ++ ps) := by
  obtain ⟨signs, d, tail, hchars, hsigns, hd⟩ := hlead
  have htoken : lex R.plain [c] = [⟨.symbol, [c]⟩] := by
    have hop : [c] ∈ standardOperators := by
      simp only [isSign, Bool.or_eq_true, beq_iff_eq] at hc
      rcases hc with rfl | rfl <;> decide
    simpa using lex_operator R.plain hop (Stops.nil _)
  -- A sign opens a comment before a minus only, and only when it is one itself.
  have hcomment : ∀ rest, startsComment (c :: (chars ps ++ rest)) = true ↔
      (c = '-' ∧ (chars ps).head? = some '-') := by
    intro rest
    have hne : chars ps ≠ [] := by simp [hchars]
    obtain ⟨e, es, he⟩ := List.exists_cons_of_ne_nil hne
    simp only [isSign, Bool.or_eq_true, beq_iff_eq] at hc
    rw [he, List.cons_append, List.head?_cons]
    rcases hc with rfl | rfl
    · simp [startsComment]
    · by_cases hminus : e = '-'
      · subst hminus
        simp [startsComment]
      · simp [startsComment, hminus]
  have hsign : ∀ rest, ¬ (c = '-' ∧ (chars ps).head? = some '-') →
      lex R (c :: (chars ps ++ rest)) = ⟨.symbol, [c]⟩ :: lex R (chars ps ++ rest) := by
    intro rest hno
    have hfalse : startsComment (c :: (chars ps ++ rest)) = false := by
      rw [Bool.eq_false_iff]
      exact fun h => hno ((hcomment rest).mp h)
    have happ : chars ps ++ rest = signs ++ (d :: tail ++ rest) := by simp [hchars]
    rw [happ] at hfalse ⊢
    exact lex_sign R hc hsigns (fun e he => by simp_all) hfalse
  have hwhole : weight (writtenTokens R ([p] ++ ps)) = visible (chars ([p] ++ ps)) := by
    rw [writtenTokens_append, chars_append, weight_append, visible_append, h.whole]
    simp [hp, htoken, weight]
  refine ⟨hwhole, fun hok rest hrest => ?_, fun hok rest tokens hrest hw heq => ?_⟩
  · simp [hp, htoken, hsign rest hok.2, h.joins hok.1 rest hrest]
  · simp only [chars_cons, hp, List.cons_append, List.nil_append,
      writtenTokens_cons, htoken] at heq
    by_cases hminus : c = '-' ∧ (chars ps).head? = some '-'
    · -- The comment is read as less than was written.
      have hlt := weight_lex_comment_lt R ((hcomment rest).mpr hminus)
      rw [heq] at hlt
      simp only [weight_cons, weight_append, h.whole, hw, visible, List.countP_cons,
        List.countP_append, List.countP_nil] at hlt
      omega
    · rw [hsign rest hminus, List.cons_inj_right] at heq
      exact h.fails (fun h => hok ⟨h, hminus⟩) rest tokens hrest hw heq

end Sql
