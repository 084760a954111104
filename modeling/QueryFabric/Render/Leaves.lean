import QueryFabric.Ir.Nodes
import QueryFabric.Render.Obligations
import QueryFabric.Render.Quoting
import QueryFabric.Sql.Pieces

/-!
# How the leaves of an expression are read

Names, literals, types and parameters as pieces of a text: what a backend reads where the renderer
has written them. Only quoted texts can go wrong, and only where backslashes escape: `backslashSafe`
says when the closing quote of a quoted text is the one that was written.
-/

namespace QueryFabric.Render

open Sql Lib

/-- No backslash of a text is followed by the quote or ends the text. -/
def backslashSafe (quote : Char) : List Char → Bool
  | [] => true
  | ['\\'] => false
  | '\\' :: c :: cs => c != quote && backslashSafe quote cs
  | _ :: cs => backslashSafe quote cs

/-- A quoted text is closed by its last quote, as the backend reads it. -/
def closesAtEnd (backend : SqlBackend) (quote : Char) (value : String) : Bool :=
  backend == .postgres || backslashSafe quote value.toList

/-! ## Quoted texts -/

section Quoted

/-- With one quote left over from a doubled pair, a text closes too early or not at all. -/
theorem scanQuoted_odd_ne {q : Char} {rest : List Char} (escapes : Bool) : ∀ cs : List Char,
    scanQuoted escapes q (q :: (doubleQuotes q cs ++ q :: rest)) ≠
      some (q :: (doubleQuotes q cs ++ [q]), rest)
  | [] => by
    intro h
    rw [doubleQuotes, List.nil_append, scanQuoted_doubled] at h
    obtain ⟨p, hp, heq⟩ := Option.map_eq_some_iff.mp h
    obtain ⟨inner, hinner⟩ := scanQuoted_eq_append hp
    simp [hinner] at heq
  | c :: cs => by
    by_cases hc : c = q
    · subst hc
      intro h
      rw [doubleQuotes, if_pos rfl, List.cons_append, scanQuoted_doubled] at h
      obtain ⟨⟨body, r⟩, hp, heq⟩ := Option.map_eq_some_iff.mp h
      simp only [List.cons_append, Prod.mk.injEq, List.cons.injEq, true_and] at heq
      refine scanQuoted_odd_ne escapes cs (hp.trans ?_)
      rw [heq.1, heq.2]
    · rw [doubleQuotes_cons_of_ne hc]
      simp [scanQuoted, hc]

variable {q : Char} {rest : List Char}

/-- A quoted text is read up to its last quote exactly when no backslash escapes a quote of it. -/
theorem scanQuoted_doubleQuotes_iff (hq : q ≠ '\\') (hrest : Stops (· == q) rest) (cs : List Char) :
    scanQuoted true q (doubleQuotes q cs ++ q :: rest) = some (doubleQuotes q cs ++ [q], rest) ↔
      backslashSafe q cs = true := by
  fun_induction backslashSafe q cs with
  | case1 => simp [doubleQuotes, scanQuoted_close hrest]
  | case2 =>
    -- The last quote is escaped, so that the text goes on.
    rw [doubleQuotes_cons_of_ne hq.symm, doubleQuotes, List.singleton_append, scanQuoted_escaped hq]
    refine iff_of_false (fun h => ?_) Bool.false_ne_true
    obtain ⟨p, hp, heq⟩ := Option.map_eq_some_iff.mp h
    obtain ⟨inner, hinner⟩ := scanQuoted_eq_append hp
    simp [hinner] at heq
  | case3 c cs ih =>
    rw [doubleQuotes_cons_of_ne hq.symm]
    by_cases hc : c = q
    · -- The first quote of the pair is escaped, so that the second one is read by itself.
      subst hc
      simp only [doubleQuotes, if_true, List.cons_append, scanQuoted_escaped hq, bne_self_eq_false,
        Bool.false_and, Bool.false_eq_true, iff_false]
      intro h
      obtain ⟨⟨body, r⟩, hp, heq⟩ := Option.map_eq_some_iff.mp h
      simp only [Prod.mk.injEq, List.cons.injEq, true_and] at heq
      refine scanQuoted_odd_ne true cs (hp.trans ?_)
      rw [heq.1, heq.2]
    · rw [doubleQuotes_cons_of_ne hc, List.cons_append, List.cons_append, scanQuoted_escaped hq]
      simp only [bne_iff_ne, ne_eq, hc, not_false_eq_true, Bool.and_eq_true, true_and, ← ih]
      cases scanQuoted true q (doubleQuotes q cs ++ q :: rest) <;> simp [Prod.ext_iff]
  | case4 c cs h₁ h₂ ih =>
    have hc : c ≠ '\\' := by
      rintro rfl
      cases cs with
      | nil => exact h₁ rfl rfl
      | cons d ds => exact h₂ d ds rfl rfl
    rw [← ih]
    by_cases hcq : c = q
    · subst hcq
      simp only [doubleQuotes, if_true, List.cons_append, scanQuoted_doubled]
      cases scanQuoted true c (doubleQuotes c cs ++ c :: rest) <;> simp [Prod.ext_iff]
    · rw [doubleQuotes_cons_of_ne hcq, List.cons_append, scanQuoted_plain hcq fun _ => hc]
      cases scanQuoted true q (doubleQuotes q cs ++ q :: rest) <;> simp [Prod.ext_iff]

/-- Where nothing escapes, a quoted text is read up to its last quote. -/
theorem scanQuoted_doubleQuotes_plain (hrest : Stops (· == q) rest) : ∀ cs : List Char,
    scanQuoted false q (doubleQuotes q cs ++ q :: rest) = some (doubleQuotes q cs ++ [q], rest)
  | [] => by simp [doubleQuotes, scanQuoted_close hrest]
  | c :: cs => by
    have ih := scanQuoted_doubleQuotes_plain hrest cs
    by_cases hcq : c = q
    · subst hcq
      simp [doubleQuotes, scanQuoted_doubled, ih]
    · rw [doubleQuotes_cons_of_ne hcq, List.cons_append, scanQuoted_plain hcq (by simp), ih]
      rfl

/-- A quoted value is read as written exactly when its last quote closes it. -/
theorem reads_quoted {R : LexRules} (hq : isQuote R q = true) (value : String) :
    Reads R (Stops (· == q)) (R.escapes = true → backslashSafe q value.toList = true)
      [quoted q value] := by
  have hne : q ≠ '\\' := by rcases isQuote_cases R hq with rfl | rfl | rfl <;> decide
  -- The text is the quote, the doubled body and the closing quote.
  have htext : (quoted q value).toList = q :: (doubleQuotes q value.toList ++ [q]) := by
    simp [quoted]
  -- Without escapes the text is one token, whatever its body holds.
  have hwritten : writtenTokens R [quoted q value] =
      [⟨quotedKind q, q :: (doubleQuotes q value.toList ++ [q])⟩] := by
    -- With escapes the body has to be safe, or the backslash takes the closing quote.
    have hscan := scanQuoted_doubleQuotes_plain (Stops.nil (· == q)) value.toList
    rw [writtenTokens_cons, writtenTokens_nil, htext,
      lex_quoted R.plain (show isQuote R.plain q = true from hq) hscan]
    rfl
  have hchars : ∀ rest, chars [quoted q value] ++ rest =
      q :: (doubleQuotes q value.toList ++ q :: rest) := by simp [htext]
  refine ⟨?_, fun hok rest hrest => ?_, fun hok rest tokens hrest _ heq => ?_⟩
  · rw [hwritten, ← List.append_nil (chars _), hchars]
    simp [weight]
  · have hscan : scanQuoted R.escapes q (doubleQuotes q value.toList ++ q :: rest) =
        some (doubleQuotes q value.toList ++ [q], rest) := by
      cases hesc : R.escapes with
      | true => exact (scanQuoted_doubleQuotes_iff hne hrest _).mpr (hok hesc)
      | false => exact scanQuoted_doubleQuotes_plain hrest _
    rw [hchars, hwritten, lex_quoted R hq hscan]
    rfl
  -- An unsafe body closes elsewhere, so the first token differs.
  · rw [Classical.not_imp] at hok
    refine hok.2 ((scanQuoted_doubleQuotes_iff hne hrest _).mp ?_)
    rw [hchars, hwritten, List.singleton_append] at heq
    cases hscan : scanQuoted R.escapes q (doubleQuotes q value.toList ++ q :: rest) with
    | none =>
      rw [lex_unclosed R hq hscan] at heq
      simp only [List.cons.injEq, Token.mk.injEq] at heq
      simp only [quotedKind] at heq
      split_ifs at heq <;> simp at heq
    | some p =>
      obtain ⟨body, r⟩ := p
      have happ := append_of_scanQuoted hscan
      rw [lex_quoted R hq hscan] at heq
      simp only [List.cons.injEq, Token.mk.injEq, true_and] at heq
      rw [heq.1, List.append_assoc, List.append_cancel_left_eq] at happ
      simp only [List.singleton_append, List.cons.injEq, true_and] at happ
      rw [← hok.1, hscan, heq.1, happ]

end Quoted

/-! ## Names -/

variable {b : SqlBackend}

/-- Both backends quote names and texts. -/
theorem SqlBackend.isQuote_rules (b : SqlBackend) : isQuote b.rules '"' = true ∧
    isQuote b.rules '\'' = true := by
  cases b <;> decide

/-- A text closes at its end when its backslashes are safe. -/
theorem closesAtEnd_iff {q : Char} {value : String} : closesAtEnd b q value = true ↔
    (b.rules.escapes = true → backslashSafe q value.toList = true) := by
  cases b <;> simp [closesAtEnd, SqlBackend.rules, clickHouseRules, postgresRules]

/-- Without backslashes a text is safe. -/
theorem backslashSafe_of_not_mem {q : Char} {cs : List Char} (h : '\\' ∉ cs) :
    backslashSafe q cs = true := by
  fun_induction backslashSafe q cs <;> simp_all

/-- The first characters of a name as it is written. -/
def isNameStart (c : Char) : Bool := isIdentifierStart c || c == '"'

/-- The text of the pieces starts like a name. -/
def StartsName (ps : Pieces) : Prop := ∃ c tail, chars ps = c :: tail ∧ isNameStart c = true

/-- A name starts with others behind it. -/
theorem StartsName.append {ps : Pieces} (h : StartsName ps) (qs : Pieces) :
    StartsName (ps ++ qs) := by
  obtain ⟨c, tail, heq, hc⟩ := h
  exact ⟨c, tail ++ chars qs, by simp [heq], hc⟩

/-- No letter and no digit is a character of an operator. -/
theorem not_mem_operatorChars_of_isAlphanum {c : Char} (h : c.isAlphanum = true) :
    c ∉ operatorChars := by
  have hall : operatorChars.all (fun c => !c.isAlphanum) = true := by decide
  intro hmem
  simpa [h] using List.all_eq_true.mp hall c hmem

/-- What starts a name is no digit and no operator. -/
theorem isNameStart_facts {c : Char} (h : isNameStart c = true) :
    c.isDigit = false ∧ c ∉ operatorChars := by
  simp only [isNameStart, isIdentifierStart, Bool.or_eq_true, beq_iff_eq] at h
  rcases h with (rfl | h) | rfl
  · decide
  · refine ⟨?_, not_mem_operatorChars_of_isAlphanum (by simp [Char.isAlphanum, h])⟩
    by_contra hd
    rw [isAlpha_of_isDigit (by simpa using hd)] at h
    cases h
  · decide

/-- A name that starts like one does not continue a dot to a number. -/
theorem StartsName.stops_digit {ps : Pieces} (h : StartsName ps) (rest : List Char) :
    Stops Char.isDigit (chars ps ++ rest) := by
  obtain ⟨c, tail, heq, hc⟩ := h
  intro d hd
  simp only [heq, List.cons_append, List.head?_cons, Option.mem_def, Option.some.injEq] at hd
  exact hd ▸ (isNameStart_facts hc).1

/-- A name is a start. -/
theorem StartsName.starts {ps : Pieces} (h : StartsName ps) : Starts b.rules ps := by
  obtain ⟨c, tail, heq, hc⟩ := h
  refine ⟨c, tail, heq, ?_⟩
  by_contra hop
  exact (isNameStart_facts hc).2 (b.rules.mem_operatorChars c (by simpa using hop))

/-- A name is read as written exactly when its quotes, if any, close where they were written. -/
theorem reads_identifier {value text : String} (h : renderIdentifier b value = .ok text) :
    Reads b.rules (EndsName b.rules) (closesAtEnd b '"' value = true) [text] ∧
      StartsName [text] := by
  unfold renderIdentifier at h
  split_ifs at h with hid hsimple <;> cases h
  · have hword : isPlainWord value = true := by
      simp only [isSimpleIdentifier, Bool.and_eq_true] at hsimple
      exact hsimple.2
    obtain ⟨c, cs, hv, hstart, hc, hcs, hb⟩ := plainWord_facts b.rules hword
    refine ⟨(Reads.word hv hc hcs hb).congr ?_, c, cs, by simp [hv], by simp [isNameStart, hstart]⟩
    simp [closesAtEnd, backslashSafe_of_not_mem hb]
  · refine ⟨((reads_quoted b.isQuote_rules.1 value).congr closesAtEnd_iff.symm).mono
      fun rest hrest => hrest.2, '"', doubleQuotes '"' value.toList ++ ['"'], by simp [quoted],
      by decide⟩

/-- A name ends before a dot. -/
theorem ends_dot (rest : List Char) : EndsName b.rules ('.' :: rest) := by
  refine ⟨fun c hc => ?_, fun c hc => ?_⟩ <;>
    simp only [List.head?_cons, Option.mem_def, Option.some.injEq] at hc <;> subst hc
  · cases b <;> decide
  · decide

/-- Two names with a dot between them. -/
theorem reads_dotted {P : List Char → Prop} {ok ok' : Prop} {ps qs : Pieces}
    (hp : Reads b.rules (EndsName b.rules) ok ps) (hq : Reads b.rules P ok' qs)
    (hstart : ∀ rest, Stops Char.isDigit (chars qs ++ rest)) :
    Reads b.rules P (ok ∧ ok') (ps ++ (["."] ++ qs)) := by
  have hdot : Reads b.rules P ok' (["."] ++ qs) :=
    (Reads.dot.append hq fun rest _ => hstart rest).congr (by simp)
  exact hp.append hdot fun rest _ => ends_dot _

/-- Each segment of a dotted name closes where it was written. -/
def segmentsClose (b : SqlBackend) (value : String) : Bool :=
  (splitDots value).all (closesAtEnd b '"')

/-- What `render_function_ref` writes is read as written: the names close, and no number follows the
dot of a namespace. -/
def functionNameLexes (b : SqlBackend) (function : FunctionRef) : Bool :=
  function.namespace_.all (closesAtEnd b '"') &&
    if isParameterizedFunctionName function.name then
      function.namespace_.isNone || !function.name.toList.head?.any Char.isDigit
    else closesAtEnd b '"' function.name

/-- Segments are read when each closes at its end. -/
theorem reads_segments : ∀ {segments texts : List String}, segments ≠ [] →
    segments.mapM (renderIdentifier b) = .ok texts →
    Reads b.rules (EndsName b.rules) (segments.all (closesAtEnd b '"') = true)
      (texts.intersperse ".") ∧ StartsName (texts.intersperse ".")
  | [], _, hne, _ => absurd rfl hne
  | [segment], texts, _, h => by
    rw [List.mapM_cons] at h
    obtain ⟨text, htext, h⟩ := bind_eq_ok.mp h
    cases h
    simpa using reads_identifier htext
  -- The segments are joined by dots, and what follows a dot starts a name.
  | first :: second :: segments, texts, _, h => by
    rw [List.mapM_cons] at h
    obtain ⟨text, htext, h⟩ := bind_eq_ok.mp h
    obtain ⟨rest, hrest, h⟩ := bind_eq_ok.mp h
    rw [pure_eq_ok] at h
    subst h
    obtain ⟨hreads, hstart⟩ := reads_identifier htext
    obtain ⟨hreads', hstart'⟩ := reads_segments (List.cons_ne_nil _ _) hrest
    rcases rest with _ | ⟨t, ts⟩
    · simp [StartsName] at hstart'
    have hjoin : (text :: t :: ts).intersperse "." =
        [text] ++ (["."] ++ (t :: ts).intersperse ".") := by simp
    rw [hjoin]
    refine ⟨(reads_dotted hreads hreads' hstart'.stops_digit).congr (by simp), hstart.append _⟩

/-- A qualified name is read when its segments close. -/
theorem reads_qualifiedName {value : String} {ps : Pieces}
    (h : renderQualifiedName b value = .ok ps) :
    Reads b.rules (EndsName b.rules) (segmentsClose b value = true) ps ∧ StartsName ps := by
  simp only [renderQualifiedName] at h
  split_ifs at h
  obtain ⟨texts, htexts, h⟩ := bind_eq_ok.mp h
  rw [pure_eq_ok] at h
  subst h
  refine reads_segments (fun hnil => ?_) htexts
  simp [splitDots] at hnil

/-- A namespace before what follows it. -/
theorem reads_namespace {namespace_ : Option String} {P : List Char → Prop} {ok : Prop}
    {ps qs : Pieces} (h : renderNamespace b namespace_ = .ok ps) (hq : Reads b.rules P ok qs)
    (hstart : StartsName qs) :
    Reads b.rules P (namespace_.all (closesAtEnd b '"') = true ∧ ok) (ps ++ qs) ∧
      StartsName (ps ++ qs) := by
  cases namespace_ with
  | none =>
    cases h
    exact ⟨hq.congr (by simp), hstart⟩
  | some value =>
    obtain ⟨text, htext, h⟩ := bind_eq_ok.mp h
    cases h
    obtain ⟨hreads, hstart'⟩ := reads_identifier htext
    exact ⟨reads_dotted hreads hq hstart.stops_digit, hstart'.append _⟩

/-- A reference is read when its parts close. -/
theorem reads_nameRef {name : NameRef} {ps : Pieces} (h : renderNameRef b name = .ok ps) :
    Reads b.rules (EndsName b.rules) (name.namespace_.all (closesAtEnd b '"') = true ∧
      closesAtEnd b '"' name.name = true) ps := by
  obtain ⟨text, htext, h⟩ := bind_eq_ok.mp h
  obtain ⟨namespace_, hnamespace, h⟩ := bind_eq_ok.mp h
  rw [pure_eq_ok] at h
  subst h
  obtain ⟨hreads, hstart⟩ := reads_identifier htext
  exact (reads_namespace hnamespace hreads hstart).1

/-! ## Texts without quotes -/

/-- The characters of numbers, names and types: no quote, no backslash and no slash. -/
def isLeafChar (c : Char) : Bool :=
  c.isAlphanum || ['_', '(', ')', '.', ',', '$', '+'].contains c

/-- What a character of a leaf is not. -/
theorem isLeafChar_facts {c : Char} (h : isLeafChar c = true) :
    c ≠ '\\' ∧ c ≠ '-' ∧ c ≠ '/' ∧ c ≠ '\'' ∧ c ≠ '"' ∧ c ≠ '`' := by
  refine ⟨?_, ?_, ?_, ?_, ?_, ?_⟩ <;> rintro rfl <;> revert h <;> decide

/-- The texts of number literals: what the tokenizer of the parser accepts as a number starts with a
digit or a dot, goes on with digits, letters, dots, underscores and signs, and has no comment. -/
def isNumeral (text : String) : Bool :=
  text.toList.head?.any (fun c => c.isDigit || c == '.') &&
    text.toList.all (fun c => isLeafChar c || c == '-') && commentFree text.toList

/-- Leaves have no comments. -/
theorem commentFree_of_leafChars : ∀ {cs : List Char}, cs.all isLeafChar = true →
    commentFree cs = true
  | [], _ => rfl
  | c :: cs, h => by
    rw [List.all_cons, Bool.and_eq_true] at h
    obtain ⟨-, hminus, hslash, -⟩ := isLeafChar_facts h.1
    rw [commentFree, startsComment_cons hminus hslash, commentFree_of_leafChars h.2]
    rfl

/-- Closed texts in which no backslash occurs. -/
def Plain (R : LexRules) (cs : List Char) : Prop := closed R cs = true ∧ '\\' ∉ cs

/-- A plain text is read as its tokens. -/
theorem Plain.reads {R : LexRules} {text : String} (h : Plain R text.toList) :
    Reads R Safe True [text] :=
  Reads.of_closed h.1 h.2

/-- Plain texts around a boundary are plain together. -/
theorem Plain.append {R : LexRules} {c : Char} {cs ds : List Char} (hcs : Plain R cs)
    (hc : isBoundary c = true) (hds : Plain R ds) : Plain R (cs ++ c :: ds) := by
  refine ⟨closed_append_boundary hcs.1 hc hds.1, fun hmem => ?_⟩
  rcases List.mem_append.mp hmem with hmem | hmem
  · exact hcs.2 hmem
  · rcases List.mem_cons.mp hmem with rfl | hmem
    · exact absurd hc (by decide)
    · exact hds.2 hmem

/-- Punctuation before a plain text is plain. -/
theorem Plain.punctuation_cons {R : LexRules} {c : Char} {cs : List Char} (h : Plain R cs)
    (hc : isPunctuation c = true) (hnum : startsNumber (c :: cs) = false) : Plain R (c :: cs) := by
  have hplain := (isPlain_of_isPunctuation hc).1
  have hquote := isQuote_of_isPlain R hplain
  simp only [isPlain, Bool.and_eq_true, bne_iff_ne, Bool.not_eq_true'] at hplain
  obtain ⟨⟨⟨⟨⟨⟨⟨⟨⟨hspace, hminus⟩, hslash⟩, -⟩, -⟩, -⟩, -⟩, -⟩, -⟩, -⟩ := hplain
  refine ⟨?_, fun hmem => ?_⟩
  · rw [closed_cons, hspace, startsComment_cons hminus hslash, hquote,
      lexToken_punctuation R hc hnum]
    exact h.1
  · rcases List.mem_cons.mp hmem with rfl | hmem
    · exact absurd hc (by decide)
    · exact h.2 hmem

/-- Without quotes and comment openers, a text is closed. -/
theorem plain_of_signs (R : LexRules) {cs : List Char}
    (h : cs.all (fun c => isLeafChar c || c == '-') = true) (hc : commentFree cs = true) :
    Plain R cs := by
  have hchar : ∀ c ∈ cs, c ≠ '\\' ∧ c ≠ '\'' ∧ c ≠ '"' ∧ c ≠ '`' := by
    intro c hmem
    have := List.all_eq_true.mp h c hmem
    simp only [Bool.or_eq_true, beq_iff_eq] at this
    rcases this with hleaf | rfl
    · obtain ⟨h₀, -, -, h₁, h₂, h₃⟩ := isLeafChar_facts hleaf
      exact ⟨h₀, h₁, h₂, h₃⟩
    · decide
  refine ⟨closed_of_quoteFree (fun c hmem => ?_) hc, fun hmem => (hchar _ hmem).1 rfl⟩
  obtain ⟨-, h₁, h₂, h₃⟩ := hchar c hmem
  by_contra hq
  rcases isQuote_cases R (by simpa using hq) with hq | hq | hq <;> contradiction

/-- Leaves are plain. -/
theorem plain_leafChars (R : LexRules) {cs : List Char} (h : cs.all isLeafChar = true) :
    Plain R cs :=
  plain_of_signs R (List.all_eq_true.mpr fun c hc => by simp [List.all_eq_true.mp h c hc])
    (commentFree_of_leafChars h)

/-- The decimal digits of a number. -/
theorem digits_toString (n : Nat) : ∃ c cs, (toString n).toList = c :: cs ∧
    (c :: cs).all Char.isDigit = true := by
  have hdigits : (toString n).toList = Nat.toDigits 10 n := Nat.toList_repr
  obtain ⟨c, cs, hc⟩ := List.exists_cons_of_ne_nil (Nat.toDigits_ne_nil (n := n) (b := 10))
  refine ⟨c, cs, hdigits.trans hc, List.all_eq_true.mpr fun d hd => ?_⟩
  exact Nat.isDigit_of_mem_toDigits (by decide) (by decide) (hc ▸ hd)

/-- Digits are leaves. -/
theorem leafChars_digits {cs : List Char} (h : cs.all Char.isDigit = true) :
    cs.all isLeafChar = true :=
  List.all_eq_true.mpr fun c hc => by
    simp [isLeafChar, Char.isAlphanum, List.all_eq_true.mp h c hc]

/-- A number is plain. -/
theorem plain_toString (R : LexRules) (n : Nat) : Plain R (toString n).toList := by
  obtain ⟨c, cs, heq, hdigits⟩ := digits_toString n
  exact heq ▸ plain_leafChars R (leafChars_digits hdigits)

/-- The text of an integer: digits, and a minus before them when it is negative. -/
theorem toString_int (i : Int) : ∃ c cs, c.isDigit = true ∧ cs.all Char.isDigit = true ∧
    (toString i).toList = (if i < 0 then ['-'] else []) ++ c :: cs := by
  cases i with
  | ofNat n =>
    obtain ⟨c, cs, heq, hdigits⟩ := digits_toString n
    rw [List.all_cons, Bool.and_eq_true] at hdigits
    exact ⟨c, cs, hdigits.1, hdigits.2, heq⟩
  | negSucc n =>
    obtain ⟨c, cs, heq, hdigits⟩ := digits_toString (n + 1)
    rw [List.all_cons, Bool.and_eq_true] at hdigits
    refine ⟨c, cs, hdigits.1, hdigits.2, ?_⟩
    rw [if_pos (Int.negSucc_lt_zero n), ← heq]
    have : toString (Int.negSucc n) = "-" ++ toString (n + 1) := rfl
    rw [this, String.toList_append]
    rfl

/-- An integer is plain. -/
theorem plain_int (R : LexRules) (i : Int) : Plain R (toString i).toList := by
  obtain ⟨c, cs, hc, hcs, heq⟩ := toString_int i
  have hleaf : (c :: cs).all isLeafChar = true :=
    leafChars_digits (by rw [List.all_cons, hc, hcs]; rfl)
  rw [heq]
  split_ifs
  · have hsigns : ('-' :: c :: cs).all (fun c => isLeafChar c || c == '-') = true := by
      refine List.all_eq_true.mpr fun d hd => ?_
      rcases List.mem_cons.mp hd with rfl | hd
      · decide
      · simp [List.all_eq_true.mp hleaf d hd]
    refine plain_of_signs R hsigns ?_
    have hne : c ≠ '-' := isDigit_ne hc (by decide)
    rw [List.singleton_append, commentFree, commentFree_of_leafChars hleaf, Bool.and_true,
      Bool.not_eq_true']
    simp [startsComment, hne]
  · exact plain_leafChars R hleaf

/-- The characters of a parameterized name. -/
theorem parameterizedName_facts {value : String} (h : isParameterizedFunctionName value = true) :
    (∃ c cs, value.toList = c :: cs ∧ (c = '_' ∨ c.isAlphanum = true)) ∧
      value.toList.all isLeafChar = true := by
  simp only [isParameterizedFunctionName] at h
  have happ := value.toList.takeWhile_append_dropWhile (p := fun c => c != '(')
  split at h
  · cases h
  rename_i open_ inner hdrop
  have hopen : open_ = '(' := by
    have := List.head_dropWhile_not (l := value.toList) (fun c => c != '(') (by simp [hdrop])
    simpa [hdrop] using this
  simp only [Bool.and_eq_true, beq_iff_eq, List.all_eq_true, Bool.or_eq_true, Bool.not_eq_true',
    List.isEmpty_eq_false_iff] at h
  obtain ⟨⟨⟨hlast, hne⟩, hname⟩, hinner⟩ := h
  obtain ⟨c, cs, hc⟩ := List.exists_cons_of_ne_nil hne
  rw [hc] at hname happ
  refine ⟨⟨c, _, happ.symm, hname c (by simp)⟩,
    List.all_eq_true.mpr fun d hd => ?_⟩
  rw [← happ, hdrop, List.mem_append] at hd
  rcases hd with hd | hd
  · rcases hname d hd with rfl | hd
    · decide
    · simp [isLeafChar, hd]
  rcases List.mem_cons.mp hd with rfl | hd
  · exact hopen ▸ (by decide)
  -- The last of the characters is the closing parenthesis.
  obtain ⟨init, rfl⟩ : ∃ init, inner = init ++ [')'] := List.getLast?_eq_some_iff.mp hlast
  rw [List.dropLast_concat] at hinner
  rcases List.mem_append.mp hd with hd | hd
  · rcases hinner d hd with (hd | rfl) | rfl
    · simp [isLeafChar, Char.isAlphanum, hd]
    · decide
    · decide
  · rw [List.mem_singleton.mp hd]
    decide

/-- A word starts with no operator. -/
theorem starts_alphanum {c : Char} (h : c = '_' ∨ c.isAlphanum = true) :
    b.rules.isOperator c = false := by
  by_contra hop
  have hmem := b.rules.mem_operatorChars c (by simpa using hop)
  rcases h with rfl | hc
  · exact absurd hmem (by decide)
  · exact not_mem_operatorChars_of_isAlphanum hc hmem

/-- A parameterized name after its namespace, if any. -/
theorem reads_parameterizedName {namespace_ : Option String} {value : String} {ps : Pieces}
    (hvalue : isParameterizedFunctionName value = true)
    (h : renderNamespace b namespace_ = .ok ps) :
    Reads b.rules Safe ((namespace_.all (closesAtEnd b '"') &&
      (namespace_.isNone || !value.toList.head?.any Char.isDigit)) = true) (ps ++ [value]) ∧
      Starts b.rules (ps ++ [value]) := by
  obtain ⟨⟨c, cs, hcons, hc⟩, hleaf⟩ := parameterizedName_facts hvalue
  have hreads := (plain_leafChars b.rules hleaf).reads
  cases namespace_ with
  | none =>
    cases h
    exact ⟨hreads.congr (by simp), c, cs, by simp [hcons], starts_alphanum hc⟩
  -- Behind the namespace comes a dot, which a digit would turn into a number.
  | some ns =>
    obtain ⟨text, htext, h⟩ := bind_eq_ok.mp h
    cases h
    obtain ⟨hns, hstart⟩ := reads_identifier htext
    refine ⟨?_, hstart.starts.append _⟩
    cases hdigit : c.isDigit with
    | true =>
      have hdot := Reads.dot_digit hdigit (show chars [value] = c :: cs by simp [hcons]) hreads
      exact (hns.append hdot fun rest _ => ends_dot _).congr (by simp [hcons, hdigit])
    | false =>
      refine (reads_dotted hns hreads fun rest d hd => ?_).congr (by simp [hcons, hdigit])
      simp only [chars_cons, chars_nil, hcons, List.append_nil, List.cons_append, List.head?_cons,
        Option.mem_def, Option.some.injEq] at hd
      exact hd ▸ hdigit

/-- A function is read when its name is one token. -/
theorem reads_functionRef {function : FunctionRef} {ps : Pieces}
    (h : renderFunctionRef b function = .ok ps) :
    Reads b.rules Safe (functionNameLexes b function = true) ps ∧ Starts b.rules ps := by
  unfold renderFunctionRef at h
  unfold functionNameLexes
  split_ifs at h ⊢ with hparam
  · obtain ⟨name, hname, h⟩ := bind_eq_ok.mp h
    obtain ⟨namespace_, hnamespace, h⟩ := bind_eq_ok.mp h
    rw [pure_eq_ok] at h hname
    subst h hname
    exact reads_parameterizedName hparam hnamespace
  · obtain ⟨name, hname, h⟩ := bind_eq_ok.mp h
    obtain ⟨namespace_, hnamespace, h⟩ := bind_eq_ok.mp h
    rw [pure_eq_ok] at h
    subst h
    obtain ⟨hreads, hstart⟩ := reads_identifier hname
    obtain ⟨hreads', hstart'⟩ := reads_namespace hnamespace hreads hstart
    exact ⟨(hreads'.mono fun _ hrest => hrest.endsName).congr (by simp), hstart'.starts⟩

/-- A column is read when its segments close. -/
theorem reads_column {column : BoundColumnRef} {r : SqlRenderer} {ps : Pieces}
    (h : renderColumn r column = .ok ps) :
    Reads r.backend.rules Safe (column.relation.all (segmentsClose r.backend) = true ∧
      closesAtEnd r.backend '"' column.name = true) ps ∧ StartsName ps := by
  unfold renderColumn at h
  split at h
  · rename_i relation hrelation
    obtain ⟨qualifier, hqualifier, h⟩ := bind_eq_ok.mp h
    obtain ⟨name, hname, h⟩ := bind_eq_ok.mp h
    rw [pure_eq_ok] at h
    subst h
    obtain ⟨hreads, hstart⟩ := reads_qualifiedName hqualifier
    obtain ⟨hreads', hstart'⟩ := reads_identifier hname
    refine ⟨((reads_dotted hreads hreads' hstart'.stops_digit).mono
      fun _ hrest => hrest.endsName).congr (by simp [hrelation]), hstart.append _⟩
  · rename_i hrelation
    obtain ⟨name, hname, h⟩ := bind_eq_ok.mp h
    rw [pure_eq_ok] at h
    subst h
    obtain ⟨hreads, hstart⟩ := reads_identifier hname
    exact ⟨(hreads.mono fun _ hrest => hrest.endsName).congr (by simp [hrelation]), hstart⟩

/-! ## Types, parameters and literals -/

/-- Without quotes nothing is doubled. -/
theorem doubleQuotes_of_not_mem {q : Char} : ∀ {cs : List Char}, q ∉ cs → doubleQuotes q cs = cs
  | [], _ => rfl
  | c :: cs, h => by
    simp only [List.mem_cons, not_or] at h
    rw [doubleQuotes_cons_of_ne (Ne.symm h.1), doubleQuotes_of_not_mem h.2]

/-- A string without quotes and backslashes before a closed text that a boundary starts. -/
theorem plain_string {R : LexRules} {cs ds : List Char} (hq : '\'' ∉ cs) (hb : '\\' ∉ cs)
    (hds : Plain R ds) (hsafe : Safe ds) : Plain R ('\'' :: (cs ++ '\'' :: ds)) := by
  have hquote : isQuote R '\'' = true := by simp [isQuote]
  have hscan : scanQuoted R.escapes '\'' (cs ++ '\'' :: ds) = some (cs ++ ['\''], ds) := by
    have hbs : '\\' ∉ cs ++ '\'' :: ds := by
      simp only [List.mem_append, List.mem_cons, not_or]
      exact ⟨hb, by decide, hds.2⟩
    have hplain := scanQuoted_doubleQuotes_plain (hsafe.stops_quote hquote) cs
    rw [doubleQuotes_of_not_mem hq] at hplain
    rw [scanQuoted_plain_of_not_mem _ hbs, hplain]
  refine ⟨?_, ?_⟩
  · rw [closed_cons, if_neg (by decide), startsComment_cons (by decide) (by decide), hscan]
    simp [lexToken, hquote, hscan, hds.1]
  · simp only [List.mem_cons, List.mem_append, not_or]
    exact ⟨by decide, hb, by decide, hds.2⟩

/-- A timezone has no quotes and no backslashes. -/
theorem timezone_facts {cs : List Char} (h : cs.all isTimezoneChar = true) :
    '\'' ∉ cs ∧ '\\' ∉ cs :=
  ⟨fun hmem => absurd (List.all_eq_true.mp h _ hmem) (by decide),
    fun hmem => absurd (List.all_eq_true.mp h _ hmem) (by decide)⟩

/-- Nothing is plain. -/
theorem plain_nil (R : LexRules) : Plain R [] := ⟨rfl, List.not_mem_nil⟩

/-- A name with two numbers in parentheses. -/
theorem plain_decimal (R : LexRules) {name : List Char} (h : Plain R name) (precision : Nat)
    (scale : Int) :
    Plain R (name ++ '(' :: ((toString precision).toList ++ ',' :: ([] ++ ' ' ::
      ((toString scale).toList ++ ')' :: [])))) :=
  h.append (by decide) <| (plain_toString R precision).append (by decide) <|
    (plain_nil R).append (by decide) <| (plain_int R scale).append (by decide) (plain_nil R)

/-- The names of types without parameters. -/
def simpleTypeNames : List String :=
  ["Bool", "Int32", "Int64", "Float64", "String", "UUID", "JSON", "Date",
    "DateTime64(6)", "BOOLEAN",
   "INTEGER", "BIGINT", "DOUBLE PRECISION", "TEXT", "JSONB", "DATE", "TIMESTAMPTZ", "TIMESTAMP",
   "Decimal", "NUMERIC", "Array", "DateTime64", "6"]

/-- The name of a simple type is plain. -/
theorem plain_simpleTypeName (text : String) (h : text ∈ simpleTypeNames) :
    Plain b.rules text.toList := by
  have hall : simpleTypeNames.all (fun text => closed b.rules text.toList &&
      !text.toList.contains '\\') = true := by
    cases b <;> decide +kernel
  have := List.all_eq_true.mp hall text h
  simpa [Plain] using this

/-- The spelling of a type is closed. -/
theorem plain_typeName {b : SqlBackend} : ∀ {type : DataType} {text : String},
    backendTypeName b type = .ok text → Plain b.rules text.toList
  | .boolean, _, h | .int32, _, h | .int64, _, h | .float64, _, h | .utf8, _, h | .uuid, _, h
  | .json, _, h | .date, _, h | .timestamp none, _, h => by
    cases b <;> cases h <;> exact plain_simpleTypeName _ (by decide)
  -- The precision and the scale are digits, with a sign at most.
  | .decimal precision scale, _, h => by
    cases b <;> cases h
    · have := plain_decimal _ (plain_simpleTypeName (b := .clickHouse) "Decimal" (by decide))
        precision.toNat scale.toInt
      simpa using this
    · have := plain_decimal _ (plain_simpleTypeName (b := .postgres) "NUMERIC" (by decide))
        precision.toNat scale.toInt
      simpa using this
  -- Only ClickHouse writes the timezone, and it checks its characters first.
  | .timestamp (some timezone), _, h => by
    cases b with
    | postgres =>
      cases h
      exact plain_simpleTypeName _ (by decide)
    | clickHouse =>
      unfold backendTypeName at h
      split_ifs at h with htz
      cases h
      simp only [Bool.or_eq_true, not_or, Bool.not_eq_true', Bool.not_eq_false] at htz
      obtain ⟨hq, hb⟩ := timezone_facts htz.2
      have hname := plain_simpleTypeName (b := .clickHouse) "DateTime64" (by decide)
      have hsix := plain_simpleTypeName (b := .clickHouse) "6" (by decide)
      have hstring := plain_string hq hb ((plain_nil _).append (c := ')') (by decide)
        (plain_nil SqlBackend.clickHouse.rules)) (Safe.cons (by decide) _)
      have := hname.append (c := '(') (by decide) (hsix.append (c := ',') (by decide)
        ((plain_nil _).append (c := ' ') (by decide) hstring))
      simpa using this
  -- The element type is read first, then the brackets around it.
  | .list inner, _, h => by
    cases b with
    | clickHouse =>
      obtain ⟨text, htext, h⟩ := bind_eq_ok.mp h
      cases h
      have ih := plain_typeName htext
      have hname := plain_simpleTypeName (b := .clickHouse) "Array" (by decide)
      have := hname.append (c := '(') (by decide) (ih.append (c := ')') (by decide) (plain_nil _))
      simpa using this
    | postgres =>
      obtain ⟨text, htext, h⟩ := bind_eq_ok.mp h
      cases h
      have ih := plain_typeName htext
      have :=
        ih.append (c := '[') (by decide) ((plain_nil _).append (c := ']') (by decide) (plain_nil _))
      simpa using this
  | .struct _, _, h | .unknown, _, h => by cases b <;> cases h

/-- A parameter is read. -/
theorem reads_parameter {r : SqlRenderer} {reference : ParameterRef} {ps : Pieces}
    (h : r.renderParameter reference = .ok ps) :
    Reads r.backend.rules Safe True ps ∧ Starts r.backend.rules ps := by
  unfold SqlRenderer.renderParameter at h
  obtain ⟨schema, -, h⟩ := bind_eq_ok.mp h
  split at h
  · cases h
  rename_i position _
  cases hb : r.backend with
  -- A dollar sign and digits, one word.
  | postgres =>
    rw [hb] at h
    cases h
    obtain ⟨c, cs, heq, hdigits⟩ := digits_toString position
    refine ⟨(plain_leafChars _ ?_).reads, '$', (toString position).toList, by simp, by decide⟩
    rw [String.toList_append, heq, List.all_append, leafChars_digits hdigits]
    rfl
  -- A braced name and type: every part of it is plain.
  | clickHouse =>
    rw [hb] at h
    obtain ⟨type, htype, h⟩ := bind_eq_ok.mp h
    cases h
    refine ⟨?_, '\x7b', 'p' :: ((toString position).toList ++ (':' :: (type.toList ++ ['\x7d']))),
      by simp, by decide⟩
    have hp : Plain SqlBackend.clickHouse.rules ('p' :: (toString position).toList) := by
      obtain ⟨c, cs, heq, hdigits⟩ := digits_toString position
      refine plain_leafChars _ ?_
      rw [heq, List.all_cons, leafChars_digits hdigits]
      rfl
    have htail := hp.append (c := ':') (by decide)
      ((plain_typeName htype).append (c := '\x7d') (by decide) (plain_nil _))
    have hplain := htail.punctuation_cons (c := '\x7b') (by decide) rfl
    have heq : ("\x7bp" ++ toString position ++ ":" ++ type ++ "\x7d").toList =
        '\x7b' :: ('p' :: (toString position).toList ++ ':' :: (type.toList ++ ['\x7d'])) := by simp
    exact Plain.reads (heq ▸ hplain)

/-- The literals whose text is read as written: a string closes where it was written. -/
def literalLexes (b : SqlBackend) : LiteralValue → Bool
  | .utf8 text => closesAtEnd b '\'' text
  | _ => true

/-- The literals that are written with a minus. -/
def isNegative : LiteralValue → Bool
  | .int64 value => value.toInt < 0
  | _ => false

/-- A literal is read as written exactly when it closes where it was written. -/
theorem reads_literal {value : LiteralValue}
    (hraw : ∀ text, value = .float64 text → isNumeral text) :
    Reads b.rules Safe (literalLexes b value = true) [renderLiteral value] := by
  have hplain (h : Plain b.rules (renderLiteral value).toList) (hv : literalLexes b value = true) :
      Reads b.rules Safe (literalLexes b value = true) [renderLiteral value] :=
    h.reads.congr (by simp [hv])
  cases value with
  | null => exact hplain (plain_leafChars _ (by decide)) rfl
  | boolean value =>
    refine hplain (plain_leafChars _ ?_) rfl
    cases value <;> decide
  | int64 value => exact hplain (plain_int b.rules value.toInt) rfl
  | float64 text =>
    have htext := hraw text rfl
    simp only [isNumeral, Bool.and_eq_true] at htext
    exact hplain (plain_of_signs _ htext.1.2 htext.2) rfl
  | utf8 text =>
    exact ((reads_quoted b.isQuote_rules.2 text).congr closesAtEnd_iff.symm).mono
      fun rest hrest => hrest.stops_quote b.isQuote_rules.2

/-- A text starts with no operator when its first character is none. -/
theorem starts_of_not_mem (c : Char) (cs : List Char) {text : String} (heq : text.toList = c :: cs)
    (hc : c ∉ operatorChars) : Starts b.rules [text] := by
  refine ⟨c, cs, by simp [heq], ?_⟩
  by_contra hop
  exact hc (b.rules.mem_operatorChars c (by simpa using hop))

/-- A literal starts with a minus when it is negative, and with no operator otherwise. -/
theorem leads_literal {value : LiteralValue}
    (hraw : ∀ text, value = .float64 text → isNumeral text) :
    Leads b.rules [renderLiteral value] ∧
      ((chars [renderLiteral value]).head? = some '-' ↔ isNegative value = true) := by
  -- All but a negative number start with a character that is no operator.
  have hstarts (h : Starts b.rules [renderLiteral value]) (hv : isNegative value = false) :
      Leads b.rules [renderLiteral value] ∧
        ((chars [renderLiteral value]).head? = some '-' ↔ isNegative value = true) :=
    ⟨h.leads, iff_of_false h.head?_ne (by simp [hv])⟩
  cases value with
  | null => exact hstarts (starts_of_not_mem 'N' ['U', 'L', 'L'] rfl (by decide)) rfl
  | boolean value =>
    cases value
    · exact hstarts (starts_of_not_mem 'F' ['A', 'L', 'S', 'E'] rfl (by decide)) rfl
    · exact hstarts (starts_of_not_mem 'T' ['R', 'U', 'E'] rfl (by decide)) rfl
  -- The sign is the only operator a number starts with.
  | int64 value =>
    obtain ⟨c, cs, hc, -, heq⟩ := toString_int value.toInt
    have hop : b.rules.isOperator c = false := by
      by_contra hop
      exact not_mem_operatorChars_of_isAlphanum (by simp [Char.isAlphanum, hc])
        (b.rules.mem_operatorChars c (by simpa using hop))
    have htext : chars [renderLiteral (.int64 value)] = (if value.toInt < 0 then ['-'] else []) ++
        c :: cs := by
      rw [← heq, chars_cons, chars_nil, List.append_nil]
      rfl
    refine ⟨⟨_, c, cs, htext, ?_, hop⟩, ?_⟩
    · split_ifs <;> rfl
    · rw [htext]
      have hne : c ≠ '-' := isDigit_ne hc (by decide)
      split_ifs with hneg <;> simp [isNegative, hneg, hne]
  | float64 text =>
    have htext := hraw text rfl
    simp only [isNumeral, Bool.and_eq_true] at htext
    cases hcons : text.toList with
    | nil => simp [hcons] at htext
    | cons c cs =>
      refine hstarts (starts_of_not_mem c cs hcons ?_) rfl
      have hc := htext.1.1
      simp only [hcons, List.head?_cons, Option.any_some, Bool.or_eq_true, beq_iff_eq] at hc
      rcases hc with hc | rfl
      · exact not_mem_operatorChars_of_isAlphanum (by simp [Char.isAlphanum, hc])
      · decide
  | utf8 text =>
    refine hstarts (starts_of_not_mem '\'' (doubleQuotes '\'' text.toList ++ ['\'']) ?_
      (by decide)) rfl
    simp [renderLiteral, quoted]

end QueryFabric.Render
