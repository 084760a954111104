import QueryFabric.Portability.Grammar

/-!
# What the parser accepts

A document is a list of records. `CsvDocument.WellFormed` is the grammar of the profile, and
`CsvDocument.Readable` that of the parser, which also reads an empty quoted field after the last
record. `parseCsv_eq_ok_iff` says that the parser accepts exactly the readable documents with the
header and the values of the schema, and `parseCsv_exact_iff` on which texts that is what the
profile says.
-/

namespace QueryFabric.Portability

/-- A document as it is written, and whether a pair of quotes follows its last record. -/
structure CsvDocument where
  records : List (List CsvField)
  trailing : Bool

namespace CsvDocument

/-- The characters of a document. -/
def text (doc : CsvDocument) : List Char :=
  doc.records.flatMap recordText ++ if doc.trailing then emptyQuotes else []

/-- The rows after the header. -/
def rows (doc : CsvDocument) : List (List String) := doc.records.tail.map recordValues

/-- The grammar of the profile. -/
def WellFormed (doc : CsvDocument) : Prop :=
  (∀ record ∈ doc.records, record ≠ [] ∧ ∀ field ∈ record, field.WellFormed) ∧ doc.trailing = false

/-- The grammar of the parser. -/
def Readable (doc : CsvDocument) : Prop :=
  ∀ record ∈ doc.records, record ≠ [] ∧ ∀ field ∈ record, field.Readable

/-- The first record is the header, and the others are rows of valid values, not too many. -/
structure Accepted (parsers : ValueParsers) (schema : TabularSchema) (limits : ImportLimits)
    (doc : CsvDocument) : Prop where
  header : ∃ header, doc.records.head? = some header ∧
    recordValues header = schema.columns.map TabularColumn.name
  length : ∀ row ∈ doc.rows, row.length = schema.columns.length
  values : ∀ row ∈ doc.rows, validateValues parsers row schema = .ok ()
  maxRows : doc.rows.length ≤ limits.maxRows

/-- A well-formed document is readable. -/
theorem WellFormed.readable {doc : CsvDocument} (h : doc.WellFormed) : doc.Readable :=
  fun record hrecord => ⟨(h.1 record hrecord).1, fun field hfield =>
    ((h.1 record hrecord).2 field hfield).readable⟩

end CsvDocument

section Parse

variable {parsers : ValueParsers} {schema : TabularSchema} {limits : ImportLimits}

/-- Rows are accepted one after the other. -/
inductive AcceptsRows (parsers : ValueParsers) (schema : TabularSchema) (limits : ImportLimits) :
    CsvState → List (List String) → CsvState → Prop
  | nil (s : CsvState) : AcceptsRows parsers schema limits s [] s
  | cons {s t next : CsvState} {row : List String} {rows : List (List String)}
      (hrow : AcceptsRow parsers schema limits s row t)
      (hrows : AcceptsRows parsers schema limits t rows next) :
      AcceptsRows parsers schema limits s (row :: rows) next

/-- The state between records. -/
def afterRecords (rows : List (List String)) : CsvState :=
  { rows, endedRecord := true, headerSeen := true }

/-- A row that is accepted leaves the state after its records. -/
theorem AcceptsRow.eq_afterRecords {s next : CsvState} {row : List String}
    (h : AcceptsRow parsers schema limits s row next) : next = afterRecords next.rows := by
  cases h <;> rfl

/-- After records a field may start. -/
theorem afterRecords_atField (rows : List (List String)) : (afterRecords rows).AtField :=
  ⟨rfl, rfl, rfl⟩

/-- The rows that are accepted after the header. -/
theorem acceptsRows_afterRecords_iff {next : CsvState} : ∀ {rows before : List (List String)},
    before.length ≤ limits.maxRows →
      (AcceptsRows parsers schema limits (afterRecords before) rows next ↔
        (∀ row ∈ rows, row.length = schema.columns.length) ∧
        (∀ row ∈ rows, validateValues parsers row schema = .ok ()) ∧
        before.length + rows.length ≤ limits.maxRows ∧ next = afterRecords (before ++ rows))
  -- Without a row the state stays at the end of the records before.
  | [], before, hbefore => by
    constructor
    · intro h
      cases h
      exact ⟨by simp, by simp, hbefore, by rw [List.append_nil]⟩
    · rintro ⟨-, -, -, rfl⟩
      rw [List.append_nil]
      exact .nil _
  -- The header is behind, so a row is data: it has the columns, valid values and a place within the
  -- limit.
  | row :: rows, before, hbefore => by
    constructor
    · intro h
      obtain _ | ⟨hrow, hrows⟩ := h
      cases hrow with
      | header hheader => cases hheader
      | data _ hheader hlength hvalues hmax =>
        have hle : (before ++ [row]).length ≤ limits.maxRows := by
          rw [List.length_append]
          exact hmax
        obtain ⟨hlengths, hvalid, hcount, rfl⟩ := (acceptsRows_afterRecords_iff hle).mp hrows
        refine ⟨List.forall_mem_cons.mpr ⟨hlength, hlengths⟩,
          List.forall_mem_cons.mpr ⟨hvalues, hvalid⟩, ?_, by simp⟩
        simp only [List.length_append, List.length_cons, List.length_nil] at hcount ⊢
        omega
    · rintro ⟨hlengths, hvalid, hcount, rfl⟩
      obtain ⟨hlength, hlengths⟩ := List.forall_mem_cons.mp hlengths
      obtain ⟨hvalues, hvalid⟩ := List.forall_mem_cons.mp hvalid
      rw [List.length_cons] at hcount
      have hmax : before.length < limits.maxRows := by omega
      have hle : (before ++ [row]).length ≤ limits.maxRows := by
        rw [List.length_append]
        exact hmax
      refine .cons (.data row rfl hlength hvalues hmax)
        ((acceptsRows_afterRecords_iff hle).mpr ⟨hlengths, hvalid, ?_, by simp⟩)
      simp only [List.length_append, List.length_cons, List.length_nil]
      omega

/-- The rows that are accepted from the start. -/
theorem acceptsRows_start_iff {next : CsvState} {header : List String} {rows : List (List String)} :
    AcceptsRows parsers schema limits {} (header :: rows) next ↔
      header = schema.columns.map TabularColumn.name ∧
      (∀ row ∈ rows, row.length = schema.columns.length) ∧
      (∀ row ∈ rows, validateValues parsers row schema = .ok ()) ∧
      rows.length ≤ limits.maxRows ∧ next = afterRecords rows := by
  have hiff := @acceptsRows_afterRecords_iff parsers schema limits next rows [] (Nat.zero_le _)
  simp only [List.length_nil, Nat.zero_add, List.nil_append] at hiff
  constructor
  · intro h
    obtain _ | ⟨hrow, hrows⟩ := h
    cases hrow with
    | header hheader => exact ⟨rfl, hiff.mp hrows⟩
    | data _ hheader hlength hvalues hmax => cases hheader
  · rintro ⟨rfl, hrest⟩
    exact .cons (.header rfl) (hiff.mpr hrest)

/-- Records are read as the rows of their fields. -/
theorem parseChars_records {final : CsvState} (rest : List Char) :
    ∀ (records : List (List CsvField)) (s : CsvState), s.AtField → s.row = [] →
      (∀ record ∈ records, record ≠ [] ∧ ∀ field ∈ record, field.Readable) →
      (parseChars parsers schema limits s (records.flatMap recordText ++ rest) = .ok final ↔
        ∃ next, AcceptsRows parsers schema limits s (records.map recordValues) next ∧
          parseChars parsers schema limits next rest = .ok final)
  | [], s, _, _, _ => by
    constructor
    · intro h
      exact ⟨s, .nil s, h⟩
    · rintro ⟨next, hrows, h⟩
      cases hrows
      exact h
  -- The first record ends in a row that is accepted, and the rest starts from there.
  | record :: records, s, hs, hrow, hreadable => by
    obtain ⟨⟨hne, hfields⟩, hrest⟩ := List.forall_mem_cons.mp hreadable
    rw [List.flatMap_cons, List.append_assoc, parseChars_record _ record s hs hne hfields, hrow,
      List.nil_append]
    -- After an accepted row the state is again at the start of a field, with an empty row.
    have hsteps : ∀ t, AcceptsRow parsers schema limits s (recordValues record) t →
        (parseChars parsers schema limits t (records.flatMap recordText ++ rest) = .ok final ↔
          ∃ next, AcceptsRows parsers schema limits t (records.map recordValues) next ∧
            parseChars parsers schema limits next rest = .ok final) := by
      intro t ht
      rw [ht.eq_afterRecords]
      exact parseChars_records rest records _ (afterRecords_atField _) rfl hrest
    constructor
    · rintro ⟨t, ht, hparse⟩
      obtain ⟨next, hnext, hfinal⟩ := (hsteps t ht).mp hparse
      exact ⟨next, .cons ht hnext, hfinal⟩
    · rintro ⟨next, hnext, hfinal⟩
      obtain _ | ⟨ht, hnext⟩ := hnext
      exact ⟨_, ht, (hsteps _ ht).mpr ⟨next, hnext, hfinal⟩⟩

/-- A text that the parser reads to the end is that of a readable document. -/
theorem exists_document {final : CsvState} (hfinal : final.Finished) : ∀ (n : Nat) (cs : List Char),
    cs.length ≤ n → ∀ s : CsvState, s.AtField → s.row = [] →
      parseChars parsers schema limits s cs = .ok final →
        ∃ doc : CsvDocument, doc.Readable ∧ doc.text = cs := by
  intro n
  induction n with
  -- The induction is on a bound of the length, as a record takes several characters.
  | zero =>
    intro cs hn s hs hrow hparse
    have hnil : cs = [] := List.length_eq_zero_iff.mp (Nat.le_zero.mp hn)
    exact ⟨⟨[], false⟩, by simp [CsvDocument.Readable], by simp [CsvDocument.text, hnil]⟩
  | succ n ih =>
    intro cs hn s hs hrow hparse
    obtain ⟨-, rfl | rfl⟩ | ⟨record, rest, hne, hfields, rfl⟩ :=
      exists_record hfinal cs.length cs (Nat.le_refl _) s hs hparse
    · exact ⟨⟨[], false⟩, by simp [CsvDocument.Readable], rfl⟩
    · exact ⟨⟨[], true⟩, by simp [CsvDocument.Readable], rfl⟩
    · obtain ⟨next, hnext, hrest⟩ := (parseChars_record rest record s hs hne hfields).mp hparse
      -- A record is at least as long as its line end.
      have hlen : rest.length ≤ n := by
        have htwo : 2 ≤ (recordText record).length := by simp [recordText, encodeRecord]
        rw [List.length_append] at hn
        omega
      rw [hnext.eq_afterRecords] at hrest
      obtain ⟨⟨records, trailing⟩, hreadable, htext⟩ :=
        ih rest hlen _ (afterRecords_atField _) rfl hrest
      refine ⟨⟨record :: records, trailing⟩, ?_, ?_⟩
      · exact List.forall_mem_cons.mpr ⟨⟨hne, hfields⟩, hreadable⟩
      · rw [← htext]
        simp [CsvDocument.text]

/-- A readable document, from the start: the parser reads it to the end when its rows are
accepted. -/
theorem parseChars_document_iff {doc : CsvDocument} (hreadable : doc.Readable)
    {rows : List (List String)} :
    (∃ final, parseChars parsers schema limits {} doc.text = .ok final ∧ final.Finished ∧
      final.rows = rows) ↔ doc.Accepted parsers schema limits ∧ doc.rows = rows := by
  obtain ⟨records, trailing⟩ := doc
  -- What is left after the records changes no row.
  have htail : ∀ s : CsvState, s.AtField → ∃ final, parseChars parsers schema limits s
      (if trailing then emptyQuotes else []) = .ok final ∧ final.rows = s.rows ∧ final.row = s.row ∧
        final.field = [] ∧ final.quoted = false ∧ final.endedRecord = s.endedRecord := by
    intro s hs
    cases trailing with
    | false => exact ⟨s, rfl, rfl, rfl, hs.field, hs.quoted, rfl⟩
    | true =>
      have hfield := @parseChars_field parsers schema limits s hs (.quoted [] [])
        ⟨by simp, by simp⟩ [] .nil
      exact ⟨_, hfield, rfl, rfl, rfl, hs.quoted, rfl⟩
  have hstart : ({} : CsvState).AtField := ⟨rfl, rfl, rfl⟩
  have hrecords : ∀ final, parseChars parsers schema limits {}
    (CsvDocument.text ⟨records, trailing⟩) =
      .ok final ↔ _ := fun final => parseChars_records _ records {} hstart rfl hreadable
  cases records with
  | nil =>
    constructor
    · rintro ⟨final, hparse, hfinal, -⟩
      obtain ⟨final', hparse', -, -, -, -, hended⟩ := htail {} hstart
      obtain ⟨next, hnext, hrest⟩ := (hrecords final).mp hparse
      cases hnext
      cases hrest.symm.trans hparse'
      cases hfinal.endedRecord.symm.trans hended
    · rintro ⟨haccepted, -⟩
      obtain ⟨header, hhead, -⟩ := haccepted.header
      cases hhead
  | cons header data =>
    constructor
    · rintro ⟨final, hparse, hfinal, hrows⟩
      obtain ⟨next, hnext, hrest⟩ := (hrecords final).mp hparse
      obtain ⟨hheader, hlength, hvalues, hmax, rfl⟩ := acceptsRows_start_iff.mp hnext
      obtain ⟨final', hparse', hrows', -⟩ := htail _ (afterRecords_atField _)
      cases hrest.symm.trans hparse'
      refine ⟨⟨⟨header, rfl, hheader⟩, hlength, hvalues, hmax⟩, ?_⟩
      exact hrows'.symm.trans hrows
    · rintro ⟨⟨⟨_, hhead, hheader⟩, hlength, hvalues, hmax⟩, hrows⟩
      cases hhead
      have hnext := acceptsRows_start_iff.mpr ⟨hheader, hlength, hvalues, hmax, rfl⟩
      obtain ⟨final, hparse, hrows', hrow, hfield, hquoted, hended⟩ :=
        htail _ (afterRecords_atField (data.map recordValues))
      exact ⟨final, (hrecords final).mpr ⟨_, hnext, hparse⟩, ⟨hquoted, hended, hrow, hfield⟩,
        hrows'.trans hrows⟩

end Parse

/-! ## Bytes -/

/-- The bytes do not start with the byte order mark. -/
def NoBom (bytes : ByteArray) : Prop := bytes.data.toList.take 3 ≠ [0xef, 0xbb, 0xbf]

/-- A text is decoded of its own bytes. -/
theorem fromUTF8?_eq_some_iff {bytes : ByteArray} {text : String} :
    String.fromUTF8? bytes = some text ↔ text.toUTF8 = bytes := by
  unfold String.fromUTF8?
  constructor
  · intro h
    split at h
    · cases h
      rfl
    · cases h
  · rintro rfl
    exact dif_pos text.isValidUTF8

section Bytes

variable (parsers : ValueParsers) (schema : TabularSchema) (limits : ImportLimits)

/-- The check of the loop's variables after the loop. -/
theorem finished_iff (s : CsvState) :
    (s.quoted || !s.endedRecord || !s.row.isEmpty || !s.field.isEmpty) = false ↔ s.Finished := by
  simp only [Bool.or_eq_false_iff, Bool.not_eq_false', List.isEmpty_iff]
  exact ⟨fun ⟨⟨⟨h₁, h₂⟩, h₃⟩, h₄⟩ => ⟨h₁, h₂, h₃, h₄⟩,
    fun ⟨h₁, h₂, h₃, h₄⟩ => ⟨⟨⟨h₁, h₂⟩, h₃⟩, h₄⟩⟩

/-- The text of a file is parsed by the loop and the check after it. -/
theorem parseCsv_toUTF8_iff (text : String) (rows : List (List String)) :
    parseCsv parsers schema limits text.toUTF8 = .ok rows ↔ NoBom text.toUTF8 ∧
      ∃ final, parseChars parsers schema limits {} text.toList = .ok final ∧ final.Finished ∧
        final.rows = rows := by
  unfold parseCsv
  -- A byte order mark is refused before anything is read.
  by_cases hbom : text.toUTF8.data.toList.take 3 = [0xef, 0xbb, 0xbf]
  · rw [if_pos hbom]
    constructor
    · intro h
      cases h
    · intro h
      exact absurd hbom h.1
  rw [if_neg hbom, fromUTF8?_eq_some_iff.mpr rfl, and_iff_right (show NoBom text.toUTF8 from hbom)]
  dsimp only
  -- The text of a `String` is valid UTF-8, so what is left is the loop and its final state.
  cases hparse : parseChars parsers schema limits {} text.toList with
  | error e =>
    constructor
    · intro h
      cases h
    · rintro ⟨final, hfinal, -⟩
      cases hfinal
  | ok final =>
    simp only [bind, Except.bind]
    by_cases hfinished : final.Finished
    · rw [(finished_iff final).mpr hfinished]
      constructor
      · intro h
        cases h
        exact ⟨final, rfl, hfinished, rfl⟩
      · rintro ⟨_, hfinal, -, rfl⟩
        cases hfinal
        rfl
    · rw [if_pos ((Bool.not_eq_false _).mp (mt (finished_iff final).mp hfinished))]
      constructor
      · intro h
        cases h
      · rintro ⟨_, hfinal, hfinished', -⟩
        cases hfinal
        exact absurd hfinished' hfinished

/-- The parser accepts exactly the readable documents with the header and the values of the
schema. -/
theorem parseCsv_eq_ok_iff (bytes : ByteArray) (rows : List (List String)) :
    parseCsv parsers schema limits bytes = .ok rows ↔
      NoBom bytes ∧ ∃ doc : CsvDocument, (String.ofList doc.text).toUTF8 = bytes ∧ doc.Readable ∧
        doc.Accepted parsers schema limits ∧ doc.rows = rows := by
  constructor
  · intro h
    -- What is accepted is UTF-8.
    cases hutf8 : String.fromUTF8? bytes with
    | none =>
      unfold parseCsv at h
      split at h
      · cases h
      · simp [hutf8] at h
    | some text =>
      obtain rfl := fromUTF8?_eq_some_iff.mp hutf8
      obtain ⟨hbom, final, hparse, hfinal, hrows⟩ := (parseCsv_toUTF8_iff _ _ _ text rows).mp h
      -- A text that is parsed to its end is that of a document.
      obtain ⟨doc, hreadable, htext⟩ := exists_document hfinal _ text.toList (Nat.le_refl _) {}
        ⟨rfl, rfl, rfl⟩ rfl hparse
      refine ⟨hbom, doc, by rw [htext, String.ofList_toList], hreadable, ?_⟩
      exact (parseChars_document_iff hreadable).mp ⟨final, htext ▸ hparse, hfinal, hrows⟩
  · rintro ⟨hbom, doc, rfl, hreadable, haccepted, hrows⟩
    refine (parseCsv_toUTF8_iff _ _ _ _ rows).mpr ⟨hbom, ?_⟩
    rw [String.toList_ofList]
    exact (parseChars_document_iff hreadable).mpr ⟨haccepted, hrows⟩

end Bytes

/-! ## Documents are written in one way -/

/-- A run of plain characters is determined by the text that it starts. -/
theorem plain_unique {rest rest' : List Char} (hrest : Stops rest) (hrest' : Stops rest') :
    ∀ {text text' : List Char}, (∀ c ∈ text, isPlainChar c) → (∀ c ∈ text', isPlainChar c) →
      text ++ rest = text' ++ rest' → text = text' ∧ rest = rest'
  | [], [], _, _, h => ⟨rfl, h⟩
  | [], c :: text', _, htext', h => (not_stops_plain hrest' htext' (h ▸ hrest)).elim
  | c :: text, [], htext, _, h => (not_stops_plain hrest htext (h ▸ hrest')).elim
  | c :: text, c' :: text', htext, htext', h => by
    obtain ⟨rfl, htail⟩ := List.cons.inj h
    obtain ⟨rfl, hrest⟩ := plain_unique hrest hrest'
      (fun d hd => htext d (List.mem_cons_of_mem _ hd))
      (fun d hd => htext' d (List.mem_cons_of_mem _ hd)) htail
    exact ⟨rfl, hrest⟩
where
  /-- A plain character does not stop a field. -/
  not_stops_plain {c : Char} {text rest : List Char} (hrest : Stops rest)
      (htext : ∀ d ∈ c :: text, isPlainChar d) (h : Stops (c :: text ++ rest)) : False := by
    have hc := htext c List.mem_cons_self
    generalize hcs : c :: text ++ rest = cs at h
    cases h with
    | nil => cases hcs
    | comma tail =>
      cases (List.cons.inj hcs).1
      simp [isPlainChar] at hc
    | crlf tail =>
      -- The line feed would be the next plain character, or the start of what follows.
      have htail := (List.cons.inj hcs).2
      cases text with
      | nil => exact hrest.head_ne.1 (congrArg List.head? htail)
      | cons d text =>
        have hd := htext d (by simp)
        cases (List.cons.inj htail).1
        simp [isPlainChar] at hd

/-- The content of quotes is determined by the text that it starts. -/
theorem content_unique {rest rest' : List Char} (hrest : rest.head? ≠ some '"')
    (hrest' : rest'.head? ≠ some '"') : ∀ {content content' : List Char},
      doubleQuotes '"' content ++ '"' :: rest = doubleQuotes '"' content' ++ '"' :: rest' →
        content = content' ∧ rest = rest'
  | [], [], h => ⟨rfl, (List.cons.inj h).2⟩
  -- One content ends at its quote, where the other has a doubled one or another character.
  | [], c :: content', h => by
    rw [doubleQuotes, doubleQuotes] at h
    split at h
    · obtain ⟨-, h⟩ := List.cons.inj h
      exact absurd (by rw [h]; rfl) hrest
    · rename_i hc
      exact absurd (List.cons.inj h).1.symm hc
  | c :: content, [], h => by
    rw [doubleQuotes, doubleQuotes] at h
    split at h
    · obtain ⟨-, h⟩ := List.cons.inj h
      exact absurd (by rw [← h]; rfl) hrest'
    · rename_i hc
      exact absurd (List.cons.inj h).1 hc
  -- Both go on, with the same character.
  | c :: content, c' :: content', h => by
    have hboth : c = c' ∧ doubleQuotes '"' content ++ '"' :: rest =
        doubleQuotes '"' content' ++ '"' :: rest' := by
      rw [doubleQuotes, doubleQuotes] at h
      split at h
      · rename_i hc
        subst hc
        split at h
        · rename_i hc'
          exact ⟨hc'.symm, by simpa using h⟩
        · rename_i hc'
          exact absurd (List.cons.inj h).1.symm hc'
      · rename_i hc
        split at h
        · rename_i hc'
          exact absurd (List.cons.inj h).1 hc
        · exact ⟨(List.cons.inj h).1, (List.cons.inj h).2⟩
    obtain ⟨rfl, htail⟩ := hboth
    obtain ⟨rfl, hrest⟩ := content_unique hrest hrest' htail
    exact ⟨rfl, hrest⟩

/-- A plain field does not start with a quote. -/
theorem plain_ne_quote {text rest tail : List Char} (htext : ∀ c ∈ text, isPlainChar c)
    (hrest : Stops rest) : text ++ rest ≠ '"' :: tail := by
  intro h
  cases text with
  | nil => exact hrest.head_ne.2 (congrArg List.head? h)
  | cons c text =>
    have hc := htext c List.mem_cons_self
    cases (List.cons.inj h).1
    simp [isPlainChar] at hc

/-- What follows a closing quote is not a quote. -/
theorem head_plain_ne_quote {text rest : List Char} (htext : ∀ c ∈ text, isPlainChar c)
    (hrest : Stops rest) : (text ++ rest).head? ≠ some '"' := by
  intro h
  obtain ⟨tail, htail⟩ := List.head?_eq_some_iff.mp h
  exact plain_ne_quote htext hrest htail

/-- A readable field is determined by the text that it starts. -/
theorem field_unique {field field' : CsvField} (hfield : field.Readable) (hfield' : field'.Readable)
    {rest rest' : List Char} (hrest : Stops rest) (hrest' : Stops rest')
    (h : field.text ++ rest = field'.text ++ rest') : field = field' ∧ rest = rest' := by
  cases field with
  | plain text =>
    cases field' with
    | plain text' =>
      obtain ⟨rfl, hrest⟩ := plain_unique hrest hrest' hfield hfield' h
      exact ⟨rfl, hrest⟩
    | quoted content' tail' => exact absurd h (plain_ne_quote hfield hrest)
  | quoted content tail =>
    cases field' with
    | plain text' => exact absurd h.symm (plain_ne_quote hfield' hrest')
    | quoted content' tail' =>
      simp only [CsvField.text, List.cons_append, List.append_assoc, List.cons.injEq, true_and] at h
      obtain ⟨rfl, htail⟩ := content_unique (head_plain_ne_quote hfield.2 hrest)
        (head_plain_ne_quote hfield'.2 hrest') h
      obtain ⟨rfl, hrest⟩ := plain_unique hrest hrest' hfield.2 hfield'.2 htail
      exact ⟨rfl, hrest⟩

/-- A readable record is determined by the text that it starts. -/
theorem record_unique {rest rest' : List Char} : ∀ {record record' : List CsvField},
    record ≠ [] → record' ≠ [] → (∀ field ∈ record, field.Readable) →
      (∀ field ∈ record', field.Readable) →
        recordText record ++ rest = recordText record' ++ rest' → record = record' ∧ rest = rest'
  | [], _, hne, _, _, _, _ => absurd rfl hne
  | _, [], _, hne, _, _, _ => absurd rfl hne
  -- Both records end here.
  | [field], [field'], _, _, hfields, hfields', h => by
    rw [recordText_singleton, recordText_singleton, List.append_assoc, List.append_assoc] at h
    obtain ⟨rfl, htail⟩ := field_unique (hfields field (by simp)) (hfields' field' (by simp))
      (.crlf rest) (.crlf rest') h
    exact ⟨rfl, by simpa using htail⟩
  -- One ends where the other goes on: a line end is no comma.
  | [field], field' :: other' :: record', _, _, hfields, hfields', h => by
    rw [recordText_singleton, recordText_cons_cons, List.append_assoc, List.append_assoc] at h
    obtain ⟨-, htail⟩ := field_unique (hfields field (by simp)) (hfields' field' (by simp))
      (.crlf rest) (.comma _) h
    simp at htail
  | field :: other :: record, [field'], _, _, hfields, hfields', h => by
    rw [recordText_singleton, recordText_cons_cons, List.append_assoc, List.append_assoc] at h
    obtain ⟨-, htail⟩ := field_unique (hfields field (by simp)) (hfields' field' (by simp))
      (.comma _) (.crlf rest') h
    simp at htail
  -- Both go on with a comma.
  | field :: other :: record, field' :: other' :: record', _, _, hfields, hfields', h => by
    rw [recordText_cons_cons, recordText_cons_cons, List.append_assoc, List.append_assoc] at h
    obtain ⟨rfl, htail⟩ := field_unique (hfields field (by simp)) (hfields' field' (by simp))
      (.comma _) (.comma _) h
    obtain ⟨hrecord, hrest⟩ := record_unique (List.cons_ne_nil _ _) (List.cons_ne_nil _ _)
      (fun f hf => hfields f (List.mem_cons_of_mem _ hf))
      (fun f hf => hfields' f (List.mem_cons_of_mem _ hf)) (List.cons.inj htail).2
    exact ⟨by rw [hrecord], hrest⟩

/-- A record is not a pair of quotes, nor nothing. -/
theorem recordText_ne {record : List CsvField} (hne : record ≠ [])
    (hfields : ∀ field ∈ record, field.Readable) (rest : List Char) (trailing : Bool) :
    recordText record ++ rest ≠ if trailing then emptyQuotes else [] := by
  intro h
  -- The text after the first field is not empty, and the other one has none.
  obtain ⟨other, hother, htext⟩ : ∃ other : CsvField, other.Readable ∧
      other.text ++ [] = if trailing then emptyQuotes else [] := by
    cases trailing with
    | false => exact ⟨.plain [], by simp [CsvField.Readable], rfl⟩
    | true => exact ⟨.quoted [] [], by simp [CsvField.Readable], rfl⟩
  rw [← htext] at h
  match record, hne with
  | [field], _ =>
    rw [recordText_singleton, List.append_assoc] at h
    cases (field_unique (hfields field (by simp)) hother (.crlf rest) .nil h).2
  | field :: next :: record, _ =>
    rw [recordText_cons_cons, List.append_assoc] at h
    cases (field_unique (hfields field (by simp)) hother (.comma _) .nil h).2

/-- A readable document is determined by its text. -/
theorem CsvDocument.text_unique :
    ∀ {records records' : List (List CsvField)} {trailing trailing' : Bool},
    Readable ⟨records, trailing⟩ → Readable ⟨records', trailing'⟩ →
      text ⟨records, trailing⟩ = text ⟨records', trailing'⟩ →
        records = records' ∧ trailing = trailing'
  | [], [], trailing, trailing', _, _, h => by
    cases trailing <;> cases trailing' <;> simp [text, emptyQuotes] at h ⊢
  | [], record' :: records', trailing, _, _, h', h => by
    obtain ⟨hne, hfields⟩ := h' record' List.mem_cons_self
    simp only [text, List.flatMap_nil, List.nil_append, List.flatMap_cons, List.append_assoc] at h
    exact absurd h.symm (recordText_ne hne hfields _ trailing)
  | record :: records, [], _, trailing', hr, _, h => by
    obtain ⟨hne, hfields⟩ := hr record List.mem_cons_self
    simp only [text, List.flatMap_nil, List.nil_append, List.flatMap_cons, List.append_assoc] at h
    exact absurd h (recordText_ne hne hfields _ trailing')
  | record :: records, record' :: records', _, _, hr, h', h => by
    obtain ⟨⟨hne, hfields⟩, hrest⟩ := List.forall_mem_cons.mp hr
    obtain ⟨⟨hne', hfields'⟩, hrest'⟩ := List.forall_mem_cons.mp h'
    simp only [text, List.flatMap_cons, List.append_assoc] at h
    obtain ⟨rfl, htail⟩ := record_unique hne hne' hfields hfields' h
    obtain ⟨rfl, rfl⟩ := text_unique hrest hrest' htail
    exact ⟨rfl, rfl⟩

/-- The bytes are a file of the profile, with these rows: UTF-8 without a byte order mark, records
of plain or quoted fields that end with CRLF, the header of the schema first, and rows of valid
values after it. -/
def InProfile (parsers : ValueParsers) (schema : TabularSchema) (limits : ImportLimits)
    (bytes : ByteArray) (rows : List (List String)) : Prop :=
  NoBom bytes ∧ ∃ doc : CsvDocument, (String.ofList doc.text).toUTF8 = bytes ∧ doc.WellFormed ∧
    doc.Accepted parsers schema limits ∧ doc.rows = rows

/-- The bytes are not a file that the parser accepts although one of its fields has a lone carriage
return or a text after its closing quote, or a pair of quotes follows its last record. -/
def NotLenient (parsers : ValueParsers) (schema : TabularSchema) (limits : ImportLimits)
    (bytes : ByteArray) : Prop :=
  NoBom bytes → ∀ doc : CsvDocument, (String.ofList doc.text).toUTF8 = bytes → doc.Readable →
    doc.Accepted parsers schema limits → doc.WellFormed

/-- The parser accepts exactly the files of the profile, and returns exactly their rows, unless it
is given a file with one of the three things that it reads beyond the profile. -/
theorem parseCsv_exact_iff (parsers : ValueParsers) (schema : TabularSchema) (limits : ImportLimits)
    (bytes : ByteArray) :
    (∀ rows, parseCsv parsers schema limits bytes = .ok rows ↔
      InProfile parsers schema limits bytes rows) ↔ NotLenient parsers schema limits bytes := by
  constructor
  · intro h hbom doc htext hreadable haccepted
    have hparse := (parseCsv_eq_ok_iff parsers schema limits bytes doc.rows).mpr
      ⟨hbom, doc, htext, hreadable, haccepted, rfl⟩
    obtain ⟨-, doc', htext', hwellFormed, -⟩ := (h doc.rows).mp hparse
    -- The document of the profile has the same text, so it is the same one.
    have hsame : doc.text = doc'.text := by
      have hutf8 := htext.trans htext'.symm
      rw [String.toUTF8_eq_toByteArray, String.toUTF8_eq_toByteArray, String.toByteArray_inj]
        at hutf8
      simpa using congrArg String.toList hutf8
    obtain ⟨records, trailing⟩ := doc
    obtain ⟨records', trailing'⟩ := doc'
    obtain ⟨rfl, rfl⟩ := CsvDocument.text_unique hreadable hwellFormed.readable hsame
    exact hwellFormed
  · intro h rows
    rw [parseCsv_eq_ok_iff]
    constructor
    · rintro ⟨hbom, doc, htext, hreadable, haccepted, hrows⟩
      exact ⟨hbom, doc, htext, h hbom doc htext hreadable haccepted, haccepted, hrows⟩
    · rintro ⟨hbom, doc, htext, hwellFormed, haccepted, hrows⟩
      exact ⟨hbom, doc, htext, hwellFormed.readable, haccepted, hrows⟩

/-- Parsers that recognise no UUID and no timestamp. -/
def noParsers : ValueParsers := ⟨fun _ => false, fun _ => false⟩

/-- One column of texts. -/
def labelSchema : TabularSchema := ⟨tabularCsvProfile, [⟨"label", .string⟩]⟩

/-- The header, and a row with a text after its closing quote. -/
def textAfterQuote : CsvDocument := ⟨[[.plain "label".toList], [.quoted ['a'] ['b']]], false⟩

/-- The parser accepts the file `label`, `"a"b`, which is not of the profile. -/
theorem parseCsv_textAfterQuote : ¬ ∀ rows,
    parseCsv noParsers labelSchema {} (String.ofList textAfterQuote.text).toUTF8 = .ok rows ↔
      InProfile noParsers labelSchema {} (String.ofList textAfterQuote.text).toUTF8 rows := by
  intro h
  have hreadable : textAfterQuote.Readable := by
    simp [CsvDocument.Readable, textAfterQuote, CsvField.Readable, isPlainChar, isInline]
  have haccepted : textAfterQuote.Accepted noParsers labelSchema {} :=
    ⟨⟨_, rfl, rfl⟩, by decide, by simp [CsvDocument.rows, textAfterQuote]; rfl, by decide⟩
  have hbom : NoBom (String.ofList textAfterQuote.text).toUTF8 := by
    unfold NoBom
    decide
  have hparse := (parseCsv_eq_ok_iff noParsers labelSchema {} _ _).mpr
    ⟨hbom, textAfterQuote, rfl, hreadable, haccepted, rfl⟩
  obtain ⟨-, ⟨records, trailing⟩, htext, hwellFormed, -⟩ := (h _).mp hparse
  rw [String.toUTF8_eq_toByteArray, String.toUTF8_eq_toByteArray, String.toByteArray_inj] at htext
  have hsame : CsvDocument.text ⟨records, trailing⟩ = textAfterQuote.text := by
    simpa using congrArg String.toList htext
  obtain ⟨rfl, rfl⟩ := CsvDocument.text_unique hwellFormed.readable hreadable hsame
  have hfield := (hwellFormed.1 [.quoted ['a'] ['b']] (by simp)).2 _ List.mem_cons_self
  exact absurd hfield.2 (by decide)

end QueryFabric.Portability
