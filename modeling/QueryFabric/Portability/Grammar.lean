import QueryFabric.Portability.Tabular

/-!
# The grammar of the parser

A field is written plain or between quotes. `CsvField.WellFormed` is what the profile asks of it,
and `CsvField.Readable` is what the parser reads: it also takes a text after the closing quote, and
a lone carriage return. The state machine of `parseChars` is followed here field by field and record
by record, in both directions: what is readable is read, and what is not is refused.
-/

namespace QueryFabric.Portability

/-! ## Fields -/

/-- A field as it is written. A quoted one has a text after its closing quote. -/
inductive CsvField
  | plain (text : List Char)
  | quoted (content tail : List Char)

/-- The characters that the parser takes for part of a field outside of quotes. -/
def isPlainChar (c : Char) : Bool := c ≠ '"' && c ≠ ',' && c ≠ '\n'

/-- Not a line end. -/
def isInline (c : Char) : Bool := c ≠ '\r' && c ≠ '\n'

namespace CsvField

/-- The characters of a field. -/
def text : CsvField → List Char
  | plain text => text
  | quoted content tail => '"' :: (doubleQuotes '"' content ++ '"' :: tail)

/-- What the field stands for. -/
def value : CsvField → List Char
  | plain text => text
  | quoted content tail => content ++ tail

/-- The fields of the profile. -/
def WellFormed : CsvField → Prop
  | plain text => ∀ c ∈ text, isCsvSpecial c = false
  | quoted content tail => (∀ c ∈ content, isInline c) ∧ tail = []

/-- The fields that the parser reads. -/
def Readable : CsvField → Prop
  | plain text => ∀ c ∈ text, isPlainChar c
  | quoted content tail => (∀ c ∈ content, isInline c) ∧ ∀ c ∈ tail, isPlainChar c

/-- A well-formed field is readable. -/
theorem WellFormed.readable {field : CsvField} (h : field.WellFormed) : field.Readable := by
  cases field with
  | plain text =>
    intro c hc
    have hspecial := h c hc
    simp only [isCsvSpecial, Bool.or_eq_false_iff, decide_eq_false_iff_not] at hspecial
    simp [isPlainChar, hspecial]
  | quoted content tail =>
    obtain ⟨hcontent, rfl⟩ := h
    exact ⟨hcontent, fun c hc => absurd hc List.not_mem_nil⟩

end CsvField

/-- What follows a field: nothing, a comma or a CRLF. -/
inductive Stops : List Char → Prop
  | nil : Stops []
  | comma (rest : List Char) : Stops (',' :: rest)
  | crlf (rest : List Char) : Stops ('\r' :: '\n' :: rest)

/-- What stops a field starts with no line feed and no quote. -/
theorem Stops.head_ne {rest : List Char} (h : Stops rest) :
    rest.head? ≠ some '\n' ∧ rest.head? ≠ some '"' := by
  cases h <;> simp

/-! ## What the parser does with a field -/

namespace CsvState

/-- The state after characters outside of quotes. -/
def pushPlain (s : CsvState) (text : List Char) : CsvState :=
  if text.isEmpty then s
  else { s with field := s.field ++ text, fieldStarted := true, endedRecord := false }

/-- The state after a field. -/
def afterField (s : CsvState) : CsvField → CsvState
  | .plain text => s.pushPlain text
  | .quoted content tail => { s with field := content, fieldStarted := true }.pushPlain tail

/-- The state after the comma that follows a field. -/
def afterComma (s : CsvState) : CsvState :=
  { s with row := s.row ++ [String.ofList s.field], field := [], fieldStarted := false }

/-- Nothing of a field has been read. -/
structure AtField (s : CsvState) : Prop where
  field : s.field = []
  quoted : s.quoted = false
  fieldStarted : s.fieldStarted = false

/-- No characters change nothing. -/
@[simp]
theorem pushPlain_nil (s : CsvState) : s.pushPlain [] = s := rfl

/-- A character is added to the field before the others. -/
theorem pushPlain_cons (s : CsvState) (c : Char) (text : List Char) :
    s.pushPlain (c :: text) =
      { s with
        field := s.field ++ [c], fieldStarted := true, endedRecord := false }.pushPlain text := by
  cases text with
  | nil => simp [pushPlain]
  | cons d text => simp [pushPlain]

/-- The characters are added to the field. -/
@[simp]
theorem pushPlain_field (s : CsvState) (text : List Char) :
    (s.pushPlain text).field = s.field ++ text := by
  unfold pushPlain
  split
  · rename_i h
    rw [List.isEmpty_iff.mp h, List.append_nil]
  · rfl

/-- Plain characters open no quote. -/
@[simp]
theorem pushPlain_quoted (s : CsvState) (text : List Char) :
    (s.pushPlain text).quoted = s.quoted := by
  unfold pushPlain
  split <;> rfl

/-- Plain characters end no field. -/
@[simp]
theorem pushPlain_row (s : CsvState) (text : List Char) : (s.pushPlain text).row = s.row := by
  unfold pushPlain
  split <;> rfl

/-- Plain characters end no row. -/
@[simp]
theorem pushPlain_rows (s : CsvState) (text : List Char) : (s.pushPlain text).rows = s.rows := by
  unfold pushPlain
  split <;> rfl

/-- Plain characters end no header. -/
@[simp]
theorem pushPlain_headerSeen (s : CsvState) (text : List Char) :
    (s.pushPlain text).headerSeen = s.headerSeen := by
  unfold pushPlain
  split <;> rfl

/-- After a field its value is read. -/
theorem AtField.afterField_field {s : CsvState} (h : s.AtField) (field : CsvField) :
    (s.afterField field).field = field.value := by
  cases field with
  | plain text => simp [afterField, CsvField.value, h.field]
  | quoted content tail => simp [afterField, CsvField.value]

/-- After a field no quote is open. -/
theorem AtField.afterField_quoted {s : CsvState} (h : s.AtField) (field : CsvField) :
    (s.afterField field).quoted = false := by
  cases field with
  | plain text => simp [afterField, h.quoted]
  | quoted content tail => simp [afterField, h.quoted]

/-- A field ends no field before it. -/
@[simp]
theorem afterField_row (s : CsvState) (field : CsvField) : (s.afterField field).row = s.row := by
  cases field <;> simp [afterField]

/-- A field ends no row. -/
@[simp]
theorem afterField_rows (s : CsvState) (field : CsvField) : (s.afterField field).rows = s.rows := by
  cases field <;> simp [afterField]

/-- A field ends no header. -/
@[simp]
theorem afterField_headerSeen (s : CsvState) (field : CsvField) :
    (s.afterField field).headerSeen = s.headerSeen := by
  cases field <;> simp [afterField]

end CsvState

section Parse

variable {parsers : ValueParsers} {schema : TabularSchema} {limits : ImportLimits}

/-- A plain character outside of quotes is read, unless it is the first of a CRLF. -/
theorem parseChars_plain {s : CsvState} {c : Char} {cs : List Char} (hs : s.quoted = false)
    (hc : isPlainChar c) (hcrlf : c = '\r' → cs.head? ≠ some '\n') :
    parseChars parsers schema limits s (c :: cs) =
      parseChars parsers schema limits
        { s with field := s.field ++ [c], fieldStarted := true, endedRecord := false } cs := by
  simp only [isPlainChar, Bool.and_eq_true, decide_eq_true_eq] at hc
  obtain ⟨⟨hquote, hcomma⟩, hlf⟩ := hc
  rw [parseChars_eq]
  simp only [hs, Bool.false_eq_true, if_false, if_neg hquote, if_neg hcomma, if_neg hlf]
  split
  · rename_i cs'
    exact absurd rfl (hcrlf rfl)
  · rfl

/-- The characters of a field outside of quotes, which do not end in the middle of a CRLF. -/
theorem parseChars_pushPlain {rest : List Char} : ∀ (text : List Char) (s : CsvState),
    s.quoted = false → (∀ c ∈ text, isPlainChar c) →
      (rest.head? = some '\n' → text.getLast? ≠ some '\r') →
      parseChars parsers schema limits s (text ++ rest) =
        parseChars parsers schema limits (s.pushPlain text) rest
  | [], s, _, _, _ => rfl
  | c :: text, s, hs, htext, hlast => by
    -- A carriage return before a line feed would end the record; there is none.
    have hcrlf : c = '\r' → (text ++ rest).head? ≠ some '\n' := by
      intro hc heq
      cases text with
      | nil => exact hlast heq (by rw [hc]; rfl)
      | cons d text =>
        have hd := htext d (by simp)
        cases heq
        simp [isPlainChar] at hd
    have hlast' : rest.head? = some '\n' → text.getLast? ≠ some '\r' := by
      intro hhead
      cases text with
      | nil => simp
      | cons d text => simpa using hlast hhead
    rw [List.cons_append, parseChars_plain hs (htext c List.mem_cons_self) hcrlf,
      CsvState.pushPlain_cons]
    exact parseChars_pushPlain text _ hs (fun d hd => htext d (List.mem_cons_of_mem _ hd)) hlast'

/-- The content of quotes. -/
theorem parseChars_content (rest : List Char) : ∀ (content : List Char) (s : CsvState),
    s.quoted = true → (∀ c ∈ content, isInline c) →
      parseChars parsers schema limits s (doubleQuotes '"' content ++ rest) =
        parseChars parsers schema limits { s with field := s.field ++ content } rest
  | [], s, _, _ => by simp [doubleQuotes]
  | c :: content, s, hs, hcontent => by
    have htail := fun d hd => hcontent d (List.mem_cons_of_mem _ hd)
    have hstep := parseChars_content rest content { s with field := s.field ++ [c] } hs htail
    have hfield : s.field ++ [c] ++ content = s.field ++ c :: content := by simp
    rw [hfield] at hstep
    rw [← hstep, doubleQuotes]
    by_cases hc : c = '"'
    · subst hc
      rw [if_pos rfl, List.cons_append, List.cons_append, parseChars_eq]
      simp [hs]
    · have hinline := hcontent c List.mem_cons_self
      simp only [isInline, Bool.and_eq_true, decide_eq_true_eq] at hinline
      rw [if_neg hc, List.cons_append, parseChars_eq]
      simp [hs, hc, hinline]

/-- The closing quote of a field. -/
theorem parseChars_close {s : CsvState} {rest : List Char} (hs : s.quoted = true)
    (hrest : rest.head? ≠ some '"') :
    parseChars parsers schema limits s ('"' :: rest) =
      parseChars parsers schema limits { s with quoted := false } rest := by
  rw [parseChars_eq]
  simp only [hs, if_true]
  split
  · exact absurd rfl hrest
  · rfl

/-- A field that is readable is read. -/
theorem parseChars_field {s : CsvState} (hs : s.AtField) {field : CsvField}
    (hfield : field.Readable) {rest : List Char} (hrest : Stops rest) :
    parseChars parsers schema limits s (field.text ++ rest) =
      parseChars parsers schema limits (s.afterField field) rest := by
  cases field with
  | plain text =>
    exact parseChars_pushPlain text s hs.quoted hfield fun hhead => absurd hhead hrest.head_ne.1
  -- A quoted field: its opening quote, the doubled content, the closing quote and what stands after
  -- it.
  | quoted content tail =>
    obtain ⟨hcontent, htail⟩ := hfield
    -- What follows the closing quote is no quote, or the field would go on.
    have hhead : (tail ++ rest).head? ≠ some '"' := by
      cases tail with
      | nil => exact hrest.head_ne.2
      | cons d tail =>
        have hd := htail d List.mem_cons_self
        rintro heq
        cases heq
        simp [isPlainChar] at hd
    have hopen : parseChars parsers schema limits s
        ('"' :: (doubleQuotes '"' content ++ '"' :: (tail ++ rest))) =
          parseChars parsers schema limits { s with quoted := true, fieldStarted := true }
            (doubleQuotes '"' content ++ '"' :: (tail ++ rest)) := by
      rw [parseChars_eq]
      simp [hs.quoted, hs.fieldStarted]
    have htext : (CsvField.quoted content tail).text ++ rest =
        '"' :: (doubleQuotes '"' content ++ '"' :: (tail ++ rest)) := by
      simp [CsvField.text]
    rw [htext, hopen, parseChars_content _ content _ rfl hcontent, parseChars_close rfl hhead,
      parseChars_pushPlain tail _ rfl htail fun hhead => absurd hhead hrest.head_ne.1]
    simp [CsvState.afterField, hs.field, hs.quoted]

/-- The comma after a field. -/
theorem parseChars_comma {s : CsvState} (hs : s.quoted = false) (rest : List Char) :
    parseChars parsers schema limits s (',' :: rest) =
      parseChars parsers schema limits s.afterComma rest := by
  rw [parseChars_eq]
  simp [hs, CsvState.afterComma]

/-- The line end after a field. -/
theorem parseChars_crlf {s : CsvState} (hs : s.quoted = false) (rest : List Char) :
    parseChars parsers schema limits s ('\r' :: '\n' :: rest) =
      (endRecord parsers schema limits s).bind fun next =>
        parseChars parsers schema limits next rest := by
  rw [parseChars_eq]
  simp only [hs]
  cases endRecord parsers schema limits s <;> simp [Except.bind]

/-! ## What the parser refuses in a field -/

/-- A text starts with a run of plain characters that ends at a separator, or at a character that
the parser refuses. -/
theorem exists_plain : ∀ cs : List Char, ∃ text rest, cs = text ++ rest ∧
    (∀ c ∈ text, isPlainChar c) ∧
    (Stops rest ∨ (∃ tail, rest = '"' :: tail) ∨
      (∃ tail, rest = '\n' :: tail) ∧ text.getLast? ≠ some '\r')
  | [] => ⟨[], [], rfl, by simp, .inl .nil⟩
  | c :: cs => by
    by_cases hc : isPlainChar c
    -- A line end stops the plain text.
    · by_cases hcrlf : c = '\r' ∧ ∃ tail, cs = '\n' :: tail
      · obtain ⟨rfl, tail, rfl⟩ := hcrlf
        exact ⟨[], _, rfl, by simp, .inl (.crlf tail)⟩
      · obtain ⟨text, rest, rfl, htext, hrest⟩ := exists_plain cs
        refine ⟨c :: text, rest, rfl, ?_, ?_⟩
        · intro d hd
          obtain rfl | hd := List.mem_cons.mp hd
          · exact hc
          · exact htext d hd
        · obtain hstops | hquote | ⟨hline, hlast⟩ := hrest
          · exact .inl hstops
          · exact .inr (.inl hquote)
          · refine .inr (.inr ⟨hline, ?_⟩)
            -- The last character is this one when no text follows it.
            cases text with
            | nil => simpa using fun heq => hcrlf ⟨heq, hline⟩
            | cons d text => simpa using hlast
    · refine ⟨[], c :: cs, rfl, by simp, ?_⟩
      simp only [isPlainChar, Bool.and_eq_true, decide_eq_true_eq, not_and_or, not_not] at hc
      -- A quote, a comma and a line feed are not plain.
      obtain (rfl | rfl) | rfl := hc
      · exact .inr (.inl ⟨cs, rfl⟩)
      · exact .inl (.comma cs)
      · exact .inr (.inr ⟨⟨cs, rfl⟩, by simp⟩)

/-- A text starts with the content of quotes, which ends at a closing quote, at the end of the text
or at a line end. -/
theorem exists_content : ∀ cs : List Char, ∃ content rest, cs = doubleQuotes '"' content ++ rest ∧
    (∀ c ∈ content, isInline c) ∧
      ((∃ tail, rest = '"' :: tail ∧ tail.head? ≠ some '"') ∨ rest = [] ∨
        ∃ c tail, rest = c :: tail ∧ (c = '\r' ∨ c = '\n'))
  | [] => ⟨[], [], rfl, by simp, .inr (.inl rfl)⟩
  | c :: cs => by
    by_cases hquote : c = '"'
    · subst hquote
      cases cs with
      | nil => exact ⟨[], _, rfl, by simp, .inl ⟨[], rfl, by simp⟩⟩
      | cons d cs =>
        by_cases hdouble : d = '"'
        · subst hdouble
          obtain ⟨content, rest, rfl, hcontent, hrest⟩ := exists_content cs
          exact ⟨'"' :: content, rest, rfl, List.forall_mem_cons.mpr ⟨rfl, hcontent⟩, hrest⟩
        · exact ⟨[], _, rfl, by simp, .inl ⟨d :: cs, rfl, by simpa using hdouble⟩⟩
    · by_cases hline : c = '\r' ∨ c = '\n'
      · exact ⟨[], c :: cs, rfl, by simp, .inr (.inr ⟨c, cs, rfl, hline⟩)⟩
      · obtain ⟨content, rest, rfl, hcontent, hrest⟩ := exists_content cs
        refine ⟨c :: content, rest, by simp [doubleQuotes, hquote], ?_, hrest⟩
        exact List.forall_mem_cons.mpr ⟨by simpa [isInline, not_or] using hline, hcontent⟩

/-- The parser refuses a quote or a line feed after the characters of a field. -/
theorem parseChars_refused {s next : CsvState} (hs : s.quoted = false) {text rest : List Char}
    (htext : ∀ c ∈ text, isPlainChar c)
    (hrest : (∃ tail, rest = '"' :: tail ∧ (s.pushPlain text).fieldStarted = true) ∨
      (∃ tail, rest = '\n' :: tail) ∧ text.getLast? ≠ some '\r') :
    parseChars parsers schema limits s (text ++ rest) ≠ .ok next := by
  obtain ⟨tail, rfl, hstarted⟩ | ⟨⟨tail, rfl⟩, hlast⟩ := hrest
  · rw [parseChars_pushPlain text s hs htext (by simp), parseChars_eq]
    simp [hs, hstarted]
  · rw [parseChars_pushPlain text s hs htext (fun _ => hlast), parseChars_eq]
    simp [hs]

/-- A text starts with a readable field, or the parser refuses it or ends in the middle of
quotes. -/
theorem exists_field (cs : List Char) :
    (∃ field rest, cs = CsvField.text field ++ rest ∧ field.Readable ∧ Stops rest) ∨
      ∀ s next : CsvState, s.AtField → parseChars parsers schema limits s cs = .ok next →
        next.quoted = true := by
  by_cases hquote : ∃ tail, cs = '"' :: tail
  · obtain ⟨tail, rfl⟩ := hquote
    have hopen : ∀ s : CsvState, s.AtField → parseChars parsers schema limits s ('"' :: tail) =
        parseChars parsers schema limits { s with quoted := true, fieldStarted := true } tail := by
      intro s hs
      rw [parseChars_eq]
      simp [hs.quoted, hs.fieldStarted]
    obtain ⟨content, rest, rfl, hcontent, hrest⟩ := exists_content tail
    obtain ⟨tail, rfl, hhead⟩ | rfl | ⟨c, tail, rfl, hline⟩ := hrest
    · obtain ⟨text, rest, rfl, htext, hrest⟩ := exists_plain tail
      by_cases hstops : Stops rest
      · exact .inl ⟨.quoted content text, rest, by simp [CsvField.text], ⟨hcontent, htext⟩, hstops⟩
      · refine .inr fun s next hs hnext => ?_
        rw [hopen s hs, parseChars_content _ content _ rfl hcontent, parseChars_close rfl hhead]
          at hnext
        refine absurd hnext (parseChars_refused rfl htext ?_)
        obtain hrest | ⟨tail, rfl⟩ | hrest := hrest
        · exact absurd hrest hstops
        · refine .inl ⟨tail, rfl, ?_⟩
          unfold CsvState.pushPlain
          split <;> rfl
        · exact .inr hrest
    · refine .inr fun s next hs hnext => ?_
      rw [hopen s hs, parseChars_content _ content _ rfl hcontent] at hnext
      cases hnext
      rfl
    · refine .inr fun s next hs hnext => ?_
      rw [hopen s hs, parseChars_content _ content _ rfl hcontent, parseChars_eq] at hnext
      obtain rfl | rfl := hline <;> simp at hnext
  · obtain ⟨text, rest, rfl, htext, hrest⟩ := exists_plain cs
    by_cases hstops : Stops rest
    · exact .inl ⟨.plain text, rest, rfl, htext, hstops⟩
    · refine .inr fun s next hs hnext => absurd hnext (parseChars_refused hs.quoted htext ?_)
      obtain hrest | ⟨tail, rfl⟩ | hrest := hrest
      · exact absurd hrest hstops
      · refine .inl ⟨tail, rfl, ?_⟩
        -- The text does not start with a quote, so a character comes before this one.
        cases text with
        | nil => exact absurd ⟨tail, rfl⟩ hquote
        | cons c text => rfl
      · exact .inr hrest

/-! ## Records -/

/-- The row that a record stands for. -/
def recordValues (record : List CsvField) : List String :=
  record.map fun field => String.ofList field.value

/-- The text of a record, with its line end. -/
def recordText (record : List CsvField) : List Char := encodeRecord (record.map CsvField.text)

/-- The text of a record of one field. -/
theorem recordText_singleton (field : CsvField) :
    recordText [field] = field.text ++ ['\r', '\n'] := by
  simp [recordText, encodeRecord]

/-- The text of a record of more fields. -/
theorem recordText_cons_cons (field other : CsvField) (record : List CsvField) :
    recordText (field :: other :: record) = field.text ++ ',' :: recordText (other :: record) := by
  simp [recordText, encodeRecord]

/-- What the parser accepts for a row: the header first, and then rows of valid values. -/
inductive AcceptsRow (parsers : ValueParsers) (schema : TabularSchema) (limits : ImportLimits)
    (s : CsvState) : List String → CsvState → Prop
  | header (hheader : s.headerSeen = false) :
      AcceptsRow parsers schema limits s (schema.columns.map TabularColumn.name)
        { rows := s.rows, endedRecord := true, headerSeen := true }
  | data (row : List String) (hheader : s.headerSeen = true)
      (hlength : row.length = schema.columns.length)
      (hvalues : validateValues parsers row schema = .ok ())
      (hrows : s.rows.length < limits.maxRows) :
      AcceptsRow parsers schema limits s row
        { rows := s.rows ++ [row], endedRecord := true, headerSeen := true }

/-- A line end accepts the row that was read. -/
theorem endRecord_eq_ok_iff {s next : CsvState} (hs : s.quoted = false) :
    endRecord parsers schema limits s = .ok next ↔
      AcceptsRow parsers schema limits s (s.row ++ [String.ofList s.field]) next := by
  dsimp only [endRecord]
  generalize s.row ++ [String.ofList s.field] = row
  rw [hs]
  constructor
  · intro h
    -- The checks in their order: the width, then the header or the values, then the limit.
    by_cases hlength : row.length = schema.columns.length
    · rw [if_neg (not_not.mpr hlength)] at h
      cases hheader : s.headerSeen with
      | false =>
        by_cases hrow : row = schema.columns.map TabularColumn.name
        · rw [if_pos hheader, if_neg (not_not.mpr hrow)] at h
          cases h
          rw [hrow]
          exact .header hheader
        · rw [if_pos hheader, if_pos hrow] at h
          cases h
      | true =>
        rw [if_neg (by simp [hheader])] at h
        cases hvalues : validateValues parsers row schema with
        | error e => simp [hvalues, bind, Except.bind] at h
        | ok _ =>
          -- The code counts the row first and then compares.
          have hlen : (s.rows ++ [row]).length = s.rows.length + 1 := by simp
          by_cases hrows : s.rows.length < limits.maxRows
          · rw [hvalues, if_neg (by omega)] at h
            cases h
            rw [hheader]
            exact .data row hheader hlength hvalues hrows
          · rw [hvalues, if_pos (by omega)] at h
            cases h
    · rw [if_pos hlength] at h
      cases h
  · intro h
    cases h with
    | header hheader => simp [hheader]
    | data row hheader hlength hvalues hrows =>
      have hlen : (s.rows ++ [row]).length = s.rows.length + 1 := by simp
      have hle : ¬ (s.rows ++ [row]).length > limits.maxRows := by omega
      rw [if_neg (not_not.mpr hlength), if_neg (by simp [hheader]), hvalues, if_neg hle, hheader]
      rfl

/-- After a comma a field may start. -/
theorem CsvState.AtField.afterComma {s : CsvState} (hs : s.quoted = false) : s.afterComma.AtField :=
  ⟨rfl, hs, rfl⟩

/-- A row is accepted whatever the parser has read of it otherwise. -/
theorem AcceptsRow.congr {s t next : CsvState} {row : List String}
    (h : AcceptsRow parsers schema limits s row next) (hrows : t.rows = s.rows)
    (hheader : t.headerSeen = s.headerSeen) : AcceptsRow parsers schema limits t row next := by
  cases h with
  | header hs =>
    rw [← hrows]
    exact .header (hheader.trans hs)
  | data row hs hlength hvalues hmax =>
    rw [← hrows] at hmax ⊢
    exact .data row (hheader.trans hs) hlength hvalues hmax

/-- A record is read as the row of its fields. -/
theorem parseChars_record {final : CsvState} (rest : List Char) : ∀ (record : List CsvField)
    (s : CsvState), s.AtField → record ≠ [] → (∀ field ∈ record, field.Readable) →
      (parseChars parsers schema limits s (recordText record ++ rest) = .ok final ↔
        ∃ next, AcceptsRow parsers schema limits s (s.row ++ recordValues record) next ∧
          parseChars parsers schema limits next rest = .ok final)
  | [], _, _, hne, _ => absurd rfl hne
  -- The last field ends at the line end, which ends the record.
  | [field], s, hs, _, hfields => by
    have htext : recordText [field] ++ rest = field.text ++ ('\r' :: '\n' :: rest) := by
      simp [recordText_singleton]
    have hquoted := hs.afterField_quoted field
    have hrow : (s.afterField field).row ++ [String.ofList (s.afterField field).field] =
        s.row ++ recordValues [field] := by
      simp [recordValues, hs.afterField_field]
    rw [htext, parseChars_field hs (hfields field List.mem_cons_self) (.crlf rest),
      parseChars_crlf hquoted]
    constructor
    · intro h
      cases hend : endRecord parsers schema limits (s.afterField field) with
      | error e => simp [hend, Except.bind] at h
      | ok next =>
        rw [hend] at h
        have haccepts := (endRecord_eq_ok_iff hquoted).mp hend
        rw [hrow] at haccepts
        exact ⟨next, haccepts.congr (by simp) (by simp), h⟩
    · rintro ⟨next, haccepts, hnext⟩
      rw [← hrow] at haccepts
      have hend := (endRecord_eq_ok_iff hquoted).mpr (haccepts.congr (by simp) (by simp))
      rw [hend]
      exact hnext
  -- Any other field ends at a comma.
  | field :: other :: record, s, hs, _, hfields => by
    have htext : recordText (field :: other :: record) ++ rest =
        field.text ++ (',' :: (recordText (other :: record) ++ rest)) := by
      simp [recordText_cons_cons]
    have hquoted := hs.afterField_quoted field
    have hrow : (s.afterField field).afterComma.row ++ recordValues (other :: record) =
        s.row ++ recordValues (field :: other :: record) := by
      simp [CsvState.afterComma, recordValues, hs.afterField_field]
    rw [htext, parseChars_field hs (hfields field List.mem_cons_self) (.comma _),
      parseChars_comma hquoted, parseChars_record rest (other :: record) _
        (.afterComma hquoted) (List.cons_ne_nil _ _)
        fun f hf => hfields f (List.mem_cons_of_mem _ hf), hrow]
    refine exists_congr fun next => and_congr_left fun _ => ?_
    exact ⟨fun h => h.congr (by simp [CsvState.afterComma]) (by simp [CsvState.afterComma]),
      fun h => h.congr (by simp [CsvState.afterComma]) (by simp [CsvState.afterComma])⟩

/-- The parser has come to the end of a document. -/
structure CsvState.Finished (s : CsvState) : Prop where
  quoted : s.quoted = false
  endedRecord : s.endedRecord = true
  row : s.row = []
  field : s.field = []

/-- An empty quoted field. -/
def emptyQuotes : List Char := ['"', '"']

/-- The text from the start of a field to the end of a document is the end of a record and what
follows it, unless nothing or an empty quoted field is left. -/
theorem exists_record {final : CsvState} (hfinal : final.Finished) : ∀ (n : Nat) (cs : List Char),
    cs.length ≤ n → ∀ s : CsvState, s.AtField →
      parseChars parsers schema limits s cs = .ok final →
        (s.row = [] ∧ (cs = [] ∨ cs = emptyQuotes)) ∨
        ∃ record rest, record ≠ [] ∧ (∀ field ∈ record, CsvField.Readable field) ∧
          cs = recordText record ++ rest := by
  intro n
  induction n with
  | zero =>
    intro cs hn s hs hparse
    have hnil : cs = [] := List.length_eq_zero_iff.mp (Nat.le_zero.mp hn)
    subst hnil
    cases hparse
    exact .inl ⟨hfinal.row, .inl rfl⟩
  | succ n ih =>
    intro cs hn s hs hparse
    obtain ⟨field, rest, rfl, hfield, hstops⟩ | hopen := @exists_field parsers schema limits cs
    · rw [parseChars_field hs hfield hstops] at hparse
      have hquoted := hs.afterField_quoted field
      cases hstops with
      | nil =>
        cases hparse
        -- The field is empty: it is nothing, or a pair of quotes.
        have hvalue : field.value = [] := (hs.afterField_field field).symm.trans hfinal.field
        refine .inl ⟨by simpa using hfinal.row, ?_⟩
        cases field with
        | plain text =>
          have htext : text = [] := hvalue
          exact .inl (by simp [htext, CsvField.text])
        | quoted content tail =>
          obtain ⟨rfl, rfl⟩ := List.append_eq_nil_iff.mp hvalue
          exact .inr rfl
      | comma tail =>
        rw [parseChars_comma hquoted] at hparse
        have hlen : tail.length ≤ n := by
          simp only [List.length_append, List.length_cons] at hn
          omega
        obtain ⟨hrow, -⟩ | ⟨record, rest, hne, hreadable, rfl⟩ :=
          ih tail hlen _ (.afterComma hquoted) hparse
        · simp [CsvState.afterComma] at hrow
        · obtain ⟨other, record, rfl⟩ := List.exists_cons_of_ne_nil hne
          refine .inr ⟨field :: other :: record, rest, List.cons_ne_nil _ _, ?_, ?_⟩
          · exact List.forall_mem_cons.mpr ⟨hfield, hreadable⟩
          · simp [recordText_cons_cons]
      | crlf tail =>
        exact .inr ⟨[field], tail, List.cons_ne_nil _ _, List.forall_mem_singleton.mpr hfield,
          by simp [recordText_singleton]⟩
    · have hquoted := hopen s final hs hparse
      rw [hfinal.quoted] at hquoted
      cases hquoted

end Parse

end QueryFabric.Portability
