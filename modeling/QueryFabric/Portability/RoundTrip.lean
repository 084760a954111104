import QueryFabric.Lib.Succeeds
import QueryFabric.Portability.Documents

/-!
# What is written is read back

The writer quotes a field that has a separator, a quote or a line end in it, and the parser refuses
line ends inside of quotes. It also refuses a file that starts with the byte order mark, which the
writer does not quote. `decodeTabularCsv_writeTabularCsv_iff` says that these are the only texts
that do not come back.
-/

namespace QueryFabric.Portability

/-! ## Written fields -/

/-- The field that `encode_csv_field` writes for a text. -/
def encodeField (value : String) : CsvField :=
  if value.toList.any isCsvSpecial then .quoted value.toList [] else .plain value.toList

/-- The text of a written field. -/
@[simp]
theorem encodeField_text (value : String) : (encodeField value).text = encodeCsvField value := by
  unfold encodeField encodeCsvField
  split <;> rfl

/-- The value of a written field. -/
@[simp]
theorem encodeField_value (value : String) : (encodeField value).value = value.toList := by
  unfold encodeField
  split
  · exact List.append_nil _
  · rfl

/-- A text without line ends. -/
def Inline (value : String) : Prop := ∀ c ∈ value.toList, isInline c

/-- Whether a text is on one line can be checked. -/
instance (value : String) : Decidable (Inline value) := List.decidableBAll _ _

/-- A written field of one line is readable. -/
theorem encodeField_readable {value : String} (h : Inline value) :
    (encodeField value).Readable := by
  unfold encodeField
  split
  · exact ⟨h, by simp⟩
  · rename_i hspecial
    refine CsvField.WellFormed.readable fun c hc => ?_
    simpa using fun hc' => hspecial (List.any_eq_true.mpr ⟨c, hc, hc'⟩)

/-- A text with a line end in it, up to its first line end. -/
theorem exists_lineEnd {cs : List Char} (h : ¬ ∀ c ∈ cs, isInline c) :
    ∃ (before : List Char) (c : Char) (after : List Char), cs = before ++ c :: after ∧
      (∀ d ∈ before, isInline d) ∧ isInline c = false := by
  induction cs with
  | nil => exact absurd (by simp) h
  | cons c cs ih =>
    by_cases hc : isInline c
    · obtain ⟨before, d, after, rfl, hbefore, hd⟩ :=
        ih fun hcs => h (List.forall_mem_cons.mpr ⟨hc, hcs⟩)
      exact ⟨c :: before, d, after, rfl, List.forall_mem_cons.mpr ⟨hc, hbefore⟩, hd⟩
    · exact ⟨[], c, cs, rfl, by simp, by simpa using hc⟩

/-- Quotes are doubled part by part. -/
theorem doubleQuotes_append (quote : Char) (cs ds : List Char) :
    doubleQuotes quote (cs ++ ds) = doubleQuotes quote cs ++ doubleQuotes quote ds := by
  induction cs with
  | nil => rfl
  | cons c cs ih =>
    rw [List.cons_append, doubleQuotes, doubleQuotes, ih]
    split <;> rfl

section Parse

variable {parsers : ValueParsers} {schema : TabularSchema} {limits : ImportLimits}

/-- The parser refuses the field that is written for a text with a line end in it. -/
theorem parseChars_lineEnd {s final : CsvState} (hs : s.AtField) {value : String}
    (h : ¬ Inline value) (rest : List Char) :
    parseChars parsers schema limits s ((encodeField value).text ++ rest) ≠ .ok final := by
  -- The first line end of the value stops the parser in the quoted field.
  obtain ⟨before, c, after, hvalue, hbefore, hc⟩ := exists_lineEnd h
  have hline : c = '\r' ∨ c = '\n' := by
    simpa only [isInline, Bool.and_eq_false_iff, decide_eq_false_iff_not, not_not] using hc
  have hspecial : value.toList.any isCsvSpecial = true :=
    List.any_eq_true.mpr ⟨c, by simp [hvalue], by simpa [isCsvSpecial] using by grind⟩
  have hquote : c ≠ '"' := by
    rintro rfl
    simp at hline
  have hcontent : doubleQuotes '"' value.toList =
      doubleQuotes '"' before ++ c :: doubleQuotes '"' after := by
    rw [hvalue, doubleQuotes_append, doubleQuotes, if_neg hquote]
  -- The field was quoted, since a line end is special.
  have hopen : ∀ tail, parseChars parsers schema limits s ('"' :: tail) =
      parseChars parsers schema limits { s with quoted := true, fieldStarted := true } tail := by
    intro tail
    rw [parseChars_eq]
    simp [hs.quoted, hs.fieldStarted]
  rw [encodeField_text, encodeCsvField, if_pos hspecial, hcontent, List.cons_append, hopen,
    List.append_assoc, List.append_assoc, parseChars_content _ before _ rfl hbefore,
    List.cons_append, parseChars_eq]
  simp [hquote, hline]

/-- The parser refuses the record that is written for a row with a line end in it. -/
theorem parseChars_record_lineEnd {final : CsvState} (rest : List Char) :
    ∀ (values : List String) (s : CsvState), s.AtField → (¬ ∀ value ∈ values, Inline value) →
      parseChars parsers schema limits s (recordText (values.map encodeField) ++ rest) ≠ .ok final
  | [], _, _, h => absurd (by simp) h
  | [value], s, hs, h => by
    have hvalue : ¬ Inline value := fun hvalue => h (List.forall_mem_singleton.mpr hvalue)
    rw [List.map_singleton, recordText_singleton, List.append_assoc]
    exact parseChars_lineEnd hs hvalue _
  | value :: other :: values, s, hs, h => by
    rw [List.map_cons, List.map_cons, recordText_cons_cons, List.append_assoc]
    by_cases hvalue : Inline value
    · have hrest : ¬ ∀ value ∈ other :: values, Inline value := fun hrest =>
        h (List.forall_mem_cons.mpr ⟨hvalue, hrest⟩)
      have hquoted := hs.afterField_quoted (encodeField value)
      rw [List.cons_append, parseChars_field hs (encodeField_readable hvalue) (.comma _),
        parseChars_comma hquoted]
      exact parseChars_record_lineEnd rest (other :: values) _ (.afterComma hquoted) hrest
    · exact parseChars_lineEnd hs hvalue _

/-- The records that are written for rows. -/
def writtenRecords (rows : List (List String)) : List (List CsvField) :=
  rows.map (·.map encodeField)

/-- The text of written records. -/
theorem writtenRecords_text (rows : List (List String)) :
    (writtenRecords rows).flatMap recordText = encodeRecords rows := by
  simp [writtenRecords, encodeRecords, recordText, List.flatMap_map, Function.comp_def]

/-- The parser refuses the records that are written for rows with a line end in them. -/
theorem parseChars_records_lineEnd {final : CsvState} :
    ∀ (rows : List (List String)) (s : CsvState), s.AtField → s.row = [] →
    (∀ row ∈ rows, row ≠ []) →
      (¬ ∀ row ∈ rows, ∀ value ∈ row, Inline value) →
        parseChars parsers schema limits s ((writtenRecords rows).flatMap recordText) ≠ .ok final
  | [], _, _, _, _, h => absurd (by simp) h
  | row :: rows, s, hs, hempty, hne, h => by
    intro hparse
    rw [writtenRecords, List.map_cons, List.flatMap_cons] at hparse
    by_cases hrow : ∀ value ∈ row, Inline value
    · have hreadable : ∀ field ∈ row.map encodeField, field.Readable := by
        rintro field hfield
        obtain ⟨value, hvalue, rfl⟩ := List.mem_map.mp hfield
        exact encodeField_readable (hrow value hvalue)
      have hrow' : row.map encodeField ≠ [] := by simpa using hne row List.mem_cons_self
      obtain ⟨next, hnext, hrest⟩ := (parseChars_record _ _ s hs hrow' hreadable).mp hparse
      rw [hnext.eq_afterRecords] at hrest
      exact parseChars_records_lineEnd rows _ (afterRecords_atField _) rfl
        (fun row hmem => hne row (List.mem_cons_of_mem _ hmem))
        (fun hrows => h (List.forall_mem_cons.mpr ⟨hrow, hrows⟩)) hrest
    · exact parseChars_record_lineEnd _ row s hs hrow hparse

end Parse

/-! ## The byte order mark -/

/-- The byte order mark. -/
def bom : Char := '\uFEFF'

/-- The bytes of a text start with those of the byte order mark when the text starts with it. -/
theorem noBom_toUTF8_iff (text : String) : NoBom text.toUTF8 ↔ text.toList.head? ≠ some bom := by
  have hbytes : text.toUTF8 = text.toList.utf8Encode := by
    rw [String.toUTF8_eq_toByteArray, ← String.toByteArray_ofList, String.ofList_toList]
  have hmark : (String.utf8EncodeChar bom) = [0xef, 0xbb, 0xbf] := by decide
  unfold NoBom
  rw [hbytes, not_iff_not]
  generalize text.toList = cs
  constructor
  · intro h
    cases cs with
    | nil => simp [List.utf8Encode] at h
    | cons c cs =>
      -- Both characters are the one that the bytes decode to.
      have hsplit : (c :: cs).utf8Encode =
          (String.utf8EncodeChar bom).toByteArray ++
              ((c :: cs).utf8Encode.data.toList.drop 3).toByteArray := by
        rw [hmark, ← h, ← List.toByteArray_append, List.take_append_drop]
        exact ByteArray.ext (by simp)
      have hdecode := @ByteArray.utf8DecodeChar?_utf8EncodeChar_append
        ((c :: cs).utf8Encode.data.toList.drop 3).toByteArray bom
      rw [← hsplit, List.utf8DecodeChar?_utf8Encode_cons] at hdecode
      simpa using hdecode
  · intro h
    obtain ⟨cs, rfl⟩ := List.head?_eq_some_iff.mp h
    simp [List.utf8Encode, hmark]

/-! ## The round trip -/

/-- The text of a cell. -/
def cellText : Json → String
  | .string value => value
  | .bool value => if value then "true" else "false"
  | .number text => text
  | .null | .array _ | .object _ => ""

/-- The texts of the cells of a row, in the order of the columns. -/
def cellTexts (schema : TabularSchema) : Json → List String
  | .object entries => schema.columns.map fun column =>
      cellText ((entries.lookup column.name).getD .null)
  | _ => []

/-- A value is written as the text of its cell. -/
theorem valueToCsvText_eq {value : Json} {columnType : TabularColumnType} {text : String}
    (h : valueToCsvText value columnType = .ok text) : text = cellText value := by
  unfold valueToCsvText at h
  split at h
  · cases h
    rfl
  · split at h
    · cases h
      rfl
    · cases h
  · split at h
    · cases h
      rfl
    · cases h
  all_goals cases h

/-- What the writer knows of a row that it writes. -/
theorem rowValues_eq {parsers : ValueParsers} {schema : TabularSchema} {row : Json}
    {values : List String} (h : rowValues parsers schema row = .ok values) :
    values = cellTexts schema row ∧ values.length = schema.columns.length ∧
      validateValues parsers values schema = .ok () := by
  unfold rowValues at h
  split at h
  · split at h
    · cases h
    · obtain ⟨values', hvalues, h⟩ := Lib.bind_eq_ok.mp h
      obtain ⟨⟨⟩, hvalid, h⟩ := Lib.bind_eq_ok.mp h
      cases h
      obtain ⟨rfl, -⟩ := Lib.mapM_eq_ok (fun column text => valueToCsvText_eq) hvalues
      exact ⟨rfl, by simp, hvalid⟩
  · cases h

/-- The schema and the cells that the writer writes so that the parser reads them: no text has a
line end in it, and the file does not start with the byte order mark of a name that is not
quoted. -/
structure CsvPortable (schema : TabularSchema) (rows : List (List String)) : Prop where
  names : ∀ column ∈ schema.columns, Inline column.name
  cells : ∀ row ∈ rows, ∀ value ∈ row, Inline value
  bom : ∀ column ∈ schema.columns.head?, column.name.toList.head? = some bom →
    column.name.toList.any isCsvSpecial

/-- The first character of a file. -/
theorem head?_encodeRecords {schema : TabularSchema} {column : TabularColumn}
    {columns : List TabularColumn} (hcolumns : schema.columns = column :: columns)
    (hname : column.name ≠ "") (rows : List (List String)) :
    (encodeRecords (schema.columns.map TabularColumn.name :: rows)).head? =
      if column.name.toList.any isCsvSpecial then some '"' else column.name.toList.head? := by
  obtain ⟨c, cs, hcs⟩ : ∃ c cs, column.name.toList = c :: cs :=
    List.exists_cons_of_ne_nil (by simpa using hname)
  -- The first field's text begins with a quote or with the name's own first character.
  obtain ⟨tail, htail⟩ : ∃ tail, encodeCsvField column.name =
      (if column.name.toList.any isCsvSpecial then '"' else c) :: tail := by
    unfold encodeCsvField
    split
    · exact ⟨_, rfl⟩
    · exact ⟨cs, hcs⟩
  have hfirst :
    (if column.name.toList.any isCsvSpecial then some '"' else column.name.toList.head?) =
      some (if column.name.toList.any isCsvSpecial then '"' else c) := by
    rw [hcs]
    split <;> rfl
  rw [encodeRecords, List.flatMap_cons, encodeRecord, hcolumns, hfirst]
  cases columns with
  | nil => simp only [List.map_cons, List.map_nil, htail, List.intersperse_singleton,
      List.flatten_cons, List.cons_append, List.head?_cons]
  | cons other columns => simp only [List.map_cons, htail, List.intersperse_cons_cons,
      List.flatten_cons, List.cons_append, List.head?_cons]

/-- The writer writes the records of a schema that is checked and of rows that are valid. -/
theorem writeTabularCsv_eq_ok_iff {parsers : ValueParsers} {schema : TabularSchema}
    {rows : List Json} {bytes : ByteArray} : writeTabularCsv parsers schema rows = .ok bytes ↔
      validateSchema schema ({} : ImportLimits).maxColumns = .ok () ∧
      rows.length ≤ ({} : ImportLimits).maxRows ∧
      (∀ row ∈ rows, rowValues parsers schema row = .ok (cellTexts schema row)) ∧
      (String.ofList (encodeRecords
        (schema.columns.map TabularColumn.name :: rows.map (cellTexts schema)))).toUTF8 =
          bytes := by
  constructor
  -- The writer checks the schema, counts the rows, and checks their values.
  · intro h
    obtain ⟨⟨⟩, hschema, h⟩ := Lib.bind_eq_ok.mp h
    split at h
    · cases h
    · rename_i hrows
      obtain ⟨values, hvalues, h⟩ := Lib.bind_eq_ok.mp h
      cases h
      obtain ⟨rfl, hrow⟩ := Lib.mapM_eq_ok (fun row values h => (rowValues_eq h).1) hvalues
      exact ⟨hschema, Nat.le_of_not_gt hrows, hrow, rfl⟩
  · rintro ⟨hschema, hmax, hrows, rfl⟩
    rw [writeTabularCsv, hschema]
    refine Lib.bind_eq_ok.mpr ⟨(), rfl, ?_⟩
    rw [if_neg (Nat.not_lt.mpr hmax), Lib.mapM_ok_map hrows]
    rfl

/-- A schema that is checked has a first column, and it has a name. -/
theorem validateSchema_head {schema : TabularSchema} {maxColumns : Nat}
    (h : validateSchema schema maxColumns = .ok ()) :
    ∃ column columns, schema.columns = column :: columns ∧ column.name ≠ "" := by
  unfold validateSchema at h
  split at h
  · cases h
  · rename_i hprofile
    split at h
    · cases h
    · split at h
      · cases h
      · rename_i hnames
        cases hcolumns : schema.columns with
        | nil => simp [hcolumns] at hprofile
        | cons column columns =>
          refine ⟨column, columns, rfl, fun hname => hnames ?_⟩
          simp [hcolumns, hname]

/-- The document that is written for rows, the header among them. -/
def writtenDocument (rows : List (List String)) : CsvDocument := ⟨writtenRecords rows, false⟩

/-- The text of a written document. -/
theorem writtenDocument_text (rows : List (List String)) :
    (writtenDocument rows).text = encodeRecords rows := by
  rw [CsvDocument.text, writtenDocument, writtenRecords_text]
  exact List.append_nil _

/-- The values of a written record. -/
theorem recordValues_encodeField (row : List String) :
    recordValues (row.map encodeField) = row := by
  simp [recordValues, Function.comp_def]

/-- The rows of a written document are those after its header. -/
theorem writtenDocument_rows (header : List String) (rows : List (List String)) :
    (writtenDocument (header :: rows)).rows = rows := by
  simp [CsvDocument.rows, writtenDocument, writtenRecords, recordValues_encodeField,
    Function.comp_def]

/-- A written document of lines is readable. -/
theorem writtenDocument_readable {rows : List (List String)}
    (h : ∀ row ∈ rows, row ≠ [] ∧ ∀ value ∈ row, Inline value) :
    (writtenDocument rows).Readable := by
  intro record hmem
  obtain ⟨row, hrow, rfl⟩ := List.mem_map.mp hmem
  obtain ⟨hne, hvalues⟩ := h row hrow
  refine ⟨by simpa using hne, fun field hfield => ?_⟩
  obtain ⟨value, hvalue, rfl⟩ := List.mem_map.mp hfield
  exact encodeField_readable (hvalues value hvalue)

section Written

variable {parsers : ValueParsers} {schema : TabularSchema} {limits : ImportLimits}
  {values : List (List String)}

/-- The parser finds no byte order mark in the file that is written. -/
theorem noBom_written_iff {column : TabularColumn} {columns : List TabularColumn}
    (hcolumns : schema.columns = column :: columns) (hname : column.name ≠ "") :
    NoBom (String.ofList (encodeRecords (schema.columns.map TabularColumn.name :: values))).toUTF8 ↔
      ∀ column ∈ schema.columns.head?, column.name.toList.head? = some bom →
        column.name.toList.any isCsvSpecial := by
  rw [noBom_toUTF8_iff, String.toList_ofList, head?_encodeRecords hcolumns hname, hcolumns]
  simp only [List.head?_cons, Option.mem_some, forall_eq']
  split
  · rename_i hspecial
    simp [bom, List.any_eq_true.mp hspecial]
  · rename_i hspecial
    exact ⟨fun hne heq => absurd heq hne, fun himp heq => hspecial (himp heq)⟩

/-- A file is decoded by the parser, once the schema is checked. -/
theorem decodeTabularCsv_eq_parseCsv (h : validateSchema schema limits.maxColumns = .ok ())
    (bytes : ByteArray) :
    decodeTabularCsv parsers schema limits bytes = parseCsv parsers schema limits bytes := by
  rw [decodeTabularCsv, h]
  rfl

/-- The parser reads the file that is written for a portable schema and portable rows. -/
theorem parseCsv_written (hcolumns : schema.columns ≠ [])
    (hlength : ∀ row ∈ values, row.length = schema.columns.length)
    (hvalid : ∀ row ∈ values, validateValues parsers row schema = .ok ())
    (hmax : values.length ≤ limits.maxRows)
    (hbom : NoBom (String.ofList
      (encodeRecords (schema.columns.map TabularColumn.name :: values))).toUTF8)
    (hportable : CsvPortable schema values) :
    parseCsv parsers schema limits (String.ofList
      (encodeRecords (schema.columns.map TabularColumn.name :: values))).toUTF8 = .ok values := by
  -- The header and the rows have a value in every column, each on one line.
  have hinline : ∀ row ∈ schema.columns.map TabularColumn.name :: values,
      row ≠ [] ∧ ∀ value ∈ row, Inline value := by
    refine List.forall_mem_cons.mpr ⟨⟨by simpa using hcolumns, ?_⟩, fun row hrow => ⟨?_, ?_⟩⟩
    · intro name hmem
      obtain ⟨column, hcolumn, rfl⟩ := List.mem_map.mp hmem
      exact hportable.names column hcolumn
    · rintro rfl
      exact hcolumns (List.length_eq_zero_iff.mp (hlength [] hrow).symm)
    · exact hportable.cells row hrow
  have hrows := writtenDocument_rows (schema.columns.map TabularColumn.name) values
  refine (parseCsv_eq_ok_iff parsers schema limits _ _).mpr ⟨hbom,
    writtenDocument (schema.columns.map TabularColumn.name :: values), ?_,
    writtenDocument_readable hinline, ⟨⟨_, rfl, recordValues_encodeField _⟩, ?_, ?_, ?_⟩, hrows⟩
  · rw [writtenDocument_text]
  · rwa [hrows]
  · rwa [hrows]
  · rwa [hrows]

/-- What the parser reads of the file that is written has no line ends in it. -/
theorem inline_of_parseCsv {rows : List (List String)} (hcolumns : schema.columns ≠ [])
    (hlength : ∀ row ∈ values, row.length = schema.columns.length)
    (h : parseCsv parsers schema limits (String.ofList
      (encodeRecords (schema.columns.map TabularColumn.name :: values))).toUTF8 = .ok rows) :
    ∀ row ∈ schema.columns.map TabularColumn.name :: values, ∀ value ∈ row, Inline value := by
  obtain ⟨-, final, hparse, -⟩ := (parseCsv_toUTF8_iff parsers schema limits _ _).mp h
  by_contra hnot
  rw [String.toList_ofList, ← writtenRecords_text] at hparse
  refine parseChars_records_lineEnd _ {} ⟨rfl, rfl, rfl⟩ rfl ?_ hnot hparse
  refine List.forall_mem_cons.mpr ⟨by simpa using hcolumns, ?_⟩
  rintro _ hrow rfl
  exact hcolumns (List.length_eq_zero_iff.mp (hlength [] hrow).symm)

end Written

/-- A file that was written is read back to the texts of its cells, exactly when none of them and no
column name has a line end in it, and the first column name does not start with a byte order mark
unless it is quoted. -/
theorem decodeTabularCsv_writeTabularCsv_iff (parsers : ValueParsers) (schema : TabularSchema)
    (rows : List Json) (bytes : ByteArray) (h : writeTabularCsv parsers schema rows = .ok bytes) :
    decodeTabularCsv parsers schema {} bytes = .ok (rows.map (cellTexts schema)) ↔
      CsvPortable schema (rows.map (cellTexts schema)) := by
  obtain ⟨hschema, hmax, hrows, rfl⟩ := writeTabularCsv_eq_ok_iff.mp h
  obtain ⟨column, columns, hcolumns, hname⟩ := validateSchema_head hschema
  have hne : schema.columns ≠ [] := hcolumns ▸ List.cons_ne_nil _ _
  have hcells : ∀ row ∈ rows.map (cellTexts schema), row.length = schema.columns.length ∧
      validateValues parsers row schema = .ok () := by
    intro row hrow
    obtain ⟨json, hjson, rfl⟩ := List.mem_map.mp hrow
    exact (rowValues_eq (hrows json hjson)).2
  have hlength := fun row hrow => (hcells row hrow).1
  -- The parser checks the schema again, with the same limits.
  rw [decodeTabularCsv_eq_parseCsv hschema]
  constructor
  · intro hparse
    have hbom := ((parseCsv_toUTF8_iff parsers schema {} _ _).mp hparse).1
    obtain ⟨hnames, hvalues⟩ := List.forall_mem_cons.mp (inline_of_parseCsv hne hlength hparse)
    exact ⟨fun column hcolumn => hnames _ (List.mem_map_of_mem hcolumn), hvalues,
      (noBom_written_iff hcolumns hname).mp hbom⟩
  · intro hportable
    refine parseCsv_written hne hlength (fun row hrow => (hcells row hrow).2) ?_
      ((noBom_written_iff hcolumns hname).mpr hportable.bom) hportable
    rw [List.length_map]
    exact hmax

/-- A row with one label. -/
def labelRow (label : String) : Json := .object [("label", .string label)]

/-- Labels are written, whatever they are. -/
theorem writeTabularCsv_labelRows (labels : List String) (h : labels.length ≤ 5000000) :
    writeTabularCsv noParsers labelSchema (labels.map labelRow) =
      .ok
        (String.ofList (encodeRecords (["label"] :: labels.map fun label => [label]))).toUTF8 := by
  refine writeTabularCsv_eq_ok_iff.mpr ⟨rfl, by simpa using h, fun row hrow => ?_, ?_⟩
  · obtain ⟨label, -, rfl⟩ := List.mem_map.mp hrow
    rfl
  · rw [List.map_map]
    rfl

/-- Separators and quotes come back. -/
theorem labelRows_roundTrip : decodeTabularCsv noParsers labelSchema {}
    (String.ofList (encodeRecords [["label"], ["a,\"b\""], [""]])).toUTF8 =
      .ok [["a,\"b\""], [""]] :=
  (decodeTabularCsv_writeTabularCsv_iff noParsers labelSchema
    (["a,\"b\"", ""].map labelRow) _ (writeTabularCsv_labelRows ["a,\"b\"", ""] (by simp))).mpr
      ⟨by decide, by decide, by decide⟩

/-- A cell with a line feed in it is written, and does not come back. -/
theorem lineFeed_refused : ¬ ∀ (schema : TabularSchema) (rows : List Json) (bytes : ByteArray),
    writeTabularCsv noParsers schema rows = .ok bytes →
      decodeTabularCsv noParsers schema {} bytes = .ok (rows.map (cellTexts schema)) := by
  intro h
  have hdecode := h labelSchema _ _ (writeTabularCsv_labelRows ["a\nb"] (by simp))
  rw [decodeTabularCsv_eq_parseCsv rfl] at hdecode
  have hinline := @inline_of_parseCsv noParsers labelSchema {} [["a\nb"]] _ (by decide)
    (by decide) hdecode
  exact absurd hinline (by decide)

end QueryFabric.Portability
