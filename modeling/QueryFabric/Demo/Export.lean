import QueryFabric.Demo.Exactness
import QueryFabric.Portability.RoundTrip
import Mathlib.Data.List.TakeDrop

/-!
# Exports and their imports

The export of a station's readings in `crates/queryfabric-demo/src/http.rs`, `db.rs` and
`sovereignty.rs`, and what an import makes of its CSV. The export query writes the times with
`to_char`, the numbers become JSON numbers, and the rows a file of the tabular profile; an import
decodes the file and reads its rows.

What PostgreSQL writes for a time and how JSON prints a number are parameters. A time is its
microseconds since 1970, as the column keeps it. The bundle around the file is left out.

The text of a time has no place for the fraction of a second, nor for the era of a year:
`restores_iff` says that only whole seconds of the years 1 to 9999 come back.
-/

namespace QueryFabric.Demo

open Lib Portability

/-! ## Exports -/

/-- The one profile of `readings_schema`. -/
def readingsSchema : TabularSchema :=
  ⟨tabularCsvProfile,
    [⟨"measured_at", .timestamp⟩, ⟨"pm25", .float64⟩, ⟨"no2", .float64⟩, ⟨"ozone", .float64⟩]⟩

/-- What the code takes from PostgreSQL and from other crates: `to_char` with the pattern
`YYYY-MM-DD"T"HH24:MI:SS"Z"`, the value of a text that `str::parse::<f64>` accepts, and the text
that `serde_json::Number::from_f64` prints for a value, if there is one. -/
structure Formats (Number : Type) where
  toChar : Int → String
  parse : String → Number
  fromF64 : Number → Option String
  isUuid : String → Bool

/-- A time that its text tells: a whole second of the years 1 to 9999. -/
def IsTold (time : Int) : Prop :=
  time % 1000000 = 0 ∧ -62135596800000000 ≤ time ∧ time < 253402300800000000

/-- Whether a time is told can be checked. -/
instance (time : Int) : Decidable (IsTold time) := inferInstanceAs (Decidable (_ ∧ _))

namespace Formats

variable {Number : Type} (formats : Formats Number)

/-- The values of a row, each number by its value. -/
def values (row : Int × String × String × String) : Int × Number × Number × Number :=
  (row.1, formats.parse row.2.1, formats.parse row.2.2.1, formats.parse row.2.2.2)

/-- The values of some rows. -/
def allValues (rows : List Reading) : List (Int × Number × Number × Number) :=
  rows.map fun reading => formats.values reading.values

/-- `float_to_json`: a number that is finite, or `null`. -/
def floatToJson (value : Number) : Json :=
  match formats.fromF64 value with
  | some text => .number text
  | none => .null

/-- A row of the export query, as `cell_to_json` gives its cells. -/
def exportRow (reading : Reading) : Json :=
  .object
    [("measured_at", .string (formats.toChar reading.measuredAt)),
      ("pm25", formats.floatToJson (formats.parse reading.pm25)),
      ("no2", formats.floatToJson (formats.parse reading.no2)),
      ("ozone", formats.floatToJson (formats.parse reading.ozone))]

/-- The checks of the profile take the times that the import reads. -/
def parsers (env : Environment) : ValueParsers where
  isUuid := formats.isUuid
  isRfc3339 text := (env.parseRfc3339 text).isOk

/-- `readings_csv`, which panics where the writer fails. -/
def readingsCsv (env : Environment) (rows : List Reading) : Option ByteArray :=
  (writeTabularCsv (formats.parsers env) readingsSchema (rows.map formats.exportRow)).toOption

/-- The rows that `prepare_import` gets of a file. -/
def decodeReadings (env : Environment) (csv : ByteArray) :
    Except ImportError (List (List String)) :=
  decodeTabularCsv (formats.parsers env) readingsSchema {} csv

/-- What is documented of JSON numbers: a finite value is printed, and read back as it was. -/
def PrintsNumbers : Prop :=
  ∀ text, validFloat text = true → ∃ printed, formats.fromF64 (formats.parse text) = some printed ∧
    validFloat printed = true ∧ formats.parse printed = formats.parse text

/-- What is documented of the text of a time: it is of the pattern, it is read back as the time if
it tells it, and what is read from it is a time that is told. -/
structure WritesTime (env : Environment) (time : Int) : Prop where
  chars : ∀ c ∈ (formats.toChar time).toList, c.isDigit = true ∨ c ∈ ['-', ':', 'T', 'Z']
  last : (formats.toChar time).toList.getLast? = some 'Z'
  read : IsTold time → env.parseRfc3339 (formats.toChar time) = .ok time
  told : ∀ other, env.parseRfc3339 (formats.toChar time) = .ok other → IsTold other

end Formats

/-- The rows of a station as the export query may give them: ordered by time, and rows of one time
in any order. -/
structure Exports (readings : List Reading) (station : Uuid) (rows : List Reading) : Prop where
  perm : rows.Perm (readings.filter fun reading => reading.stationId = station)
  ordered : rows.Pairwise fun reading later => reading.measuredAt ≤ later.measuredAt

namespace System

variable {Number : Type} (env : Environment) (formats : Formats Number)

/-- An export comes back: it is written, its file is decoded, every row of it can be read, and in
any run from then on an import of it gives its values to a station that has no other readings. -/
structure Restores (s : System) (exported : List Reading) (csv : ByteArray)
    (rows : List (List String)) :
    Prop where
  written : formats.readingsCsv env exported = some csv
  decoded : formats.decodeReadings env csv = .ok rows
  read : ∃ values, rows.mapM (readRow env) = .ok values ∧
    (values.map formats.values).Perm (formats.allValues exported)
  restored : ∀ actions t index call receipt, Guarded (System.step env) FreshIds s actions →
    run (System.step env) s actions = some t → t.calls[index]? = some call →
      call.phase = .returned receipt false → call.request.rows = rows →
        (∀ reading ∈ t.readings, reading.stationId = call.request.stationId →
          reading.call = some index) →
          (formats.allValues
            (t.readings.filter fun reading => reading.stationId = call.request.stationId)).Perm
            (formats.allValues exported)

/-- New rows get new identifiers, and a request has the rows of a file that was decoded. -/
def Decoded (s : System) (a : Action) : Prop :=
  FreshIds s a ∧ ∀ request, a = .call request →
    ∃ csv, formats.decodeReadings env csv = .ok request.rows

end System

/-! ## Numbers in the tables -/

/-- The numbers of a row are finite, as the profile has them. -/
structure Reading.IsNumeric (reading : Reading) : Prop where
  pm25 : validFloat reading.pm25 = true
  no2 : validFloat reading.no2 = true
  ozone : validFloat reading.ozone = true

/-- A row that is valid for the schema of the readings. -/
def IsReadingsRow (parsers : ValueParsers) (row : List String) : Prop :=
  row.length = 4 ∧ validateValues parsers row readingsSchema = .ok ()

section Rows

variable {parsers : ValueParsers} {env : Environment}

/-- The values of a row are valid when each is valid for its column. -/
theorem validateValues_eq_ok_iff {row : List String} {schema : TabularSchema} :
    validateValues parsers row schema = .ok () ↔
      ∀ value ∈ row.zip schema.columns, validValue parsers value.2.columnType value.1 = true := by
  unfold validateValues
  split
  · rename_i value column hfind
    have hinvalid := List.find?_some hfind
    exact ⟨nofun, fun h => by simp [h _ (List.mem_of_find?_eq_some hfind)] at hinvalid⟩
  · rename_i hfind
    simpa using List.find?_eq_none.mp hfind

/-- The values of a reading are valid when its time and its numbers are. -/
theorem validateValues_readings_iff {measuredAt pm25 no2 ozone : String} :
    validateValues parsers [measuredAt, pm25, no2, ozone] readingsSchema = .ok () ↔
      validValue parsers .timestamp measuredAt = true ∧ validFloat pm25 = true ∧
      validFloat no2 = true ∧
        validFloat ozone = true := by
  rw [validateValues_eq_ok_iff]
  simp [readingsSchema, validValue]

/-- A number is read of a text that parses. -/
theorem readNumber_eq_ok_iff {name text value : String} :
    readNumber name text = .ok value ↔ (parseF64 text.toList).isSome = true ∧ value = text := by
  unfold readNumber
  cases parseF64 text.toList with
  | none => simp
  | some parsed => simp [eq_comm]

/-- A row is read when its time and its numbers are. -/
theorem readRow_eq_ok_iff {measuredAt pm25 no2 ozone : String}
    {values : Int × String × String × String} :
    readRow env [measuredAt, pm25, no2, ozone] = .ok values ↔
      ∃ time, env.parseRfc3339 measuredAt = .ok time ∧
      (parseF64 pm25.toList).isSome = true ∧ (parseF64 no2.toList).isSome = true ∧
        (parseF64 ozone.toList).isSome = true ∧ values = (time, pm25, no2, ozone) := by
  unfold readRow
  dsimp only
  cases htime : env.parseRfc3339 measuredAt with
  | error error =>
    constructor
    · intro h
      cases h
    · rintro ⟨time, h, -⟩
      cases h
  | ok time =>
    simp only [bind_eq_ok, readNumber_eq_ok_iff, pure_eq_ok]
    constructor
    · rintro ⟨_, ⟨⟩, _, ⟨hpm25, rfl⟩, _, ⟨hno2, rfl⟩, _, ⟨hozone, rfl⟩, rfl⟩
      exact ⟨time, rfl, hpm25, hno2, hozone, rfl⟩
    · rintro ⟨_, ⟨⟩, hpm25, hno2, hozone, rfl⟩
      exact ⟨_, rfl, _, ⟨hpm25, rfl⟩, _, ⟨hno2, rfl⟩, _, ⟨hozone, rfl⟩, rfl⟩

/-- What is read of a valid row. -/
theorem numeric_of_readRow {row : List String} {reading : Reading}
    (hrow : IsReadingsRow parsers row)
    (h : readRow env row = .ok reading.values) : reading.IsNumeric := by
  obtain ⟨hlength, hvalid⟩ := hrow
  obtain ⟨measuredAt, pm25, no2, ozone, rfl⟩ := List.length_eq_four.mp hlength
  obtain ⟨-, hpm25, hno2, hozone⟩ := validateValues_readings_iff.mp hvalid
  obtain ⟨time, -, -, -, -, hvalues⟩ := readRow_eq_ok_iff.mp h
  obtain ⟨-, rfl, rfl, rfl⟩ : _ ∧ reading.pm25 = pm25 ∧ reading.no2 = no2 ∧
      reading.ozone = ozone := by
    simpa [Reading.values] using hvalues
  exact ⟨hpm25, hno2, hozone⟩

/-- The rows of a file that is decoded. -/
theorem isReadingsRow_of_decoded {csv : ByteArray} {rows : List (List String)}
    (h : decodeTabularCsv parsers readingsSchema {} csv = .ok rows) :
    ∀ row ∈ rows, IsReadingsRow parsers row := by
  rw [decodeTabularCsv_eq_parseCsv rfl] at h
  obtain ⟨-, doc, -, -, haccepted, rfl⟩ :=
    (parseCsv_eq_ok_iff parsers readingsSchema {} csv rows).mp h
  exact fun row hrow => ⟨haccepted.length row hrow, haccepted.values row hrow⟩

end Rows

namespace System

variable {Number : Type} {env : Environment} {formats : Formats Number} {s t : System}

/-- The numbers in the tables and in the transactions are finite, and so are those that are still to
be read. -/
structure Numeric (parsers : ValueParsers) (s : System) : Prop where
  readings : ∀ reading ∈ s.readings, reading.IsNumeric
  requests : ∀ (index : Nat) (call : Call), s.calls[index]? = some call →
    ∀ row ∈ call.request.rows, IsReadingsRow parsers row
  pending : ∀ (index : Nat) (call : Call), s.calls[index]? = some call →
    ∀ reading ∈ call.phase.rows, reading.IsNumeric

/-- At the start the seeded readings are numbers. -/
theorem numeric_start {parsers : ValueParsers} {seeded : List Reading}
    (h : ∀ reading ∈ seeded, reading.IsNumeric) :
    Numeric parsers (start seeded) where
  readings reading hreading := by
    obtain ⟨old, hold, rfl⟩ := List.mem_map.mp hreading
    exact ⟨(h old hold).pm25, (h old hold).no2, (h old hold).ozone⟩
  requests _ _ hcall := nomatch hcall
  pending _ _ hcall := nomatch hcall

/-- A call moves to a phase whose rows are finite. -/
theorem Numeric.setPhase {parsers : ValueParsers} {index : Nat} {call : Call} {phase : CallPhase}
    (hs : Numeric parsers s) (hcall : s.calls[index]? = some call)
    (hphase : ∀ reading ∈ phase.rows, reading.IsNumeric) :
    Numeric parsers (s.setPhase index call phase) where
  readings := hs.readings
  requests other found hfound := by
    rcases getElem?_setPhase hfound with ⟨-, rfl⟩ | ⟨-, hold⟩
    · exact hs.requests index call hcall
    · exact hs.requests other found hold
  pending other found hfound := by
    rcases getElem?_setPhase hfound with ⟨-, rfl⟩ | ⟨-, hold⟩
    · exact hphase
    · exact hs.pending other found hold

/-- A step keeps the readings numbers. -/
theorem Numeric.step {a : Action} (hs : Numeric (formats.parsers env) s)
    (ha : Decoded env formats s a)
    (h : s.step env a = some t) : Numeric (formats.parsers env) t := by
  -- The numbers of a reading come from a row that was decoded, so each step is about the rows it
  -- adds.
  cases step_moves h with
  -- The request of a new call is a decoded one.
  | called request =>
    obtain ⟨csv, hcsv⟩ := ha.2 request rfl
    refine ⟨hs.readings, fun other found hfound => ?_, fun other found hfound => ?_⟩
    · rcases getElem?_concat_eq_some hfound with hold | ⟨-, rfl⟩
      · exact hs.requests other found hold
      · exact isReadingsRow_of_decoded hcsv
    · rcases getElem?_concat_eq_some hfound with hold | ⟨-, rfl⟩
      · exact hs.pending other found hold
      · exact fun _ hreading => nomatch hreading
  | moved _ index call phase hcall hrunning hphase =>
    refine hs.setPhase hcall fun reading hreading => ?_
    rcases hphase with hbare | rfl
    · cases phase with
      | inserting | committing => exact hbare.elim
      | _ => exact nomatch hreading
    · exact nomatch hreading
  | prepared index call hcall hphase => exact hs.setPhase hcall fun _ hreading => nomatch hreading
  -- The inserted row is one of the request's, which are numeric.
  | inserted index call ordinal rows row reading hcall hphase hrow hvalues hstation hmark =>
    have hrows := hs.pending index call hcall
    rw [hphase] at hrows
    have hnumeric := numeric_of_readRow
      (hs.requests index call hcall row (List.mem_of_getElem? hrow)) hvalues
    refine hs.setPhase hcall ?_
    show ∀ found ∈ (if hasReading (s.readings ++ rows) reading.readingId then
      rows else rows ++ [reading]), _
    split
    · exact hrows
    · exact List.forall_mem_append.mpr ⟨hrows, by simpa using hnumeric⟩
  | reserved index call ordinal rows receiptId hcall hphase =>
    have hrows := hs.pending index call hcall
    rw [hphase] at hrows
    exact hs.setPhase hcall hrows
  -- The rows that were pending are now readings.
  | committed index call rows receipt outcome hcall hphase =>
    have hrows := hs.pending index call hcall
    rw [hphase] at hrows
    have hcommitted : Numeric (formats.parsers env) (s.withCommit rows receipt) :=
      ⟨List.forall_mem_append.mpr ⟨hs.readings, hrows⟩, hs.requests, hs.pending⟩
    refine hcommitted.setPhase hcall fun reading hreading => ?_
    cases outcome <;> exact nomatch hreading

end System

/-! ## Numbers in a file -/

/-- A digit is on one line. -/
theorem isInline_of_isDigit {c : Char} (h : c.isDigit = true) : isInline c = true := by
  simp only [isInline, Bool.and_eq_true, decide_eq_true_eq]
  constructor <;> rintro rfl <;> simp at h

/-- The digits at the start of a text are in one line. -/
theorem inline_of_span {cs : List Char} (h : ∀ c ∈ (cs.span Char.isDigit).2, isInline c = true) :
    ∀ c ∈ cs, isInline c = true := by
  rw [List.span_eq_takeWhile_dropWhile] at h
  intro c hc
  rw [← List.takeWhile_append_dropWhile (p := Char.isDigit) (l := cs)] at hc
  rcases List.mem_append.mp hc with hdigit | hrest
  · exact isInline_of_isDigit (List.all_eq_true.mp (List.all_takeWhile ..) c hdigit)
  · exact h c hrest

/-- An exponent that is read to its end is in one line. -/
theorem inline_of_exponent {rest : List Char} (h : (match rest with
      | c :: rest =>
        if c = 'e' || c = 'E' then
          let rest := match rest with
            | '+' :: rest => rest
            | '-' :: rest => rest
            | rest => rest
          let (exponent, rest) := rest.span Char.isDigit
          (!exponent.isEmpty, rest)
        else (true, c :: rest)
      | [] => (true, [])).2.isEmpty = true) : ∀ c ∈ rest, isInline c = true := by
  -- What is left after the digits is an exponent or nothing.
  cases rest with
  | nil => exact fun _ hc => nomatch hc
  | cons c rest =>
    dsimp only at h
    split at h
    · rename_i he
      refine List.forall_mem_cons.mpr ⟨?_, ?_⟩
      · rw [Bool.or_eq_true, decide_eq_true_eq, decide_eq_true_eq] at he
        -- The letter itself, and then the digits after an optional sign.
        rcases he with rfl | rfl <;> rfl
      · have hdigits : ∀ digits : List Char, (digits.span Char.isDigit).2.isEmpty = true →
            ∀ c ∈ digits, isInline c = true := by
          intro digits hend
          apply inline_of_span
          rw [List.isEmpty_iff.mp hend]
          exact fun _ hc => nomatch hc
        split at h
        · exact List.forall_mem_cons.mpr ⟨rfl, hdigits _ h⟩
        · exact List.forall_mem_cons.mpr ⟨rfl, hdigits _ h⟩
        · exact hdigits _ h
    · cases h

/-- The digits of a number are on one line. -/
theorem inline_of_validFloatDigits {text : List Char} (h : validFloatDigits text = true) :
    ∀ c ∈ text, isInline c = true := by
  apply inline_of_span
  unfold validFloatDigits at h
  generalize text.span Char.isDigit = first at h ⊢
  obtain ⟨integer, rest⟩ := first
  dsimp only at h ⊢
  split at h
  · cases h
  · rw [Bool.and_eq_true] at h
    have hexponent := inline_of_exponent h.2
    split at hexponent
    · exact List.forall_mem_cons.mpr ⟨rfl, inline_of_span hexponent⟩
    · exact hexponent

/-- A number is on one line. -/
theorem inline_of_validFloat {text : String} (h : validFloat text = true) : Inline text := by
  unfold validFloat at h
  dsimp only at h
  split at h
  · cases h
  · rw [Bool.and_eq_true] at h
    have hdigits := inline_of_validFloatDigits h.1
    unfold Inline
    split at hdigits
    · rename_i digits htext
      rw [htext]
      exact List.forall_mem_cons.mpr ⟨rfl, hdigits⟩
    · exact hdigits

/-- A valid number is one that the standard library parses. -/
theorem isSome_of_validFloat {text : String} (h : validFloat text = true) :
    (parseF64 text.toList).isSome = true := by
  unfold validFloat at h
  dsimp only at h
  split at h
  · cases h
  · rename_i hvalid
    rw [Bool.or_eq_true, not_or] at hvalid
    simpa [Option.isSome_iff_ne_none] using hvalid.2

/-! ## The file of an export -/

/-- The file with some rows of readings. -/
def readingsFile (rows : List (List String)) : ByteArray :=
  (String.ofList (encodeRecords (readingsSchema.columns.map TabularColumn.name :: rows))).toUTF8

namespace Formats

variable {Number : Type} (formats : Formats Number)

/-- The text of a number of an export. -/
def numberText (text : String) : String := (formats.fromF64 (formats.parse text)).getD ""

/-- The texts of a row of an export. -/
def exportTexts (reading : Reading) : List String :=
  [formats.toChar reading.measuredAt, formats.numberText reading.pm25,
    formats.numberText reading.no2,
    formats.numberText reading.ozone]

variable {formats} {env : Environment}

/-- The cells of an exported reading are its texts. -/
theorem cellTexts_exportRow (reading : Reading) :
    cellTexts readingsSchema (formats.exportRow reading) = formats.exportTexts reading := by
  have hnumber : ∀ text, cellText (formats.floatToJson (formats.parse text)) =
      formats.numberText text := by
    intro text
    unfold floatToJson numberText
    cases formats.fromF64 (formats.parse text) <;> rfl
  unfold exportTexts
  rw [← hnumber, ← hnumber, ← hnumber]
  rfl

/-- A number is printed as a JSON number. -/
theorem floatToJson_eq (hnumbers : formats.PrintsNumbers) {text : String}
    (h : validFloat text = true) :
    formats.floatToJson (formats.parse text) = .number (formats.numberText text) := by
  obtain ⟨printed, hprinted, -⟩ := hnumbers text h
  simp [floatToJson, numberText, hprinted]

/-- A printed number is a number. -/
theorem validFloat_numberText (hnumbers : formats.PrintsNumbers) {text : String}
    (h : validFloat text = true) :
    validFloat (formats.numberText text) = true := by
  obtain ⟨printed, hprinted, hvalid, -⟩ := hnumbers text h
  rw [numberText, hprinted]
  exact hvalid

/-- A printed number parses as the number. -/
theorem parse_numberText (hnumbers : formats.PrintsNumbers) {text : String}
    (h : validFloat text = true) :
    formats.parse (formats.numberText text) = formats.parse text := by
  obtain ⟨printed, hprinted, -, hparse⟩ := hnumbers text h
  rw [numberText, hprinted]
  exact hparse

/-- The writer takes a row whose time is valid. -/
theorem rowValues_exportRow (hnumbers : formats.PrintsNumbers) {reading : Reading}
    (h : reading.IsNumeric) :
    rowValues (formats.parsers env) readingsSchema (formats.exportRow reading) =
        .ok (formats.exportTexts reading) ↔
      validValue (formats.parsers env) .timestamp (formats.toChar reading.measuredAt) = true := by
  -- The numbers are printed validly, so only the timestamp can be refused.
  have hvalid : validateValues (formats.parsers env)
    (formats.exportTexts reading) readingsSchema = .ok () ↔
      validValue (formats.parsers env) .timestamp (formats.toChar reading.measuredAt) = true := by
    unfold exportTexts
    simp [validateValues_readings_iff, validFloat_numberText hnumbers h.pm25,
      validFloat_numberText hnumbers h.no2, validFloat_numberText hnumbers h.ozone]
  rw [← hvalid]
  constructor
  · exact fun hvalues => (rowValues_eq hvalues).2.2
  · intro hvalues
    unfold exportRow
    rw [floatToJson_eq hnumbers h.pm25, floatToJson_eq hnumbers h.no2,
      floatToJson_eq hnumbers h.ozone]
    show (validateValues (formats.parsers env)
        (formats.exportTexts reading) readingsSchema >>= fun _ =>
      pure (formats.exportTexts reading)) = _
    rw [hvalues]
    rfl

/-- The file of an export. -/
theorem readingsCsv_eq_some_iff (hnumbers : formats.PrintsNumbers) {exported : List Reading}
    {csv : ByteArray} (h : ∀ reading ∈ exported, reading.IsNumeric) :
    formats.readingsCsv env exported = some csv ↔ exported.length ≤ ({} : ImportLimits).maxRows ∧
      (∀ reading ∈ exported,
        validValue (formats.parsers env) .timestamp (formats.toChar reading.measuredAt) = true) ∧
        readingsFile (exported.map formats.exportTexts) = csv := by
  -- The export drops the error, and so only says that the file was written.
  have hok : formats.readingsCsv env exported = some csv ↔
      writeTabularCsv (formats.parsers env) readingsSchema (exported.map formats.exportRow) =
          .ok csv := by
    unfold readingsCsv
    cases writeTabularCsv (formats.parsers env) readingsSchema (exported.map formats.exportRow) with
    | error error => simp [Except.toOption]
    | ok bytes => simp [Except.toOption]
  rw [hok, writeTabularCsv_eq_ok_iff, List.length_map, List.forall_mem_map, List.map_map]
  have hcells : cellTexts readingsSchema ∘ formats.exportRow = formats.exportTexts :=
    funext cellTexts_exportRow
  -- A row can be written when its timestamp can.
  have hrows : (∀ reading ∈ exported,
    rowValues (formats.parsers env) readingsSchema (formats.exportRow reading) =
      .ok (cellTexts readingsSchema (formats.exportRow reading))) ↔ ∀ reading ∈ exported,
        validValue (formats.parsers env) .timestamp (formats.toChar reading.measuredAt) = true := by
    refine forall₂_congr fun reading hreading => ?_
    rw [cellTexts_exportRow, rowValues_exportRow hnumbers (h reading hreading)]
  rw [hrows, hcells]
  exact and_iff_right rfl

/-- The text of a time is in one line. -/
theorem WritesTime.inline {time : Int} (h : formats.WritesTime env time) :
    Inline (formats.toChar time) := by
  intro c hc
  rcases h.chars c hc with hdigit | hmem
  · exact isInline_of_isDigit hdigit
  · exact List.all_eq_true.mp (show ['-', ':', 'T', 'Z'].all isInline = true by decide) c hmem

/-- A time that its text tells is valid. -/
theorem WritesTime.valid {time : Int} (h : formats.WritesTime env time) (htold : IsTold time) :
    validValue (formats.parsers env) .timestamp (formats.toChar time) = true := by
  simp [validValue, parsers, h.last, h.read htold, Except.isOk, Except.toBool]

/-- A file of valid rows is decoded to them. -/
theorem decodeReadings_readingsFile {rows : List (List String)}
    (hrows : ∀ row ∈ rows, IsReadingsRow (formats.parsers env) row)
    (hinline : ∀ row ∈ rows, ∀ value ∈ row, Inline value)
    (hlength : rows.length ≤ ({} : ImportLimits).maxRows) :
    formats.decodeReadings env (readingsFile rows) = .ok rows := by
  have hportable : CsvPortable readingsSchema rows := ⟨by decide, hinline, by decide⟩
  rw [decodeReadings, decodeTabularCsv_eq_parseCsv rfl]
  exact parseCsv_written (by decide) (fun row hrow => (hrows row hrow).1)
    (fun row hrow => (hrows row hrow).2) hlength
    ((noBom_written_iff rfl (by decide)).mpr hportable.bom) hportable

/-- The file of an export is decoded to the texts of its rows. -/
theorem decodeReadings_exported (hnumbers : formats.PrintsNumbers) {exported : List Reading}
    (h : ∀ reading ∈ exported, reading.IsNumeric)
    (htimes : ∀ reading ∈ exported, formats.WritesTime env reading.measuredAt)
    (hlength : exported.length ≤ ({} : ImportLimits).maxRows)
    (hvalid : ∀ reading ∈ exported,
      validValue (formats.parsers env) .timestamp (formats.toChar reading.measuredAt) = true) :
    formats.decodeReadings env (readingsFile (exported.map formats.exportTexts)) =
      .ok (exported.map formats.exportTexts) := by
  refine decodeReadings_readingsFile (List.forall_mem_map.mpr fun reading hreading => ?_)
    (List.forall_mem_map.mpr fun reading hreading => ?_) (by simpa using hlength)
  · have hvalues :=
      (rowValues_exportRow hnumbers (h reading hreading)).mpr (hvalid reading hreading)
    exact ⟨rfl, (rowValues_eq hvalues).2.2⟩
  · have hnumber : ∀ text, validFloat text = true → Inline (formats.numberText text) :=
      fun text htext => inline_of_validFloat (validFloat_numberText hnumbers htext)
    have hnumeric := h reading hreading
    simp only [exportTexts, List.forall_mem_cons]
    exact ⟨(htimes reading hreading).inline, hnumber _ hnumeric.pm25, hnumber _ hnumeric.no2,
      hnumber _ hnumeric.ozone, List.forall_mem_nil _⟩

/-- What an import reads of a row of an export whose time is told. -/
theorem readRow_exportTexts (hnumbers : formats.PrintsNumbers) {reading : Reading}
    (h : reading.IsNumeric)
    (htime : formats.WritesTime env reading.measuredAt) (htold : IsTold reading.measuredAt) :
    readRow env (formats.exportTexts reading) =
      .ok (reading.measuredAt, formats.numberText reading.pm25,
      formats.numberText reading.no2, formats.numberText reading.ozone) :=
  readRow_eq_ok_iff.mpr ⟨_, htime.read htold,
    isSome_of_validFloat (validFloat_numberText hnumbers h.pm25),
    isSome_of_validFloat (validFloat_numberText hnumbers h.no2),
    isSome_of_validFloat (validFloat_numberText hnumbers h.ozone), rfl⟩

end Formats

namespace System

variable {Number : Type} {env : Environment} {formats : Formats Number} {s t : System}

/-- The rows of a station that only one call has imported are those of its request. -/
theorem Kept.station_values {index : Nat} {call : Call} {receipt : Json}
    {values : List (Int × String × String × String)}
    (ht : Kept env t) (hcall : t.calls[index]? = some call)
    (hphase : call.phase = .returned receipt false)
    (hvalues : call.request.rows.mapM (readRow env) = .ok values)
    (honly : ∀ reading ∈ t.readings, reading.stationId = call.request.stationId →
      reading.call = some index) :
    (t.readings.filter fun reading => reading.stationId = call.request.stationId).map
      Reading.values = values := by
  obtain ⟨-, hrows⟩ := (ht.calls index call hcall).returned receipt hphase
  have himported : t.imported index =
      t.readings.filter fun reading => reading.stationId = call.request.stationId := by
    refine List.filter_congr fun reading hreading => ?_
    by_cases hcalled : reading.call = some index
    · have hstation :=
        hrows.station reading (List.mem_filter.mpr ⟨hreading, by simpa using hcalled⟩)
      simp [hcalled, hstation]
    · have hstation : reading.stationId ≠ call.request.stationId :=
        fun heq => hcalled (honly reading hreading heq)
      simp [hcalled, hstation]
  rw [← himported]
  exact Except.ok.inj (hrows.values.symm.trans hvalues)

/-- Every time of an export that comes back is told by its text. -/
theorem Restores.told {exported : List Reading} {csv : ByteArray} {rows : List (List String)}
    (h : Restores env formats s exported csv rows) (hnumbers : formats.PrintsNumbers)
    (hnumeric : ∀ reading ∈ exported, reading.IsNumeric)
    (htimes : ∀ reading ∈ exported, formats.WritesTime env reading.measuredAt) :
    ∀ reading ∈ exported, IsTold reading.measuredAt := by
  obtain ⟨hlength, hvalid, rfl⟩ := (Formats.readingsCsv_eq_some_iff hnumbers hnumeric).mp h.written
  have hdecoded := Formats.decodeReadings_exported hnumbers hnumeric htimes hlength hvalid
  obtain rfl := Except.ok.inj (h.decoded.symm.trans hdecoded)
  obtain ⟨values, hread, hperm⟩ := h.read
  intro reading hreading
  -- The values of the row are those of some row that was read, and its time was read from a text.
  obtain ⟨value, hvalue, heq⟩ := List.mem_map.mp
    (hperm.mem_iff.mpr
      (List.mem_map_of_mem (f := fun reading => formats.values reading.values) hreading))
  obtain ⟨row, hrow, hvalue⟩ := exists_of_mem_mapM hread hvalue
  obtain ⟨other, hother, rfl⟩ := List.mem_map.mp hrow
  obtain ⟨time, htime, -, -, -, rfl⟩ := readRow_eq_ok_iff.mp hvalue
  have htold := (htimes other hother).told time htime
  rwa [show time = reading.measuredAt from congrArg Prod.fst heq] at htold

/-- An export whose times are told comes back. -/
theorem restores_of_told {exported : List Reading} (hs : Kept env s)
    (hnumbers : formats.PrintsNumbers) (hnumeric : ∀ reading ∈ exported, reading.IsNumeric)
    (htimes : ∀ reading ∈ exported, formats.WritesTime env reading.measuredAt)
    (hlength : exported.length ≤ ({} : ImportLimits).maxRows)
    (htold : ∀ reading ∈ exported, IsTold reading.measuredAt) :
    Restores env formats s exported (readingsFile (exported.map formats.exportTexts))
      (exported.map formats.exportTexts) := by
  have hvalid : ∀ reading ∈ exported,
      validValue (formats.parsers env) .timestamp (formats.toChar reading.measuredAt) = true :=
    fun reading hreading => (htimes reading hreading).valid (htold reading hreading)
  -- Reading an exported row gives the row's own values.
  have hread : (exported.map formats.exportTexts).mapM (readRow env) =
      .ok (exported.map fun reading => (reading.measuredAt, formats.numberText reading.pm25,
        formats.numberText reading.no2, formats.numberText reading.ozone)) := by
    rw [List.mapM_map]
    exact mapM_ok_map fun reading hreading =>
      Formats.readRow_exportTexts hnumbers (hnumeric reading hreading)
      (htimes reading hreading) (htold reading hreading)
  -- Parsing a printed number gives the number again.
  have hvalues : (exported.map fun reading => (reading.measuredAt, formats.numberText reading.pm25,
      formats.numberText reading.no2, formats.numberText reading.ozone)).map formats.values =
        formats.allValues exported := by
    rw [List.map_map]
    refine List.map_congr_left fun reading hreading => ?_
    obtain ⟨hpm25, hno2, hozone⟩ := hnumeric reading hreading
    simp [Formats.values, Reading.values, Formats.parse_numberText hnumbers hpm25,
      Formats.parse_numberText hnumbers hno2, Formats.parse_numberText hnumbers hozone]
  refine ⟨(Formats.readingsCsv_eq_some_iff hnumbers hnumeric).mpr ⟨hlength, hvalid, rfl⟩,
    Formats.decodeReadings_exported hnumbers hnumeric htimes hlength hvalid,
      ⟨_, hread, .of_eq hvalues⟩, ?_⟩
  intro actions t index call receipt hfresh ht hcall hphase hrows honly
  -- An import of the file later on inserts these rows, which is where its readings come from.
  have hkept : Kept env t :=
    run_invariant (fun _ _ _ hu hguard hstep => hu.step hguard hstep) hfresh hs ht
  rw [← hrows] at hread
  have hstation := hkept.station_values hcall hphase hread honly
  refine .of_eq ?_
  rw [← hvalues, ← hstation, List.map_map]
  rfl

/-- What a run of imports keeps. -/
theorem kept_of_run {seeded : List Reading} {actions : List Action}
    (hseeded : ∀ reading ∈ seeded, reading.IsNumeric)
    (hguard : Guarded (System.step env) (Decoded env formats) (start seeded) actions)
    (hs : run (System.step env) (start seeded) actions = some s) :
    Kept env s ∧ Numeric (formats.parsers env) s :=
  run_invariant (I := fun s => Kept env s ∧ Numeric (formats.parsers env) s)
    (fun _ _ _ ⟨hkept, hnumeric⟩ ha hstep => ⟨hkept.step ha.1 hstep, hnumeric.step ha hstep⟩) hguard
    ⟨kept_start seeded, numeric_start hseeded⟩ hs

/-- The export of a station comes back just when it is not too long and each of its times is a whole
second of the years 1 to 9999. -/
theorem restores_iff (env : Environment) (formats : Formats Number) (seeded : List Reading)
    (actions : List Action)
    (s : System) (station : Uuid) (exported : List Reading) (hnumbers : formats.PrintsNumbers)
    (htimes : ∀ reading ∈ s.readings, formats.WritesTime env reading.measuredAt)
    (hseeded : ∀ reading ∈ seeded, reading.IsNumeric)
    (hguard : Guarded (System.step env) (Decoded env formats) (start seeded) actions)
    (hs : run (System.step env) (start seeded) actions = some s)
    (hexport : Exports s.readings station exported) :
    (∃ csv rows, Restores env formats s exported csv rows) ↔
      (s.readings.filter fun reading => reading.stationId = station).length ≤ 5000000 ∧
        ∀ reading ∈ s.readings, reading.stationId = station → IsTold reading.measuredAt := by
  obtain ⟨hkept, hnumeric⟩ := kept_of_run hseeded hguard hs
  -- The export has the readings of the station, in some order.
  have hmem : ∀ reading, reading ∈ exported ↔ reading ∈ s.readings ∧
      reading.stationId = station := by
    intro reading
    rw [hexport.perm.mem_iff, List.mem_filter, decide_eq_true_eq]
  have hnumbersOf : ∀ reading ∈ exported, reading.IsNumeric :=
    fun reading hreading => hnumeric.readings reading ((hmem reading).mp hreading).1
  have htimesOf : ∀ reading ∈ exported, formats.WritesTime env reading.measuredAt :=
    fun reading hreading => htimes reading ((hmem reading).mp hreading).1
  -- If something restores the export, it was written whole and its times were told.
  constructor
  · rintro ⟨csv, rows, h⟩
    refine ⟨?_, fun reading hreading hstation =>
      h.told hnumbers hnumbersOf htimesOf reading ((hmem reading).mpr ⟨hreading, hstation⟩)⟩
    rw [← hexport.perm.length_eq]
    exact ((Formats.readingsCsv_eq_some_iff hnumbers hnumbersOf).mp h.written).1
  · rintro ⟨hlength, htold⟩
    rw [← hexport.perm.length_eq] at hlength
    exact ⟨_, _, restores_of_told hkept hnumbers hnumbersOf htimesOf hlength fun reading hreading =>
      htold reading ((hmem reading).mp hreading).1 ((hmem reading).mp hreading).2⟩

/-! ## Imports of whole and of half seconds -/

/-- A run whose calls come from decoded files, by the requests of its calls. -/
theorem guarded_decoded : ∀ {actions : List Action} {s : System},
    Guarded (System.step env) FreshIds s actions →
      (∀ request, .call request ∈ actions →
        ∃ csv, formats.decodeReadings env csv = .ok request.rows) →
        Guarded (System.step env) (Decoded env formats) s actions
  | [], _, _, _ => trivial
  | _ :: _, _, ⟨hfresh, hrest⟩, hdecoded =>
    ⟨⟨hfresh, fun request hrequest => hdecoded request (hrequest ▸ List.mem_cons_self)⟩, fun t ht =>
      guarded_decoded (hrest t ht) fun request hrequest =>
        hdecoded request (List.mem_cons_of_mem _ hrequest)⟩

/-- An environment that reads three times, half a second apart. -/
def halfSeconds : Environment where
  parseRfc3339 text :=
    if text = "2026-01-01T00:00:00Z" then .ok 1767225600000000
    else if text = "2026-01-01T00:00:00.5Z" then .ok 1767225600500000
    else if text = "2026-01-01T00:00:01Z" then .ok 1767225601000000
    else .error "input contains invalid characters"
  jsonb document := document

/-- Numbers by their texts, and the texts of two seconds. -/
def plainFormats : Formats String where
  toChar time :=
    if time / 1000000 = 1767225600 then "2026-01-01T00:00:00Z"
    else if time / 1000000 = 1767225601 then "2026-01-01T00:00:01Z"
    else ""
  parse text := text
  fromF64 text := if validFloat text then some text else none
  isUuid _ := false

/-- Numbers are printed as their texts. -/
theorem plainFormats_printsNumbers : plainFormats.PrintsNumbers := by
  intro text htext
  exact ⟨text, if_pos htext, htext, rfl⟩

/-- A time is written as documented when its text is of the pattern and reads as the time that it
tells. -/
theorem plainFormats_writesTime {time told : Int} {text : String}
    (htext : plainFormats.toChar time = text)
    (hchars : text.toList.all (fun c => c.isDigit || ['-', ':', 'T', 'Z'].contains c) = true)
    (hlast : text.toList.getLast? = some 'Z') (hread : halfSeconds.parseRfc3339 text = .ok told)
    (htold : IsTold told) (heq : IsTold time → time = told) :
    plainFormats.WritesTime halfSeconds time := by
  subst htext
  refine ⟨fun c hc => ?_, hlast, fun h => ?_, fun other hother => ?_⟩
  · have hc := List.all_eq_true.mp hchars c hc
    rwa [Bool.or_eq_true, List.contains_iff_mem] at hc
  · rw [hread, heq h]
  · rw [hread] at hother
    cases hother
    exact htold

/-- An import of one row for each time. -/
def importOf (times : List String) : ImportCommit :=
  { oneRow with rows := times.map fun measuredAt => [measuredAt, "8.5", "14.5", "31.25"] }

/-- A call that imports its rows under these identifiers. -/
def importingRows (request : ImportCommit) (ids : List Uuid) : List Action :=
  [.call request, .connect 0 .connected, .lookup 0 none, .prepare 0 none] ++
    ids.map (fun id => .insertRow 0 id none) ++ [.insertReceipt 0 11 none, .commit 0 .answered]

/-- The reading of a row of the import. -/
def readingOf (id : Uuid) (time : Int) : Reading :=
  { readingId := id, stationId := 2, measuredAt := time, pm25 := "8.5", no2 := "14.5",
    ozone := "31.25"
    call := some 0 }

/-- The measurements of the rows are numbers. -/
theorem readingOf_isNumeric (id : Uuid) (time : Int) : (readingOf id time).IsNumeric where
  pm25 := show validFloat "8.5" = true by decide +kernel
  no2 := show validFloat "14.5" = true by decide +kernel
  ozone := show validFloat "31.25" = true by decide +kernel

/-- The calls of a run with one import are those of its file. -/
theorem decoded_importOf {times : List String} (hinline : ∀ measuredAt ∈ times, Inline measuredAt)
    (hvalid : ∀ measuredAt ∈ times,
      validValue (plainFormats.parsers halfSeconds) .timestamp measuredAt = true)
    (hlength : times.length ≤ 5000000) {ids : List Uuid} {request : ImportCommit}
    (h : .call request ∈ importingRows (importOf times) ids) :
    ∃ csv, plainFormats.decodeReadings halfSeconds csv = .ok request.rows := by
  obtain rfl : request = importOf times := by simpa [importingRows] using h
  refine ⟨_,
    Formats.decodeReadings_readingsFile (List.forall_mem_map.mpr fun measuredAt hmem => ⟨rfl, ?_⟩)
    (List.forall_mem_map.mpr fun measuredAt hmem => ?_) (by simpa [importOf] using hlength)⟩
  · have hnumeric := readingOf_isNumeric 0 0
    exact validateValues_readings_iff.mpr
      ⟨hvalid measuredAt hmem, hnumeric.pm25, hnumeric.no2, hnumeric.ozone⟩
  · simp only [List.forall_mem_cons]
    exact ⟨hinline measuredAt hmem, by decide, by decide, by decide, List.forall_mem_nil _⟩

/-- Two readings at whole seconds, imported with the later one first, come back. -/
theorem restores_wholeSeconds :
    ∃ s, run (System.step halfSeconds) (start [])
        (importingRows (importOf ["2026-01-01T00:00:01Z", "2026-01-01T00:00:00Z"]) [10, 12]) =
          some s ∧
      s.readings = [readingOf 10 1767225601000000, readingOf 12 1767225600000000] ∧
        ∃ csv rows, Restores halfSeconds plainFormats s
          [readingOf 12 1767225600000000, readingOf 10 1767225601000000] csv rows := by
  refine ⟨_, rfl, rfl, (restores_iff halfSeconds plainFormats []
    (importingRows (importOf ["2026-01-01T00:00:01Z", "2026-01-01T00:00:00Z"]) [10, 12]) _ 2
    [readingOf 12 1767225600000000, readingOf 10 1767225601000000] plainFormats_printsNumbers ?_
    (fun _ h => nomatch h) ?_ rfl ⟨.swap _ _ _, ?_⟩).mpr ⟨by decide, ?_⟩⟩
  · exact List.forall_mem_cons.mpr
      ⟨plainFormats_writesTime rfl (by decide) (by decide) rfl (by decide) fun _ => rfl,
        List.forall_mem_singleton.mpr
          (plainFormats_writesTime rfl (by decide) (by decide) rfl (by decide) fun _ => rfl)⟩
  · exact guarded_decoded (by decide) fun _ => decoded_importOf (by decide) (by decide) (by decide)
  · exact List.pairwise_pair.mpr (by decide)
  · exact List.forall_mem_cons.mpr
      ⟨fun _ => by decide, List.forall_mem_singleton.mpr fun _ => by decide⟩

/-- A reading at half a second does not come back, although numbers and times are written as
documented. -/
theorem not_restores_halfSecond :
    plainFormats.PrintsNumbers ∧ plainFormats.WritesTime halfSeconds 1767225600500000 ∧
      Guarded (System.step halfSeconds) (Decoded halfSeconds plainFormats) (start [])
        (importingRows (importOf ["2026-01-01T00:00:00.5Z"]) [10]) ∧
      ∃ s, run (System.step halfSeconds) (start [])
          (importingRows (importOf ["2026-01-01T00:00:00.5Z"]) [10]) = some s ∧
        Exports s.readings 2 [readingOf 10 1767225600500000] ∧
          ¬ ∃ csv rows, Restores halfSeconds plainFormats s [readingOf 10 1767225600500000]
            csv rows := by
  have htime : plainFormats.WritesTime halfSeconds 1767225600500000 :=
    plainFormats_writesTime rfl (by decide) (by decide) rfl (by decide) fun h =>
      absurd h (by decide)
  refine ⟨plainFormats_printsNumbers, htime,
    guarded_decoded (by decide) fun _ =>
      decoded_importOf (by decide) (by decide) (by decide), _, rfl,
    ⟨.refl _, List.pairwise_singleton _ _⟩, ?_⟩
  rintro ⟨csv, rows, h⟩
  have htold := h.told plainFormats_printsNumbers
    (List.forall_mem_singleton.mpr (readingOf_isNumeric _ _)) (List.forall_mem_singleton.mpr htime)
  exact absurd (htold _ List.mem_cons_self) (by decide)

end System

end QueryFabric.Demo
