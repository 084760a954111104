import QueryFabric.Lib.Json
import QueryFabric.Text
import Mathlib.Algebra.Group.Nat.Defs
import Mathlib.Algebra.Ring.Int.Defs
import Mathlib.Data.List.Basic

/-!
# The tabular CSV profile

The profile `queryfabric.tabular-csv/1` of `crates/queryfabric-portability/src/import.rs`: the typed
schema and its check, the lexical rules of the values, the writer and the parser.

The parser reads the characters of the text one by one, with a look at the next one for doubled
quotes and for the line feed after a carriage return. Whether a text is a UUID or an RFC 3339
timestamp is decided by other crates, and is a parameter here.
-/

namespace QueryFabric.Portability

open Lib.Json

/-- The limits of `ImportLimits` that the profile uses. -/
structure ImportLimits where
  maxRows : Nat := 5000000
  maxColumns : Nat := 128
deriving DecidableEq, Repr

/-- The errors of `ImportError` that the profile reports. -/
inductive ImportError
  | invalidProfile (message : String)
  | invalidCsv (message : String)
deriving DecidableEq, Repr

/-- `TabularColumnType`. -/
inductive TabularColumnType
  | boolean
  | int64
  | float64
  | string
  | uuid
  | timestamp
deriving DecidableEq, Repr

/-- `TabularColumnType::column_type_name`. -/
def TabularColumnType.columnTypeName : TabularColumnType → String
  | boolean => "Boolean"
  | int64 => "Int64"
  | float64 => "Float64"
  | string => "String"
  | uuid => "Uuid"
  | timestamp => "Timestamp"

/-- `TabularColumn`. -/
structure TabularColumn where
  name : String
  columnType : TabularColumnType
deriving DecidableEq, Repr

/-- `TabularSchema`. -/
structure TabularSchema where
  profile : String
  columns : List TabularColumn
deriving DecidableEq, Repr

/-- `TABULAR_CSV_PROFILE`. -/
def tabularCsvProfile : String := "queryfabric.tabular-csv/1"

/-- `validate_schema`. -/
def validateSchema (schema : TabularSchema) (maxColumns : Nat) : Except ImportError Unit :=
  if schema.profile ≠ tabularCsvProfile || schema.columns.isEmpty then
    .error (.invalidProfile "profile must be queryfabric.tabular-csv/1 with at least one column")
  else if schema.columns.length > maxColumns then .error (.invalidProfile "too many columns")
  else
    if schema.columns.any (fun column => column.name.isEmpty || column.name.utf8ByteSize > 256) ||
      ¬ (schema.columns.map TabularColumn.name).Nodup then
    .error (.invalidProfile "column names must be unique and bounded UTF-8")
  else .ok ()

/-! ## Values -/

/-- What other crates recognise. -/
structure ValueParsers where
  isUuid : String → Bool
  isRfc3339 : String → Bool

/-- The value of a run of decimal digits. -/
def digitsValue (digits : List Char) : Nat :=
  digits.foldl (fun value c => 10 * value + (c.toNat - '0'.toNat)) 0

/-- `str::parse::<i64>`. -/
def parseI64 (text : List Char) : Option Int :=
  let (negative, digits) : Bool × List Char := match text with
    | '-' :: digits => (true, digits)
    | '+' :: digits => (false, digits)
    | digits => (false, digits)
  if digits.isEmpty || ¬ digits.all Char.isDigit then none
  else
    let value : Int := if negative then -digitsValue digits else digitsValue digits
    if -2 ^ 63 ≤ value ∧ value < 2 ^ 63 then some value else none

/-- What `str::parse::<f64>` makes of a text, as far as it matters here. -/
inductive ParsedFloat
  | nan
  | infinite
  | finite
deriving DecidableEq, Repr

/-- Whether `mantissa * 10 ^ exponent` rounds to a finite number: the midpoint above the largest one
is `2 ^ 1024 - 2 ^ 970`, and it rounds to infinity. -/
def isFiniteFloat (mantissa : Nat) (exponent : Int) : Bool :=
  if 0 ≤ exponent then mantissa * 10 ^ exponent.toNat < 2 ^ 1024 - 2 ^ 970
  else mantissa < (2 ^ 1024 - 2 ^ 970) * 10 ^ (-exponent).toNat

/-- `str::parse::<f64>`: a sign, and then a number or the name of a special value. -/
def parseF64 (text : List Char) : Option ParsedFloat :=
  let text : List Char := match text with
    | '-' :: text => text
    | '+' :: text => text
    | text => text
  let word := toAsciiLowercase (String.ofList text)
  -- The words are compared without regard to case.
  if word = "nan" then some .nan
  else if word = "inf" || word = "infinity" then some .infinite
  else
    let (digits, rest) := text.span Char.isDigit
    let (fraction, rest) := match rest with
      | '.' :: rest => rest.span Char.isDigit
      | rest => ([], rest)
    -- What follows the digits is an exponent or an error.
    let exponent : Option Int := match rest with
      | [] => some 0
      | c :: rest =>
        if c = 'e' || c = 'E' then
          let (negative, power) : Bool × List Char := match rest with
            | '-' :: power => (true, power)
            | '+' :: power => (false, power)
            | power => (false, power)
          if power.isEmpty || ¬ power.all Char.isDigit then none
          else some (if negative then -digitsValue power else digitsValue power)
        else none
    -- The digits may be missing on one side of the point.
    if digits.isEmpty && fraction.isEmpty then none
    else exponent.map fun exponent =>
      if isFiniteFloat (digitsValue (digits ++ fraction)) (exponent - fraction.length) then .finite
      else .infinite

/-- `valid_integer`. -/
def validInteger (value : String) : Bool :=
  let text := value.toList
  if text.isEmpty || text.head? = some '+' || (parseI64 text).isNone then false
  else
    let digits := match text with
      | '-' :: digits => digits
      | digits => digits
    (digits = ['0'] || digits.head? ≠ some '0') && digits.all Char.isDigit

/-- The grammar that `valid_float` checks after the sign: an integer part without leading zeros, and
optionally a fraction and an exponent. -/
def validFloatDigits (text : List Char) : Bool :=
  let (integer, rest) := text.span Char.isDigit
  if integer.isEmpty || (integer.length > 1 && integer.head? = some '0') then false
  else
    let (fractionOk, rest) := match rest with
      | '.' :: rest => let (fraction, rest) := rest.span Char.isDigit; (!fraction.isEmpty, rest)
      | rest => (true, rest)
    let (exponentOk, rest) := match rest with
      | c :: rest =>
        if c = 'e' || c = 'E' then
          let rest := match rest with
            | '+' :: rest => rest
            | '-' :: rest => rest
            | rest => rest
          let (exponent, rest) := rest.span Char.isDigit
          (!exponent.isEmpty, rest)
        else (true, c :: rest)
      | [] => (true, [])
    fractionOk && exponentOk && rest.isEmpty

/-- `valid_float`. -/
def validFloat (value : String) : Bool :=
  let text := value.toList
  if text.isEmpty || text.head? = some '+' || (parseF64 text).isNone then false
  else
    let digits := match text with
      | '-' :: digits => digits
      | digits => digits
    validFloatDigits digits && parseF64 text = some .finite

/-- Whether a value obeys the lexical rules of a column type. -/
def validValue (parsers : ValueParsers) (columnType : TabularColumnType) (value : String) : Bool :=
  match columnType with
  | .boolean => value = "true" || value = "false"
  | .int64 => validInteger value
  | .float64 => validFloat value
  | .string => true
  | .uuid => parsers.isUuid value && value = toAsciiLowercase value
  | .timestamp => value.toList.getLast? = some 'Z' && parsers.isRfc3339 value

/-- `validate_values`. -/
def validateValues (parsers : ValueParsers) (row : List String) (schema : TabularSchema) :
    Except ImportError Unit :=
  match (row.zip schema.columns).find? fun (value, column) =>
      !validValue parsers column.columnType value with
  | some (_, column) => .error (.invalidCsv
      ("invalid " ++ column.columnType.columnTypeName ++ " value for column '" ++
        column.name ++ "'"))
  | none => .ok ()

/-! ## The writer -/

/-- `serde_json::Value`. A number is kept as the text that it is printed as. -/
abbrev Json : Type := Value String

/-- The characters for which a field is quoted. -/
def isCsvSpecial (c : Char) : Bool := c = ',' || c = '"' || c = '\r' || c = '\n'

/-- `encode_csv_field`. -/
def encodeCsvField (value : String) : List Char :=
  if value.toList.any isCsvSpecial then '"' :: (doubleQuotes '"' value.toList ++ ['"'])
  else value.toList

/-- `value_to_csv_text`. -/
def valueToCsvText (value : Json) (columnType : TabularColumnType) : Except ImportError String :=
  match value with
  | .string value => .ok value
  | .bool value =>
    if columnType = .boolean then .ok (if value then "true" else "false")
    else .error (.invalidCsv "row value type does not match schema")
  | .number text =>
    if columnType = .int64 ∨ columnType = .float64 then .ok text
    else .error (.invalidCsv "row value type does not match schema")
  | .null => .error (.invalidCsv "nulls are not allowed")
  | .array _ | .object _ => .error (.invalidCsv "row value type does not match schema")

/-- A record: its fields with commas between them, and the line end. -/
def encodeRecord (fields : List (List Char)) : List Char :=
  (fields.intersperse [',']).flatten ++ ['\r', '\n']

/-- The texts of the cells of a row, in the order of the columns. -/
def rowValues (parsers : ValueParsers) (schema : TabularSchema) (row : Json) :
    Except ImportError (List String) :=
  match row with
  | .object entries =>
    if entries.length ≠ schema.columns.length ||
        schema.columns.any (fun column => (entries.lookup column.name).isNone) ||
        entries.any (fun entry => schema.columns.all fun column => column.name ≠ entry.1) then
      .error (.invalidCsv "row fields do not exactly match schema")
    else do
      let values ← schema.columns.mapM fun column =>
        valueToCsvText ((entries.lookup column.name).getD .null) column.columnType
      validateValues parsers values schema
      return values
  | _ => .error (.invalidCsv "each row must be a JSON object")

/-- The text of the records. -/
def encodeRecords (records : List (List String)) : List Char :=
  records.flatMap fun values => encodeRecord (values.map encodeCsvField)

/-- `write_tabular_csv`. -/
def writeTabularCsv (parsers : ValueParsers) (schema : TabularSchema) (rows : List Json) :
    Except ImportError ByteArray := do
  validateSchema schema ({} : ImportLimits).maxColumns
  if rows.length > ({} : ImportLimits).maxRows then
    .error (.invalidCsv "row limit exceeded")
  else
    let values ← rows.mapM (rowValues parsers schema)
    return (String.ofList (encodeRecords (schema.columns.map TabularColumn.name :: values))).toUTF8

/-! ## The parser -/

/-- The variables of the loop of `parse_csv`. -/
structure CsvState where
  rows : List (List String) := []
  row : List String := []
  field : List Char := []
  quoted : Bool := false
  fieldStarted : Bool := false
  endedRecord : Bool := false
  headerSeen : Bool := false
deriving DecidableEq, Repr

section Parser

variable (parsers : ValueParsers) (schema : TabularSchema) (limits : ImportLimits)

/-- What a CRLF outside of quotes does. -/
def endRecord (s : CsvState) : Except ImportError CsvState :=
  let row := s.row ++ [String.ofList s.field]
  let next : CsvState :=
    { s with row := [], field := [], fieldStarted := false, endedRecord := true }
  if row.length ≠ schema.columns.length then
    .error (.invalidCsv "field count does not match schema")
  else if s.headerSeen = false then
    if row ≠ schema.columns.map TabularColumn.name then
      .error (.invalidCsv "header does not exactly match schema")
    else .ok { next with headerSeen := true }
  else do
    validateValues parsers row schema
    if (s.rows ++ [row]).length > limits.maxRows then .error (.invalidCsv "row limit exceeded")
    else return { next with rows := s.rows ++ [row] }

/-- The loop of `parse_csv`. -/
def parseChars : CsvState → List Char → Except ImportError CsvState
  | s, [] => .ok s
  | s, c :: cs =>
    -- Within quotes only a quote and a line end are special.
    if s.quoted then
      if c = '"' then
        match cs with
        | '"' :: cs => parseChars { s with field := s.field ++ ['"'] } cs
        | cs => parseChars { s with quoted := false } cs
      else if c = '\r' ∨ c = '\n' then
        .error (.invalidCsv "embedded newlines are not supported by profile 1")
      else parseChars { s with field := s.field ++ [c] } cs
    else if c = '"' then
      if s.fieldStarted then .error (.invalidCsv "quote must start a field")
      else parseChars { s with quoted := true, fieldStarted := true } cs
    else if c = ',' then
      parseChars { s with row := s.row ++ [String.ofList s.field], field := [],
                          fieldStarted := false } cs
    else if c = '\n' then .error (.invalidCsv "records must use CRLF")
    else
      match c, cs with
      -- A carriage return alone is a character of the field.
      | '\r', '\n' :: cs =>
        match endRecord parsers schema limits s with
        | .ok next => parseChars next cs
        | .error e => .error e
      | c, cs =>
        parseChars
          { s with field := s.field ++ [c], fieldStarted := true, endedRecord := false } cs

/-- The loop takes one character after the other. -/
alias parseChars_eq := parseChars.eq_def

/-- `parse_csv`. -/
def parseCsv (bytes : ByteArray) : Except ImportError (List (List String)) :=
  if bytes.data.toList.take 3 = [0xef, 0xbb, 0xbf] then
    .error (.invalidCsv "UTF-8 BOM is forbidden")
  else
    match String.fromUTF8? bytes with
    | none => .error (.invalidCsv "artifact is not UTF-8")
    | some text => do
      let s ← parseChars parsers schema limits {} text.toList
      if s.quoted || !s.endedRecord || !s.row.isEmpty || !s.field.isEmpty then
        .error (.invalidCsv "CSV must end with CRLF")
      else return s.rows

/-- `decode_tabular_csv`. -/
def decodeTabularCsv (bytes : ByteArray) : Except ImportError (List (List String)) := do
  validateSchema schema limits.maxColumns
  parseCsv parsers schema limits bytes

end Parser

end QueryFabric.Portability
