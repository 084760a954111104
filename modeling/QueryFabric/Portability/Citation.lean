import QueryFabric.Lib.Bibtex
import QueryFabric.Lib.Ris
import QueryFabric.Lib.Yaml

/-!
# Citations

`generate_citation` of `crates/queryfabric-portability/src/citation.rs` for the formats BibTeX, RIS
and CFF, and what a reader of each format gets back. The renderers paste the values of the input
between fixed texts. `faithful_iff` says which values survive this: no line breaks in RIS, no quotes
and backslashes in the quoted scalars of CFF, plain scalars where it has no quotes, and balanced
braces in BibTeX.

Nothing is read back from the format APA, and `serde_json` writes CSL-JSON: both are with the export
bundles.
-/

namespace QueryFabric.Portability

open Lib

/-- `CitationInput`. -/
structure CitationInput where
  id : String
  title : String
  publisher : String
  year : String
  url : String
  doi : Option String
  licenseSpdx : Option String
  keywords : List String
  repositoryUrl : Option String
deriving DecidableEq, Repr

/-! ## The renderers -/

/-- `bibtex`. -/
def bibtex (input : CitationInput) : String :=
  "@misc\x7b" ++ input.id ++ ",\n  title = \x7b" ++ input.title ++ "\x7d,\n  publisher = \x7b" ++
    input.publisher ++
    "\x7d,\n  year = \x7b" ++ input.year ++ "\x7d,\n  url = \x7b" ++ input.url ++ "\x7d" ++
    (match input.licenseSpdx with
      | some license => ",\n  license = \x7b" ++ license ++ "\x7d"
      | none => "") ++
    (match input.doi with
      | some doi => ",\n  doi = \x7b" ++ doi ++ "\x7d"
      | none => "") ++
    "\n\x7d"

/-- `ris`. -/
def ris (input : CitationInput) : String :=
  "TY  - DATA\nTI  - " ++ input.title ++ "\nPB  - " ++ input.publisher ++ "\nPY  - " ++
    input.year ++ "\nUR  - " ++ input.url ++
    String.join (input.keywords.map fun keyword => "\nKW  - " ++ keyword) ++
    (match input.doi with
      | some doi => "\nDO  - " ++ doi
      | none => "") ++
    "\nER  - "

/-- `cff`. -/
def cff (input : CitationInput) : String :=
  "cff-version: 1.2.0\nmessage: \"If you use this dataset, please cite it as below.\"\ntitle: \"" ++
    input.title ++ "\"\ntype: dataset\n" ++
    (match input.licenseSpdx with
      | some license => "license: " ++ license ++ "\n"
      | none => "") ++
    "url: \"" ++ input.url ++ "\"\n" ++
    (match input.repositoryUrl with
      | some repository => "repository: \"" ++ repository ++ "\"\n"
      | none => "") ++
    (if input.keywords.isEmpty then ""
      else "keywords:\n" ++ String.join
        (input.keywords.map fun keyword => "  - " ++ keyword ++ "\n")) ++
    "date-released: \"" ++ input.year ++ "-01-01\"\n" ++
    (match input.doi with
      | some doi => "identifiers:\n  - type: doi\n    value: \"" ++ doi ++ "\"\n"
      | none => "")

/-! ## RIS -/

/-- What the RIS text says. -/
def risPairs (input : CitationInput) : List (String × String) :=
  [("TY", "DATA"), ("TI", input.title), ("PB", input.publisher), ("PY", input.year),
    ("UR", input.url)] ++
    input.keywords.map (fun keyword => ("KW", keyword)) ++
      input.doi.toList.map (fun doi => ("DO", doi)) ++
    [("ER", "")]

/-- The lines of keywords, each with its line break at the end. -/
theorem join_keywords (keywords : List String) (rest : String) :
    String.join (keywords.map fun keyword => "\nKW  - " ++ keyword) ++ ("\n" ++ rest) =
      "\n" ++
        (String.join ((keywords.map fun keyword => ("KW", keyword)).map Ris.line) ++ rest) := by
  have hkeyword : "\nKW  - " = "\n" ++ ("KW" ++ "  - ") := by decide
  induction keywords with
  | nil => simp only [List.map_nil, String.join_nil, String.empty_append]
  | cons keyword keywords ih =>
    simp only [List.map_cons, String.join_cons, String.append_assoc, ih, Ris.line]
    rw [hkeyword]
    simp only [String.append_assoc]

/-- The file is made of the lines of its pairs. -/
theorem ris_eq_join (input : CitationInput) :
    ris input ++ "\n" = String.join ((risPairs input).map Ris.line) := by
  have hstart : "TY  - DATA\nTI  - " = "TY" ++
      ("  - " ++ ("DATA" ++ ("\n" ++ ("TI" ++ "  - ")))) := by decide
  have hpublisher : "\nPB  - " = "\n" ++ ("PB" ++ "  - ") := by decide
  have hyear : "\nPY  - " = "\n" ++ ("PY" ++ "  - ") := by decide
  have hurl : "\nUR  - " = "\n" ++ ("UR" ++ "  - ") := by decide
  have hdoi : "\nDO  - " = "\n" ++ ("DO" ++ "  - ") := by decide
  have hend : "\nER  - " = "\n" ++ ("ER" ++ ("  - " ++ "")) := by decide
  unfold ris risPairs
  rw [hstart, hpublisher, hyear, hurl, hend]
  cases input.doi with
  | none =>
    simp only [Option.toList_none, List.map_append, List.map_cons, List.map_nil, String.join_append,
      String.join_cons, String.join_nil, String.append_assoc, String.empty_append,
      String.append_empty, join_keywords, Ris.line]
  | some doi =>
    simp only [hdoi, Option.toList_some, List.map_append, List.map_cons, List.map_nil,
      String.join_append, String.join_cons, String.join_nil, String.append_assoc,
      String.empty_append, String.append_empty, join_keywords, Ris.line]

/-- The RIS text says what it should exactly when there is no line break in a value. -/
theorem readPairs_ris_iff (input : CitationInput) :
    Ris.readPairs (ris input).toList = some (risPairs input) ↔
    ∀ pair ∈ risPairs input, Unbroken pair.2.toList := by
  have htags : ∀ pair ∈ risPairs input, Ris.isTag pair.1 = true := by
    simp only [risPairs, List.forall_mem_append, List.forall_mem_cons, List.forall_mem_map]
    refine ⟨⟨⟨⟨?_, ?_, ?_, ?_, ?_, List.forall_mem_nil _⟩, fun _ _ => ?_⟩, fun _ _ => ?_⟩, ?_,
      List.forall_mem_nil _⟩
    all_goals decide
  -- The text has no line feed at its end, which makes no difference.
  have hend : (ris input).toList ++ ['\n'] =
      (String.join ((risPairs input).map Ris.line)).toList := by
    rw [← ris_eq_join, String.toList_append]
    rfl
  rw [← Ris.readPairs_join_iff htags, ← hend, Ris.readPairs, Ris.readPairs, textLines_concat _ rfl]

/-! ## BibTeX -/

/-- The fields of the BibTeX entry. -/
def bibtexFields (input : CitationInput) : List (String × String) :=
  [("title", input.title), ("publisher", input.publisher), ("year", input.year),
    ("url", input.url)] ++ input.licenseSpdx.toList.map (fun license => ("license", license)) ++
    input.doi.toList.map (fun doi => ("doi", doi))

/-- What the BibTeX text says. -/
def bibtexEntry (input : CitationInput) : Bibtex.Entry where
  kind := "misc"
  key := input.id
  fields := bibtexFields input

/-- The characters of the file. -/
theorem text_bibtex (input : CitationInput) : (bibtex input).toList =
    '@' :: ("misc".toList ++ '{' :: (input.id.toList ++
      ((bibtexFields input).flatMap Bibtex.fieldText ++ "\n\x7d".toList))) := by
  -- Each fixed text between two values ends a field and starts the next one.
  have hstart : "@misc\x7b".toList = '@' :: ("misc".toList ++ ['{']) := by
    repeat rw [String.toList_ofList]
    rfl
  have htitle : ",\n  title = \x7b".toList = ",\n  ".toList ++
    ("title".toList ++ " = \x7b".toList) := by
    repeat rw [String.toList_ofList]
    rfl
  have hpublisher : "\x7d,\n  publisher = \x7b".toList = '}' ::
    (",\n  ".toList ++ ("publisher".toList ++ " = \x7b".toList)) := by
    repeat rw [String.toList_ofList]
    rfl
  have hyear : "\x7d,\n  year = \x7b".toList = '}' ::
    (",\n  ".toList ++ ("year".toList ++ " = \x7b".toList)) := by
    repeat rw [String.toList_ofList]
    rfl
  have hurl : "\x7d,\n  url = \x7b".toList = '}' ::
      (",\n  ".toList ++ ("url".toList ++ " = \x7b".toList)) := by
    repeat rw [String.toList_ofList]
    rfl
  have hlicense : ",\n  license = \x7b".toList = ",\n  ".toList ++
      ("license".toList ++ " = \x7b".toList) := by
    repeat rw [String.toList_ofList]
    rfl
  have hdoi : ",\n  doi = \x7b".toList = ",\n  ".toList ++ ("doi".toList ++ " = \x7b".toList) := by
    repeat rw [String.toList_ofList]
    rfl
  have hclose : "\x7d".toList = ['}'] := rfl
  unfold bibtex bibtexFields
  simp only [String.toList_append]
  rw [hstart, htitle, hpublisher, hyear, hurl]
  -- The two optional fields are there or not.
  cases input.licenseSpdx <;> cases input.doi <;>
    simp only [hlicense, hdoi, hclose, String.toList_append, Option.toList_none, Option.toList_some,
      List.map_cons, List.map_nil, List.flatMap_cons, List.flatMap_nil, Bibtex.fieldText,
      List.append_assoc, List.cons_append, List.nil_append, List.append_nil, String.toList_empty]

/-- The BibTeX text says what it should exactly when the braces of each value are balanced and
nothing in the id ends the key. -/
theorem readEntry_bibtex_iff (input : CitationInput) :
    Bibtex.readEntry (bibtex input).toList = some (bibtexEntry input) ↔
      input.id.toList.all Bibtex.isKeyChar = true ∧
        ∀ field ∈ bibtexFields input, Bibtex.balanced 0 field.2.toList = true := by
  have hnames : ∀ field ∈ bibtexFields input, Bibtex.IsName field.1 := by
    simp only [bibtexFields, List.forall_mem_append, List.forall_mem_cons, List.forall_mem_map]
    refine ⟨⟨⟨?_, ?_, ?_, ?_, List.forall_mem_nil _⟩, fun _ _ => ?_⟩, fun _ _ => ?_⟩
    all_goals decide
  rw [text_bibtex]
  exact Bibtex.readEntry_iff (by decide) hnames

/-! ## CFF -/

open Yaml

/-- The entries for the keywords. -/
def keywordEntries : List String → Document
  | [] => []
  | first :: others => [("keywords", .sequence (.scalar (.string first)) (others.map fun keyword =>
      .scalar (.string keyword)))]

/-- What the CFF text says. -/
def cffDocument (input : CitationInput) : Document :=
  ([("cff-version", .scalar (.string "1.2.0")),
    ("message", .scalar (.string "If you use this dataset, please cite it as below.")),
    ("title", .scalar (.string input.title)),
    ("type", .scalar (.string "dataset"))] : Document) ++
    ((input.licenseSpdx.toList.map fun license =>
        ("license", .scalar (.string license)) : Document) ++
      (([("url", .scalar (.string input.url))] : Document) ++
        ((input.repositoryUrl.toList.map fun repository =>
            ("repository", .scalar (.string repository)) : Document) ++
          (keywordEntries input.keywords ++
            (([("date-released", .scalar (.string (input.year ++ "-01-01")))] : Document) ++
              (input.doi.toList.map fun doi => ("identifiers",
                .sequence (.mapping ("type", .string "doi") [("value", .string doi)]) []) :
                Document))))))

/-- The lines for the keywords. -/
def keywordFields : List String → List (LineField readLine)
  | [] => []
  | first :: others =>
    .fixed "keywords:".toList (.entry "keywords" none) (by decide +kernel) (by decide)
      (by decide) ::
      (first :: others).map ValuePlace.item.plain

/-- The lines for a DOI. -/
def identifierFields (doi : String) : List (LineField readLine) :=
  [.fixed "identifiers:".toList (.entry "identifiers" none) (by decide +kernel) (by decide)
    (by decide),
    .fixed "  - type: doi".toList (.itemEntry "type" (.string "doi")) (by decide +kernel)
      (by decide) (by decide),
    (ValuePlace.nested "value" (by decide)).quoted doi]

/-- The lines of the CFF text. -/
def cffFields (input : CitationInput) : List (LineField readLine) :=
  [(ValuePlace.entry "cff-version" (by decide)).plain "1.2.0",
    (ValuePlace.entry "message" (by decide)).quoted
      "If you use this dataset, please cite it as below.",
    (ValuePlace.entry "title" (by decide)).quoted input.title,
    (ValuePlace.entry "type" (by decide)).plain "dataset"] ++
    (input.licenseSpdx.toList.map (ValuePlace.entry "license" (by decide)).plain ++
      ([(ValuePlace.entry "url" (by decide)).quoted input.url] ++
        (input.repositoryUrl.toList.map (ValuePlace.entry "repository" (by decide)).quoted ++
          (keywordFields input.keywords ++
            ([(ValuePlace.entry "date-released" (by decide)).quoted (input.year ++ "-01-01")] ++
              input.doi.toList.flatMap identifierFields)))))

/-- The characters of a quoted value in its place. -/
theorem text_quoted (place : ValuePlace) (value : String) :
    (place.quoted value).text = place.start ++ ('"' :: (value.toList ++ ['"', '\n'])) := by
  simp [ValuePlace.quoted, LineField.text]

/-- The characters of a plain value in its place. -/
theorem text_plain (place : ValuePlace) (value : String) :
    (place.plain value).text = place.start ++ (value.toList ++ ['\n']) := by
  simp [ValuePlace.plain, LineField.text]

/-- The characters of a fixed line. -/
theorem text_fixed (text : List Char) (line : Line) (hread : readLine text = some line)
    (hne : text ≠ [])
    (h : Unbroken text) : (LineField.fixed text line hread hne h).text = text ++ ['\n'] := by
  simp [LineField.fixed, LineField.text]

/-- The characters of the keywords. -/
theorem text_keywordFields (keywords : List String) :
    (if keywords.isEmpty then ""
      else "keywords:\n" ++ String.join
        (keywords.map fun keyword => "  - " ++ keyword ++ "\n")).toList =
      (keywordFields keywords).flatMap LineField.text := by
  have hitem : ∀ keyword : String,
      ("  - " ++ keyword ++ "\n").toList = (ValuePlace.item.plain keyword).text := by
    intro keyword
    rw [text_plain, String.toList_append, String.toList_append, List.append_assoc]
    rfl
  cases keywords with
  | nil => rfl
  | cons first others =>
    have hitems :
      (String.join ((first :: others).map fun keyword => "  - " ++ keyword ++ "\n")).toList =
        ((first :: others).map ValuePlace.item.plain).flatMap LineField.text := by
      rw [String.toList_join, List.flatMap_map, List.flatMap_map]
      exact List.flatMap_congr fun keyword _ => hitem keyword
    rw [keywordFields, List.flatMap_cons, ← hitems]
    exact String.toList_append

/-- The characters of the identifiers. -/
theorem text_identifierFields (doi : String) :
    ("identifiers:\n  - type: doi\n    value: \"" ++ doi ++ "\"\n").toList =
      (identifierFields doi).flatMap LineField.text := by
  have hstart : "identifiers:\n  - type: doi\n    value: \"".toList =
      "identifiers:".toList ++ ('\n' :: ("  - type: doi".toList ++
        ('\n' :: ((ValuePlace.nested "value" (by decide)).start ++ ['"'])))) := by decide +kernel
  have hend : "\"\n".toList = ['"', '\n'] := rfl
  simp only [identifierFields, List.flatMap_cons, List.flatMap_nil, text_quoted, text_fixed,
    String.toList_append, hstart, hend, List.append_assoc, List.cons_append, List.nil_append,
    List.append_nil]

/-- The characters of the file. -/
theorem text_cff (input : CitationInput) :
    (cff input).toList = (cffFields input).flatMap LineField.text := by
  -- The fixed texts between the values are parts of the lines' own texts.
  have hstart : String.toList
      "cff-version: 1.2.0\nmessage: \"If you use this dataset, please cite it as below.\"\ntitle: \"" =
      ((ValuePlace.entry "cff-version" (by decide)).plain "1.2.0").text ++
        (((ValuePlace.entry "message" (by decide)).quoted
          "If you use this dataset, please cite it as below.").text ++
          ((ValuePlace.entry "title" (by decide)).start ++ ['"'])) := by
    rw [text_plain, text_quoted]
    dsimp only [ValuePlace.entry]
    repeat rw [String.toList_ofList]
    rfl
  have htype : "\"\ntype: dataset\n".toList =
      '"' :: '\n' :: ((ValuePlace.entry "type" (by decide)).plain "dataset").text := by
    rw [text_plain]
    dsimp only [ValuePlace.entry]
    repeat rw [String.toList_ofList]
    rfl
  have hurl : "url: \"".toList = (ValuePlace.entry "url" (by decide)).start ++ ['"'] := by
    decide +kernel
  have hdate : "date-released: \"".toList =
      (ValuePlace.entry "date-released" (by decide)).start ++ ['"'] := by
    decide +kernel
  have hyear : "-01-01\"\n".toList = "-01-01".toList ++ ['"', '\n'] := by
    repeat rw [String.toList_ofList]
    rfl
  have hquote : "\"\n".toList = ['"', '\n'] := rfl
  have hlicense : (match input.licenseSpdx with
      | some license => "license: " ++ license ++ "\n"
      | none => "").toList =
        (input.licenseSpdx.toList.map (ValuePlace.entry "license" (by decide)).plain).flatMap
            LineField.text := by
    have hplace : "license: ".toList = (ValuePlace.entry "license" (by decide)).start := by
      decide +kernel
    cases input.licenseSpdx with
    | none => rfl
    | some license =>
      simp only [Option.toList_some, List.map_cons, List.map_nil, List.flatMap_cons,
        List.flatMap_nil, text_plain, String.toList_append, hplace, List.append_assoc,
        List.append_nil]
      rfl
  have hrepository : (match input.repositoryUrl with
      | some repository => "repository: \"" ++ repository ++ "\"\n"
      | none => "").toList =
        (input.repositoryUrl.toList.map (ValuePlace.entry "repository" (by decide)).quoted).flatMap
            LineField.text := by
    have hplace : "repository: \"".toList =
        (ValuePlace.entry "repository" (by decide)).start ++ ['"'] := by
      decide +kernel
    cases input.repositoryUrl with
    | none => rfl
    | some repository =>
      simp only [Option.toList_some, List.map_cons, List.map_nil, List.flatMap_cons,
        List.flatMap_nil, text_quoted, String.toList_append, hplace, hquote, List.append_assoc,
        List.append_nil, List.cons_append, List.nil_append]
  have hdoi : (match input.doi with
      | some doi => "identifiers:\n  - type: doi\n    value: \"" ++ doi ++ "\"\n"
      | none => "").toList =
          (input.doi.toList.flatMap identifierFields).flatMap LineField.text := by
    cases input.doi with
    | none => rfl
    | some doi =>
      rw [Option.toList_some, List.flatMap_singleton]
      exact text_identifierFields doi
  unfold cff cffFields
  simp only [String.toList_append, List.flatMap_append, List.flatMap_cons, text_quoted,
    text_keywordFields, hlicense, hrepository, hdoi, hstart, htype, hurl, hdate, hyear, hquote,
    List.append_assoc, List.cons_append, List.nil_append]

/-- The lines of the file are those of its document. -/
theorem lines_cffFields (input : CitationInput) :
    (cffFields input).map LineField.line = (cffDocument input).lines := by
  have hkeywords : (keywordFields input.keywords).map LineField.line =
      Document.lines (keywordEntries input.keywords) := by
    cases input.keywords with
    | nil => rfl
    | cons first others =>
      have hitems : ∀ keywords : List String,
        (keywords.map ValuePlace.item.plain).map LineField.line =
          (keywords.map fun keyword => Item.scalar (.string keyword)).flatMap Item.lines := by
        intro keywords
        rw [List.map_map, List.flatMap_map]
        exact (List.flatMap_pure_eq_map _ keywords).symm
      rw [keywordFields, List.map_cons, hitems]
      exact (List.append_nil _).symm
  simp only [cffFields, cffDocument, List.map_append, hkeywords, Document.lines,
    List.flatMap_append]
  -- What remains are the lines of each optional value.
  cases input.licenseSpdx <;> cases input.repositoryUrl <;> cases input.doi <;> rfl

/-- The values in quotes in the CFF text. -/
def cffQuoted (input : CitationInput) : List String :=
  [input.title, input.url] ++ input.repositoryUrl.toList ++ [input.year ++ "-01-01"] ++
    input.doi.toList

/-- The values without quotes in the CFF text. -/
def cffPlain (input : CitationInput) : List String := input.licenseSpdx.toList ++ input.keywords

/-- The fields are harmless when the quoted values are verbatim and the plain ones harmless. -/
theorem harmless_cffFields_iff (input : CitationInput) :
    (∀ field ∈ cffFields input, field.Harmless) ↔
    (∀ value ∈ cffQuoted input, value.toList.all isVerbatim = true) ∧
      ∀ value ∈ cffPlain input, isPlain value.toList = true ∧ isText value.toList = true := by
  -- The fixed values are harmless.
  have hversion : isPlain "1.2.0".toList = true ∧ isText "1.2.0".toList = true := by decide +kernel
  have hmessage :
      "If you use this dataset, please cite it as below.".toList.all isVerbatim = true := by
    decide +kernel
  have htype : isPlain "dataset".toList = true ∧ isText "dataset".toList = true := by decide +kernel
  -- What is left are the values of the input, under the rule of their place.
  have hkeywords : (∀ field ∈ keywordFields input.keywords, field.Harmless) ↔
      ∀ value ∈ input.keywords, isPlain value.toList = true ∧ isText value.toList = true := by
    cases input.keywords with
    | nil => exact iff_of_true (List.forall_mem_nil _) (List.forall_mem_nil _)
    | cons first others =>
      rw [keywordFields, List.forall_mem_cons, List.forall_mem_map]
      exact and_iff_right trivial
  have hdoi : ∀ doi, (∀ field ∈ identifierFields doi, field.Harmless) ↔
      doi.toList.all isVerbatim = true := by
    intro doi
    rw [identifierFields, List.forall_mem_cons, List.forall_mem_cons, List.forall_mem_singleton]
    exact (and_iff_right trivial).trans (and_iff_right trivial)
  simp only [cffFields, cffQuoted, cffPlain, List.forall_mem_append, List.forall_mem_cons,
    List.forall_mem_map, List.forall_mem_flatMap, hkeywords, hdoi, List.not_mem_nil, false_imp_iff,
    implies_true, and_true]
  constructor
  · rintro ⟨⟨-, -, htitle, -⟩, hlicense, hurl, hrepository, hkeywords, hyear, hdoi⟩
    exact ⟨⟨⟨⟨⟨htitle, hurl⟩, hrepository⟩, hyear⟩, hdoi⟩, hlicense, hkeywords⟩
  · rintro ⟨⟨⟨⟨⟨htitle, hurl⟩, hrepository⟩, hyear⟩, hdoi⟩, hlicense, hkeywords⟩
    exact ⟨⟨hversion, hmessage, htitle, htype⟩, hlicense, hurl, hrepository, hkeywords, hyear, hdoi⟩

/-- The CFF text says what it should exactly when what is in quotes there stands for itself and what
is not is a plain scalar and a string for the core schema. -/
theorem readDocument_cff_iff (input : CitationInput) :
    readDocument (cff input).toList = some (cffDocument input) ↔
      (∀ value ∈ cffQuoted input, value.toList.all isVerbatim = true) ∧
        ∀ value ∈ cffPlain input, isPlain value.toList = true ∧ isText value.toList = true := by
  rw [readDocument_eq_some_iff, ← lines_cffFields, text_cff, LineField.read_textLines_iff,
    harmless_cffFields_iff]

/-! ## All formats -/

/-- Each text is read back as what it should say. -/
structure CitationInput.Faithful (input : CitationInput) : Prop where
  ris : Ris.readPairs (ris input).toList = some (risPairs input)
  cff : readDocument (cff input).toList = some (cffDocument input)
  bibtex : Bibtex.readEntry (bibtex input).toList = some (bibtexEntry input)

/-- No value of the input means something in a format that it is pasted into. -/
structure CitationInput.Harmless (input : CitationInput) : Prop where
  unbroken : ∀ pair ∈ risPairs input, Unbroken pair.2.toList
  verbatim : ∀ value ∈ cffQuoted input, value.toList.all isVerbatim = true
  plain : ∀ value ∈ cffPlain input, isPlain value.toList = true ∧ isText value.toList = true
  key : input.id.toList.all Bibtex.isKeyChar = true
  balanced : ∀ field ∈ bibtexFields input, Bibtex.balanced 0 field.2.toList = true

/-- The renderings of an input are faithful exactly when its values are harmless in all formats. -/
theorem faithful_iff (input : CitationInput) : input.Faithful ↔ input.Harmless := by
  constructor
  · intro h
    obtain ⟨hverbatim, hplain⟩ := (readDocument_cff_iff input).mp h.cff
    obtain ⟨hkey, hbalanced⟩ := (readEntry_bibtex_iff input).mp h.bibtex
    exact ⟨(readPairs_ris_iff input).mp h.ris, hverbatim, hplain, hkey, hbalanced⟩
  · intro h
    exact ⟨(readPairs_ris_iff input).mpr h.unbroken,
      (readDocument_cff_iff input).mpr ⟨h.verbatim, h.plain⟩,
      (readEntry_bibtex_iff input).mpr ⟨h.key, h.balanced⟩⟩

/-- The values of an ordinary input are harmless. -/
example : CitationInput.Harmless
    { id := "resource_0001", title := "Reference Measurements", publisher := "ExamplePlatform",
      year := "2026"
      url := "https://doi.org/10.1234/example.1", doi := some "10.1234/example.1",
      licenseSpdx := some "CC-BY-4.0"
      keywords := ["measurements", "reference"], repositoryUrl := some "https://example.org" } :=
  ⟨by decide +kernel, by decide +kernel, by decide +kernel, by decide +kernel, by decide +kernel⟩

/-- An input whose title, publisher and keyword mean something in BibTeX, RIS and CFF. -/
def forged : CitationInput where
  id := "cells"
  title := "Cells\x7d, note = \x7bforged"
  publisher := "Lab\nKW  - forged"
  year := "2026"
  url := "https://example.org"
  doi := none
  licenseSpdx := none
  keywords := ["field: value"]
  repositoryUrl := none

/-- The title ends its field and adds a note, the publisher adds a keyword, and the keyword is a
mapping. -/
theorem forged_not_faithful :
    (Bibtex.readEntry (bibtex forged).toList).map Bibtex.Entry.fields =
        some [("title", "Cells"), ("note", "forged"), ("publisher", "Lab\nKW  - forged"),
          ("year", "2026"),
          ("url", "https://example.org")] ∧
      Ris.readPairs (ris forged).toList =
        some [("TY", "DATA"), ("TI", "Cells\x7d, note = \x7bforged"), ("PB", "Lab"),
          ("KW", "forged"), ("PY", "2026"),
          ("UR", "https://example.org"), ("KW", "field: value"), ("ER", "")] ∧
      (readDocument (cff forged).toList).bind (List.lookup "keywords") =
        some (.sequence (.mapping ("field", .string "value") []) []) ∧
      ¬ forged.Faithful := by
  -- The three texts are put together and read back; the balance of the title is what fails.
  refine ⟨?_, ?_, ?_, fun h => ?_⟩
  · rw [text_bibtex]
    simp only [forged, bibtexFields, Option.toList_none, List.map_nil, List.append_nil,
      List.flatMap_cons, List.flatMap_nil, Bibtex.fieldText]
    repeat rw [String.toList_ofList]
    decide +kernel
  · unfold ris
    dsimp only [forged]
    rw [List.map_singleton, String.join_cons, String.join_nil, String.append_empty]
    repeat rw [String.toList_append]
    repeat rw [String.toList_ofList]
    decide +kernel
  · have hkeywords : forged.keywords.isEmpty = false := rfl
    unfold cff
    rw [hkeywords, if_neg Bool.false_ne_true]
    dsimp only [forged]
    rw [List.map_singleton, String.join_cons, String.join_nil, String.append_empty]
    repeat rw [String.toList_append]
    repeat rw [String.toList_ofList]
    decide +kernel
  · exact absurd ((faithful_iff forged).mp h).balanced (by decide +kernel)

end QueryFabric.Portability
