import ApiLint.CommandLine.Run
import ApiLint.Proofs.Report.Shown

/-! What a validation of many documents prints, and its exit status. Each document has one entry,
made from nothing but its path, its content and the options, and the exit status is 0 exactly if
every document passes. -/

namespace ApiLint.CommandLine

/-! ## Documents that do not load -/

/-- The message for a document that does not load names the step that failed. A parser is quoted on
the whole text. -/
inductive FailsWith (parsers : ParserMessages) (path : String) :
    Except FileError ByteArray → String → Prop where
  | file {error} : FailsWith parsers path (.error error) ("IO Error: " ++ error.message)
  | octets {octets} : String.fromUTF8? octets = none →
      FailsWith parsers path (.ok octets) "IO Error: stream did not contain valid UTF-8"
  | json {octets text} : String.fromUTF8? octets = some text →
      (Path.format? path).getD (Document.sniff text) = .json → Json.parse? text = none →
      FailsWith parsers path (.ok octets)
        ("Parse Error: Failed to parse OpenAPI JSON: " ++ parsers.json text)
  | yaml {octets text} : String.fromUTF8? octets = some text →
      (Path.format? path).getD (Document.sniff text) = .yaml → Yaml.Value.parse? text = none →
      FailsWith parsers path (.ok octets)
        ("Parse Error: Failed to parse OpenAPI YAML: " ++ parsers.yaml text)
  | merge {octets text value error} : String.fromUTF8? octets = some text →
      (Path.format? path).getD (Document.sniff text) = .yaml →
      Yaml.Value.parse? text = some value → value.merge = .error error →
      FailsWith parsers path (.ok octets)
        ("Parse Error: Failed to apply YAML merge keys: " ++ error.message)

section

variable (parsers : ParserMessages) {path : String} {error : LoadError}

theorem failsWith_of_ofText_eq_error {octets : ByteArray} {text : String}
    (ho : String.fromUTF8? octets = some text)
    (h : Document.ofText (Path.format? path) text = .error error) :
    FailsWith parsers path (.ok octets) (error.message parsers) := by
  rw [Document.ofText] at h
  split at h
  · rename_i hf
    rw [Document.ofJsonText] at h
    split at h
    · cases h
    · cases h
      exact .json ho hf ‹_›
  · rename_i hf
    rw [Document.ofYamlText] at h
    split at h
    · rename_i value hp
      rw [Document.ofYaml] at h
      split at h
      · cases h
      · cases h
        exact .merge ho hf hp ‹_›
    · cases h
      exact .yaml ho hf ‹_›

theorem failsWith_of_ofFile_eq_error {content : Except FileError ByteArray}
    (h : Document.ofFile path content = .error error) :
    FailsWith parsers path content (error.message parsers) := by
  cases content with
  | error error =>
      cases h
      exact .file
  | ok octets =>
      rw [Document.ofFile] at h
      cases ho : String.fromUTF8? octets with
      | none =>
          rw [ho] at h
          cases h
          exact .octets ho
      | some text =>
          rw [ho] at h
          exact failsWith_of_ofText_eq_error parsers ho h

end

/-! ## Entries -/

section

variable (parsers : ParserMessages) (options : Options)

/-- The text of a document's entry. In JSON an entry is an element of an array. -/
def entryText (found : Found) : OutputFormat → String
  | .text => (Entry.ofFound options found).text parsers
  | .json => ((Entry.ofFound options found).toJson parsers).prettyAt 1

/-- An element shows the report of a document that loads, and the error of one that does not. -/
inductive ShowsValue (found : Found) (value : Json) : Prop where
  | report {document shown} : Document.ofFile found.path found.content = .ok document →
      value.get? "source" = some (.string found.path) → value.get? "error" = none →
      value.get? "report" = some shown → (validate document options).ShownBy shown →
      ShowsValue found value
  | error {message} : (∀ document, Document.ofFile found.path found.content ≠ .ok document) →
      value.get? "source" = some (.string found.path) → value.get? "report" = none →
      value.get? "error" = some (.string message) →
      FailsWith parsers found.path found.content message → ShowsValue found value

/-- An entry shows the report of a document that loads, and the error of one that does not. -/
inductive Shows (found : Found) : OutputFormat → String → Prop where
  | report {document lines} : Document.ofFile found.path found.content = .ok document →
      (validate document options).HasLines found.path lines →
      Shows found .text (String.join (lines.map (· ++ "\n")))
  | error {message} : (∀ document, Document.ofFile found.path found.content ≠ .ok document) →
      FailsWith parsers found.path found.content message →
      Shows found .text ("OpenAPI validation: " ++ found.path ++
        "\n\nFailed to load document: " ++ message ++ "\n")
  | json {value} : ShowsValue parsers options found value → Shows found .json (value.prettyAt 1)

variable {parsers options} {found : Found}

theorem Entry.ofFound_of_eq_ok {document : Document}
    (h : Document.ofFile found.path found.content = .ok document) :
    ofFound options found = ⟨found.path, .ok (validate document options)⟩ := by
  rw [ofFound, h]
  rfl

theorem Entry.ofFound_of_eq_error {error : LoadError}
    (h : Document.ofFile found.path found.content = .error error) :
    ofFound options found = ⟨found.path, .error error⟩ := by
  rw [ofFound, h]
  rfl

theorem showsValue_toJson : ShowsValue parsers options found
    ((Entry.ofFound options found).toJson parsers) := by
  cases h : Document.ofFile found.path found.content with
  | ok document =>
      rw [Entry.ofFound_of_eq_ok h]
      exact .report h rfl rfl rfl (validate document options).shownBy_toJson
  | error error =>
      rw [Entry.ofFound_of_eq_error h]
      exact .error (by simp [h]) rfl rfl rfl (failsWith_of_ofFile_eq_error parsers h)

theorem shows_text :
    Shows parsers options found .text ((Entry.ofFound options found).text parsers) := by
  cases h : Document.ofFile found.path found.content with
  | ok document =>
      rw [Entry.ofFound_of_eq_ok h]
      exact .report h ((validate document options).hasLines_lines found.path)
  | error error =>
      have ht : (Entry.mk found.path (.error error)).text parsers =
          "OpenAPI validation: " ++ found.path ++ "\n\nFailed to load document: " ++
            error.message parsers ++ "\n" :=
        String.toList_inj.mp (by simp [Entry.text, textOfLines])
      rw [Entry.ofFound_of_eq_error h, ht]
      exact .error (by simp [h]) (failsWith_of_ofFile_eq_error parsers h)

theorem shows_entryText (format : OutputFormat) :
    Shows parsers options found format (entryText parsers options found format) := by
  cases format with
  | text => exact shows_text
  | json => exact .json showsValue_toJson

end

/-! ## The whole output -/

/-- Entries as they are printed. -/
def framed (texts : List String) : OutputFormat → String
  | .text => "\n".intercalate texts
  | .json => "[\n  " ++ ",\n  ".intercalate texts ++ "\n]\n"

/-- What stands around an entry does not depend on it. -/
theorem exists_framed_append_cons (before after : List String) (format : OutputFormat) :
    ∃ head tail, ∀ text, framed (before ++ text :: after) format = head ++ text ++ tail := by
  cases format with
  | text => exact ⟨_, _, fun text => intercalate_append_cons "\n" before text after⟩
  | json =>
      refine ⟨"[\n  " ++ String.join (before.map (· ++ ",\n  ")),
        String.join (after.map (",\n  " ++ ·)) ++ "\n]\n", fun text => ?_⟩
      rw [framed, intercalate_append_cons]
      simp only [String.append_assoc]

/-- The elements of an array stand on lines of their own. -/
theorem pretty_array (first : Json) (rest : List Json) :
    (Json.array (first :: rest)).pretty =
      "[\n  " ++ ",\n  ".intercalate ((first :: rest).map (Json.prettyAt 1)) ++ "\n]" := by
  have hb : (Json.array (first :: rest)).pretty =
      "[" ++ ",".intercalate (((first :: rest).map (Json.prettyAt 1)).map ("\n  " ++ ·)) ++
        "\n" ++ "]" := by
    rw [Json.pretty, Json.prettyAt, Json.prettyElements_eq_map]
    rfl
  have hopen : "[" ++ "\n  " = "[\n  " := rfl
  have hnext : "," ++ "\n  " = ",\n  " := rfl
  have hclose : "\n" ++ "]" = "\n]" := rfl
  rw [hb, List.map_cons, intercalate_map_append, hnext, ← hopen, ← hclose]
  simp only [String.append_assoc]

theorem render_eq_framed (parsers : ParserMessages) (options : Options) {documents : List Found}
    (h : documents ≠ []) (format : OutputFormat) :
    render parsers (documents.map (Entry.ofFound options)) format =
      framed (documents.map (entryText parsers options · format)) format := by
  cases format with
  | text =>
      rw [render, framed, List.map_map]
      rfl
  | json =>
      cases documents with
      | nil => exact absurd rfl h
      | cons first rest =>
          rw [render, framed, List.map_cons, List.map_cons, pretty_array, String.append_assoc]
          simp only [List.map_cons, List.map_map]
          rfl

/-! ## Reading the JSON output -/

section

variable {parsers : ParserMessages} {options : Options} {found : Found}

theorem Entry.counted_toJson (h : ∀ document,
      Document.ofFile found.path found.content = .ok document →
        (Stats.ofDocument document).FitsWord) :
    Json.Counted ((ofFound options found).toJson parsers) := by
  cases hd : Document.ofFile found.path found.content with
  | ok document =>
      rw [ofFound_of_eq_ok hd]
      refine .object (by simp) ?_
      exact List.forall_mem_cons.mpr ⟨.string _, List.forall_mem_singleton.mpr
        (Report.counted_toJson (h document hd))⟩
  | error error =>
      rw [ofFound_of_eq_error hd]
      refine .object (by simp) ?_
      exact List.forall_mem_cons.mpr ⟨.string _, List.forall_mem_singleton.mpr (.string _)⟩

theorem Entry.nesting_toJson_le (entry : Entry) : (entry.toJson parsers).nesting ≤ 4 := by
  obtain ⟨source, result⟩ := entry
  refine Json.nesting_object_le_iff.mpr (List.forall_mem_cons.mpr
    ⟨Nat.zero_le _, List.forall_mem_singleton.mpr ?_⟩)
  cases result with
  | ok report => exact report.nesting_toJson_le
  | error error => exact Nat.zero_le _

/-- The JSON output is read as the array of the entries. -/
theorem parse?_render {documents : List Found}
    (h : ∀ found ∈ documents, ∀ document,
      Document.ofFile found.path found.content = .ok document →
        (Stats.ofDocument document).FitsWord) :
    Json.parse? (render parsers (documents.map (Entry.ofFound options)) .json) =
      some (.array ((documents.map (Entry.ofFound options)).map (Entry.toJson parsers))) := by
  have hc : Json.Counted
      (.array ((documents.map (Entry.ofFound options)).map (Entry.toJson parsers))) := by
    refine .array ?_
    simp only [List.forall_mem_map]
    exact fun found hf => Entry.counted_toJson (h found hf)
  have hn : (Json.array ((documents.map (Entry.ofFound options)).map
      (Entry.toJson parsers))).nesting ≤ 4 + 1 := by
    refine Json.nesting_array_le_iff.mpr ?_
    simp only [List.forall_mem_map]
    exact fun found _ => Entry.nesting_toJson_le _
  exact Json.parse?_pretty hc (hn.trans (by decide))

theorem forall₂_showsValue (documents : List Found) :
    List.Forall₂ (ShowsValue parsers options) documents
      ((documents.map (Entry.ofFound options)).map (Entry.toJson parsers)) := by
  rw [List.map_map]
  exact List.forall₂_map_right_iff.mpr (List.forall₂_same.mpr fun _ _ => showsValue_toJson)

end

/-! ## Exit status -/

/-- The document loads, has no errors and, where they count, no warnings. -/
def Passes (denyWarnings : Bool) (options : Options) (found : Found) : Prop :=
  ∃ document, Document.ofFile found.path found.content = .ok document ∧
    (validate document options).errors = [] ∧
    (denyWarnings → (validate document options).warnings = [])

theorem isRejected_eq_false_iff {denyWarnings : Bool} {options : Options} {found : Found} :
    (Entry.ofFound options found).isRejected denyWarnings = false ↔
      Passes denyWarnings options found := by
  rw [Passes]
  cases h : Document.ofFile found.path found.content with
  | ok document =>
      rw [Entry.ofFound_of_eq_ok h]
      simp [Entry.isRejected, Report.isValid]
  | error error =>
      rw [Entry.ofFound_of_eq_error h]
      simp [Entry.isRejected]

theorem exit_eq_zero_iff {denyWarnings : Bool} {options : Options} {documents : List Found} :
    (if (documents.map (Entry.ofFound options)).any (Entry.isRejected denyWarnings) then 1
      else 0) = 0 ↔ ∀ found ∈ documents, Passes denyWarnings options found := by
  simp only [← isRejected_eq_false_iff]
  simp

/-! ## Validations -/

section

variable {files : Files} {paths : List String} (parsers : ParserMessages)

theorem runValidate_of_nil (h : discover files paths = []) (format : OutputFormat)
    (denyWarnings : Bool) (options : Options) :
    runValidate parsers files paths format denyWarnings options =
      { exit := 1
        output := ""
        error := some ("Operation failed: No OpenAPI documents found in " ++
          ("[" ++ ", ".intercalate (paths.map quotedText) ++ "]")) } := by
  rw [runValidate, h]
  rfl

theorem runValidate_eq (h : discover files paths ≠ []) (format : OutputFormat)
    (denyWarnings : Bool) (options : Options) :
    runValidate parsers files paths format denyWarnings options =
      { exit := if ((discover files paths).map (Entry.ofFound options)).any
          (Entry.isRejected denyWarnings) then 1 else 0
        output := render parsers ((discover files paths).map (Entry.ofFound options)) format } := by
  rw [runValidate]
  split
  · contradiction
  · rfl

theorem runValidate_of_ne_nil (h : discover files paths ≠ []) (format : OutputFormat)
    (denyWarnings : Bool) (options : Options) :
    ∃ exit, (exit = 0 ∨ exit = 1) ∧
      (exit = 0 ↔ ∀ found ∈ discover files paths, Passes denyWarnings options found) ∧
      runValidate parsers files paths format denyWarnings options =
        { exit
          output := framed ((discover files paths).map (entryText parsers options · format)) format
          error := none } := by
  refine ⟨_, ?_, exit_eq_zero_iff, ?_⟩
  · split
    · exact .inr rfl
    · exact .inl rfl
  · rw [← render_eq_framed parsers options h]
    exact runValidate_eq parsers h format denyWarnings options

end

/-- Without documents there is only an error. Otherwise every document has one entry, in the order
of discovery, which shows its report or its error, and the exit status is 0 exactly if all of them
pass. In JSON the output is read as the array of the entries, where the counts fit a machine word.
Another document in one place changes nothing but the entry there. -/
theorem runValidate_exact (parsers : ParserMessages) (files : Files) (paths : List String)
    (format : OutputFormat) (denyWarnings : Bool) (options : Options) :
    (discover files paths = [] → runValidate parsers files paths format denyWarnings options =
        { exit := 1
          output := ""
          error := some ("Operation failed: No OpenAPI documents found in " ++
            ("[" ++ ", ".intercalate (paths.map quotedText) ++ "]")) }) ∧
      (discover files paths ≠ [] → ∃ exit, (exit = 0 ∨ exit = 1) ∧
        (exit = 0 ↔ ∀ found ∈ discover files paths, Passes denyWarnings options found) ∧
        runValidate parsers files paths format denyWarnings options =
          { exit
            output :=
              framed ((discover files paths).map (entryText parsers options · format)) format
            error := none }) ∧
      (∀ found, Shows parsers options found format (entryText parsers options found format)) ∧
      (discover files paths ≠ [] →
        (∀ found ∈ discover files paths, ∀ document,
          Document.ofFile found.path found.content = .ok document →
            (Stats.ofDocument document).FitsWord) →
        ∃ values, List.Forall₂ (ShowsValue parsers options) (discover files paths) values ∧
          Json.parse? (runValidate parsers files paths .json denyWarnings options).output =
            some (.array values)) ∧
      ∀ before found after, discover files paths = before ++ found :: after → ∃ head tail,
        (runValidate parsers files paths format denyWarnings options).output =
            head ++ entryText parsers options found format ++ tail ∧
          ∀ files' paths' denyWarnings' other, discover files' paths' = before ++ other :: after →
            (runValidate parsers files' paths' format denyWarnings' options).output =
              head ++ entryText parsers options other format ++ tail := by
  refine ⟨fun h => runValidate_of_nil parsers h _ _ _,
    fun h => runValidate_of_ne_nil parsers h _ _ _, fun found => shows_entryText format,
    fun h hw => ⟨_, forall₂_showsValue _, ?_⟩, fun before found after h => ?_⟩
  · rw [runValidate_eq parsers h]
    exact parse?_render hw
  · obtain ⟨head, tail, hf⟩ := exists_framed_append_cons
      (before.map (entryText parsers options · format))
      (after.map (entryText parsers options · format)) format
    -- The same holds of every run that discovers these documents around one place.
    have hoverall (files' paths' denyWarnings' other)
        (h : discover files' paths' = before ++ other :: after) :
        (runValidate parsers files' paths' format denyWarnings' options).output =
          head ++ entryText parsers options other format ++ tail := by
      have hne : discover files' paths' ≠ [] := by simp [h]
      obtain ⟨exit, -, -, hr⟩ := runValidate_of_ne_nil parsers hne format denyWarnings' options
      rw [hr, h, List.map_append, List.map_cons, hf]
    exact ⟨head, tail, hoverall _ _ _ _ h, hoverall⟩

/-- A description that has a warning and no errors. -/
def petsText : String :=
  "\x7b\"openapi\":\"3.0.0\",\"paths\":\x7b\x7d," ++
    "\"info\":\x7b\"title\":\"Pets\",\"version\":\"1\"\x7d\x7d"

/-- A description that breaks off. -/
def dogsText : String := "\x7b\"openapi\": "

/-- The two descriptions, and a directory without any. -/
def petFiles : Files := fun path =>
  if path = "pets.json" then .ok (.file petsText.toUTF8)
  else if path = "dogs.json" then .ok (.file dogsText.toUTF8)
  else if path = "cats" then .ok (.directory [])
  else .error .notFound

def petMessages : ParserMessages where
  json _ := "EOF while parsing a value at line 1 column 12"
  yaml _ := "did not find expected node content"

/-- The description that breaks off has an entry of its own, and the other one passes. -/
theorem runValidate_exact_petFiles :
    (runValidate petMessages petFiles ["cats"] .text false ⟨64⟩).error =
        some "Operation failed: No OpenAPI documents found in [\"cats\"]" ∧
      (runValidate petMessages petFiles ["pets.json"] .json false ⟨64⟩).exit = 0 ∧
      (runValidate petMessages petFiles ["dogs.json", "pets.json"] .text false ⟨64⟩).exit = 1 ∧
      (∃ values, List.Forall₂ (ShowsValue petMessages ⟨64⟩)
          (discover petFiles ["dogs.json", "pets.json"]) values ∧
        Json.parse? (runValidate petMessages petFiles ["dogs.json", "pets.json"] .json false
          ⟨64⟩).output = some (.array values)) ∧
      ∃ head tail,
        (runValidate petMessages petFiles ["dogs.json", "pets.json"] .text false ⟨64⟩).output =
          head ++ ("OpenAPI validation: dogs.json\n\nFailed to load document: " ++
            "Parse Error: Failed to parse OpenAPI JSON: " ++
            "EOF while parsing a value at line 1 column 12\n") ++ tail := by
  have hnone : discover petFiles ["cats"] = [] := by
    simp [discover, documentsFrom, petFiles, documentsAt, documentsOf]
  have hpets : discover petFiles ["pets.json"] = [⟨"pets.json", .ok petsText.toUTF8⟩] := rfl
  have hboth : discover petFiles ["dogs.json", "pets.json"] =
      [⟨"dogs.json", .ok dogsText.toUTF8⟩, ⟨"pets.json", .ok petsText.toUTF8⟩] := rfl
  have hp : (Entry.ofFound ⟨64⟩ ⟨"pets.json", .ok petsText.toUTF8⟩).isRejected false = false := by
    decide +kernel
  have hd : (Entry.ofFound ⟨64⟩ ⟨"dogs.json", .ok dogsText.toUTF8⟩).isRejected false = true := by
    decide +kernel
  have hw : (discover petFiles ["dogs.json", "pets.json"]).all fun found =>
      (Document.ofFile found.path found.content).toOption.all fun document =>
        (Stats.ofDocument document).FitsWord := by decide +kernel
  refine ⟨?_, ?_, ?_, ?_, ?_⟩
  · rw [(runValidate_exact petMessages petFiles ["cats"] .text false ⟨64⟩).1 hnone]
    decide +kernel
  · obtain ⟨exit, -, hz, hr⟩ :=
      (runValidate_exact petMessages petFiles ["pets.json"] .json false ⟨64⟩).2.1 (by simp [hpets])
    rw [hr]
    refine hz.mpr ?_
    rw [hpets]
    exact List.forall_mem_singleton.mpr (isRejected_eq_false_iff.mp hp)
  · obtain ⟨exit, hone, hz, hr⟩ :=
      (runValidate_exact petMessages petFiles ["dogs.json", "pets.json"] .text false ⟨64⟩).2.1
        (by simp [hboth])
    rw [hr]
    refine hone.resolve_left fun he => ?_
    have hf := isRejected_eq_false_iff.mpr (hz.mp he _ (by rw [hboth]; exact List.mem_cons_self))
    rw [hd] at hf
    cases hf
  · refine (runValidate_exact petMessages petFiles ["dogs.json", "pets.json"] .json false
      ⟨64⟩).2.2.2.1 (by simp [hboth]) fun found hf document ho => ?_
    have hm := List.all_eq_true.mp hw found hf
    rw [ho] at hm
    exact of_decide_eq_true hm
  · obtain ⟨head, tail, ho, -⟩ := (runValidate_exact petMessages petFiles
      ["dogs.json", "pets.json"] .text false ⟨64⟩).2.2.2.2 [] _ _ hboth
    have hdogs : entryText petMessages ⟨64⟩ ⟨"dogs.json", .ok dogsText.toUTF8⟩ .text =
        "OpenAPI validation: dogs.json\n\nFailed to load document: " ++
          "Parse Error: Failed to parse OpenAPI JSON: " ++
          "EOF while parsing a value at line 1 column 12\n" := by decide +kernel
    exact ⟨head, tail, by rw [ho, hdogs]⟩

end ApiLint.CommandLine
