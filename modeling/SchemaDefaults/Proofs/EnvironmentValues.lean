import SchemaDefaults.Proofs.CommandRun
import SchemaDefaults.Proofs.Placement
/-!
Values of environment variables in a settings file. A value is put into the text before the text
is read. Between double quotes it is data only if it stands for itself there: a value with a
quote, a backslash or a control character in it is read as a part of the file.
-/

namespace SchemaDefaults

open Template Toml

namespace SettingsFile

section Values

theorem ofText_malformed_iff (environment : Environment) (text : String) :
    ofText environment text = .error malformed ↔
      Table.ofText? (environment.substitute text) >>= ofTable? = none := by
  unfold ofText
  cases Table.ofText? (environment.substitute text) >>= ofTable? <;> simp

theorem ofText_placed (environment : Environment) (name text value : String)
    (contents : Contents) (lines : List Line)
    (only : ∀ other ∈ Environment.references text, other = name)
    (placed : Placed contents (Environment.template name text) lines)
    (given : environment name = some value) (plain : ∀ c ∈ value.toList, isPlain c = true)
    (file : SettingsFile) :
    ofText environment text = .ok file ↔
      ∃ raw, Table.ofLines? lines >>= ofTable? = some raw ∧
        file = { raw with
          model := raw.model.map (filled contents.model value.toList)
          output := raw.output.map (filled contents.output value.toList) } := by
  have read := placed.reads value.toList plain
  rw [ofText_ok_iff, environment.substitute_template name value given text only, Table.ofText?,
    String.toList_ofList, read]
  have settled := ofTable?_edited _ _ _ (contents.edit_gives value.toList)
  simp only [Option.bind_eq_bind, Option.bind_some, Table.ofLines?_edited, Option.bind_map,
    Function.comp_def, settled, Option.bind_eq_some_iff, Option.map_eq_some_iff]
  constructor
  · rintro ⟨root, laid, raw, known, rfl⟩
    exact ⟨raw, ⟨root, laid, known⟩, rfl⟩
  · rintro ⟨raw, ⟨root, laid, known⟩, rfl⟩
    exact ⟨root, laid, raw, known, rfl⟩

theorem filled_given (given : Option Template) (trial word : List Char) (found : Option String)
    (agrees : found.map (filled given trial) =
      given.map fun content => String.ofList (fill trial content)) :
    found.map (filled given word) = given.map fun content => String.ofList (fill word content) := by
  cases given with
  | none =>
      cases found with
      | none => rfl
      | some text => cases agrees
  | some content =>
      cases found with
      | none => cases agrees
      | some text => rfl

end Values

/-- A settings file refers to one variable only, in the double quotes of the paths of its model
and its output and nowhere else, and not as a part of an escape. If it can be read with the
letter x as the value, it can be read with every value that stands for itself in double quotes.
The two paths are as given, with the value in place of the references, and all else is the
same. -/
theorem plain_value_is_data (name text : String) (contents : Contents) (lines : List Line)
    (only : ∀ other ∈ Environment.references text, other = name)
    (placed : Placed contents (Environment.template name text) lines)
    (trial : Environment) (letter : trial name = some "x") (file : SettingsFile)
    (read : ofText trial text = .ok file)
    (model : file.model = contents.model.map fun content => String.ofList (fill ['x'] content))
    (output : file.output =
      contents.output.map fun content => String.ofList (fill ['x'] content))
    (environment : Environment) (value : String) (given : environment name = some value)
    (plain : ∀ c ∈ value.toList, isPlain c = true) :
    ofText environment text = .ok { file with
      model := contents.model.map fun content => String.ofList (fill value.toList content)
      output := contents.output.map fun content => String.ofList (fill value.toList content) } := by
  have plainLetter : ∀ c ∈ "x".toList, isPlain c = true := List.all_eq_true.mp (by decide)
  obtain ⟨raw, found, rfl⟩ := (ofText_placed trial name text "x" contents lines only placed letter
    plainLetter file).mp read
  refine (ofText_placed environment name text value contents lines only placed given plain _).mpr
    ⟨raw, found, ?_⟩
  rw [filled_given contents.model _ value.toList raw.model model,
    filled_given contents.output _ value.toList raw.output output]

section Sample

def templateText : String := "[input]\nmodel = \"${V}.json\"\n[output]\npath = \"out/${V}\"\n"

def templateContents : Contents where
  model := some (none :: solid ".json".toList)
  output := some (solid "out/".toList ++ [none])

def templateLines : List Line :=
  [.header ⟨[], "input"⟩, .pair ⟨[], "model"⟩ (.text "x.json"), .header ⟨[], "output"⟩,
    .pair ⟨[], "path"⟩ (.text "out/x")]

theorem template_placed :
    Placed templateContents (Environment.template "V" templateText) templateLines := by
  have shape : Environment.template "V" templateText =
      solid "[input]\n".toList ++ (solid "model = ".toList ++ some '"' :: none ::
        (solid ".json".toList ++ some '"' :: some '\n' :: (solid "[output]\n".toList ++
          (solid "path = ".toList ++ some '"' :: (solid "out/".toList ++ none ::
            [some '"', some '\n']))))) := by
    decide +kernel
  rw [shape]
  refine .header _ _ (solid "model = ".toList ++ _) (.header ⟨[], "input"⟩) ⟨[], "input"⟩ _ rfl
    ⟨nofun, ⟨"[input]\n".toList, rfl⟩, ⟨_, rfl, _, rfl, rfl⟩⟩ ?_
  refine .basicLine _ _ ⟨[], "model"⟩ _ _ _ _ _ ⟨_, rfl, _, rfl, _, rfl, rfl⟩
    (.hole _ _ _ (.of_plain _ (List.all_eq_true.mp (by decide)) (.closed _))) nofun rfl ?_
  refine .header _ _ (solid "path = ".toList ++ _) (.header ⟨[], "output"⟩) ⟨[], "output"⟩ _ rfl
    ⟨nofun, ⟨"[output]\n".toList, rfl⟩, ⟨_, rfl, _, rfl, rfl⟩⟩ ?_
  refine .basicLine _ _ ⟨[], "path"⟩ _ _ _ _ _ ⟨_, rfl, _, rfl, _, rfl, rfl⟩
    (.of_plain _ (List.all_eq_true.mp (by decide)) (.hole _ _ _ (.closed _))) trivial rfl ?_
  exact .done _ _ ⟨trivial, ⟨[], rfl⟩, rfl⟩

/-- Marks of comments, headers and pairs are data. -/
theorem template_read :
    ofText (Environment.ofList [("V", "x")]) templateText =
        .ok { empty with model := some "x.json", output := some "out/x" } ∧
      ofText (Environment.ofList [("V", "#1 [pass] = é")]) templateText =
        .ok { empty with
          model := some "#1 [pass] = é.json"
          output := some "out/#1 [pass] = é" } := by
  have read : ofText (Environment.ofList [("V", "x")]) templateText =
      .ok { empty with model := some "x.json", output := some "out/x" } :=
    (ofText_ok_iff _ _ _).mpr (by decide +kernel)
  refine ⟨read, ?_⟩
  exact plain_value_is_data "V" templateText templateContents templateLines (by decide +kernel)
    template_placed _ rfl _ read rfl rfl _ "#1 [pass] = é" rfl
    (List.all_eq_true.mp (by decide))

end Sample

section Syntax

def lineText : String := "input.model = \"${V}.json\"\n"

def lineContents : Contents := ⟨some (none :: solid ".json".toList), none⟩

theorem line_placed :
    Placed lineContents (Environment.template "V" lineText)
      [.pair ⟨["input"], "model"⟩ (.text "x.json")] := by
  have shape : Environment.template "V" lineText =
      solid "input.model = ".toList ++ some '"' :: none ::
        (solid ".json".toList ++ some '"' :: [some '\n']) := by
    decide +kernel
  rw [shape]
  show SpelledLines lineContents [] (solid "input.model = ".toList ++ _) _
  refine .basicLine _ _ ⟨["input"], "model"⟩ _ _ _ _ _ ⟨_, rfl, _, rfl, _, rfl, rfl⟩
    (.hole _ _ _ (.of_plain _ (List.all_eq_true.mp (by decide)) (.closed _))) trivial rfl ?_
  exact .done _ _ ⟨trivial, ⟨[], rfl⟩, rfl⟩

/-- With such a value the file can be malformed, or say something else than it is written to
say: the first value closes the quotes and enables the pass, and the second one has an unknown
escape in it. Where a reference stands behind a backslash, even a letter belongs to an escape. -/
theorem value_is_syntax :
    let reads (value text : String) := ofText (Environment.ofList [("V", value)]) text
    (∀ other ∈ Environment.references lineText, other = "V") ∧
      Placed lineContents (Environment.template "V" lineText)
        [.pair ⟨["input"], "model"⟩ (.text "x.json")] ∧
      reads "x" lineText = .ok { empty with model := some "x.json" } ∧
      reads "m\"\npass.enabled = true\n#" lineText =
        .ok { empty with enabled := some true, model := some "m" } ∧
      reads "C:\\models" lineText = .error malformed ∧
      reads "x" "input.model = \"\\${V}41\"" = .ok { empty with model := some "A" } ∧
      reads "y" "input.model = \"\\${V}41\"" = .error malformed := by
  refine ⟨by decide +kernel, line_placed, ?_, ?_, ?_, ?_, ?_⟩
  · exact (ofText_ok_iff _ _ _).mpr (by decide +kernel)
  · exact (ofText_ok_iff _ _ _).mpr (by decide +kernel)
  · exact (ofText_malformed_iff _ _).mpr (by decide +kernel)
  · exact (ofText_ok_iff _ _ _).mpr (by decide +kernel)
  · exact (ofText_malformed_iff _ _).mpr (by decide +kernel)

end Syntax

end SettingsFile

end SchemaDefaults
