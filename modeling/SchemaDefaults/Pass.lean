import SchemaDefaults.Extraction
import SchemaDefaults.Failure
import SchemaDefaults.Reporter
/-!
The pass and its report. It visits every field of every class once, in order. A field without
a marker is left alone. Of several markers the first one counts and each other one is warned
about; all of them are acknowledged. The extracted literal becomes the field's initializer, and a
field from which none can be extracted is reported and left as it was. Only a refused fatal
diagnostic ends the run early: the field that it is about and all later ones are then left alone.
-/

namespace SchemaDefaults

inductive Outcome where
  | injected (literal : Literal)
  | rejected (message : String)
deriving DecidableEq, Repr

structure FieldReport where
  className : String
  fieldName : String
  outcome : Outcome
deriving DecidableEq, Repr

/-- `fields` are the fields with a marker in visiting order, and `acknowledged` are the
customizations that the run has consumed. -/
structure Report where
  enabled : Bool
  classesVisited : Nat
  fieldsVisited : Nat
  fields : List FieldReport
  acknowledged : IdSet
  warnings : Nat
  fatals : Nat
deriving DecidableEq, Repr

namespace Outcome

def literal? : Outcome → Option Literal
  | injected literal => some literal
  | rejected _ => none

def members : Outcome → Members
  | injected literal => [("outcome", .string "injected"), ("expr", literal.toJson)]
  | rejected message => [("outcome", .string "rejected"), ("message", .string message)]

end Outcome

def FieldReport.toJson (r : FieldReport) : Json :=
  .object ([("class", .string r.className), ("field", .string r.fieldName)] ++
    r.outcome.members)

namespace Report

def succeeded (r : Report) : Bool := r.fatals = 0

def injected (r : Report) : List (FieldReport × Literal) :=
  r.fields.filterMap fun field => field.outcome.literal?.map (field, ·)

/-- A run with fatal diagnostics is a failure. -/
def result (r : Report) : Except Failure Report :=
  if r.succeeded then .ok r else .error (.rejected r.fatals)

def toJson (r : Report) : Json :=
  .object [("enabled", .bool r.enabled),
    ("classes_visited", .number (.natural r.classesVisited)),
    ("fields_visited", .number (.natural r.fieldsVisited)),
    ("fields", .array (r.fields.map FieldReport.toJson)),
    ("acknowledged", .array (r.acknowledged.keys.map CustomizationId.toJson)),
    ("warnings", .number (.natural r.warnings)),
    ("fatals", .number (.natural r.fatals))]

end Report

structure PassOptions where
  enabled : Bool
  policy : Policy
deriving DecidableEq, Repr

def PassOptions.dormant : PassOptions := ⟨false, .schemaDefault⟩

structure Resolution where
  canonical : Customization
  acknowledged : List CustomizationId
deriving DecidableEq, Repr

namespace Pass

variable {σ : Type}

section Resolving

def extraWarning (m : Match) : Diagnostic :=
  ⟨.warning, Extraction.extraCustomization, m.customization.location⟩

def warnExtras (channel : Sink σ) : List Match → Reporter σ → Reporter σ
  | [], r => r
  | extra :: rest, r => warnExtras channel rest (r.warn channel (extraWarning extra))

def resolve (channel : Sink σ) (className fieldName : String) :
    List Match → Reporter σ → Option Resolution × Reporter σ
  | [], r => (none, r)
  | first :: extras, r =>
    let ids := (first :: extras).map fun m => ⟨className, fieldName, m.ordinal⟩
    (some ⟨first.customization, ids⟩, warnExtras channel extras r)

end Resolving

section Fields

/-- What a visit leaves behind. Without a failure there is an outcome for each field with a
marker and none for the others. -/
structure Visit (σ : Type) where
  field : Field
  outcome : Option Outcome
  acknowledged : List CustomizationId
  reporter : Reporter σ
  failure : Option Failure

def fieldEvent (className : String) (f : Field) (text : String) : Event :=
  .plain .debug .pass (className ++ "." ++ f.name ++ ": " ++ text)

def injectEvents (className : String) (f : Field) (literal : Literal) : List Event :=
  let set := fieldEvent className f ("initializer set to " ++ literal.text)
  match f.initializer? with
  | some previous =>
    if previous = literal then [set]
    else [fieldEvent className f
      ("replaced initializer " ++ previous.text ++ " with " ++ literal.text), set]
  | none => [set]

def reject (channel : Sink σ) (className : String) (f : Field) (r : Resolution)
    (d : Diagnostic) (reporter : Reporter σ) : Visit σ :=
  match (reporter.note [fieldEvent className f d.message]).fatal channel d with
  | (some failure, reporter) => ⟨f, none, r.acknowledged, reporter, some failure⟩
  | (none, reporter) => ⟨f, some (.rejected d.message), r.acknowledged, reporter, none⟩

def visitField (channel : Sink σ) (policy : Policy) (className : String) (f : Field)
    (reporter : Reporter σ) : Visit σ :=
  match resolve channel className f.name f.markers reporter with
  | (none, reporter) => ⟨f, none, [], reporter, none⟩
  | (some resolution, reporter) =>
    match Extraction.extract policy f resolution.canonical with
    | .error d => reject channel className f resolution d reporter
    | .ok literal =>
      match f.declaration with
      -- A literal needs a declaration to carry it, whatever the policy has found.
      | none =>
        reject channel className f resolution
          ⟨.fatal, Extraction.missingField, Extraction.place f resolution.canonical⟩ reporter
      | some _ =>
        ⟨f.inject literal, some (.injected literal), resolution.acknowledged,
          reporter.note (injectEvents className f literal), none⟩

end Fields

section Traversal

structure FieldsVisit (σ : Type) where
  fields : List Field
  visited : Nat
  reports : List FieldReport
  acknowledged : List CustomizationId
  reporter : Reporter σ
  failure : Option Failure

def visitFields (channel : Sink σ) (policy : Policy) (className : String) :
    List Field → Reporter σ → FieldsVisit σ
  | [], reporter => ⟨[], 0, [], [], reporter, none⟩
  | f :: rest, reporter =>
    let visit := visitField channel policy className f reporter
    match visit.failure with
    | some failure =>
      ⟨visit.field :: rest, 1, [], visit.acknowledged, visit.reporter, some failure⟩
    | none =>
      let later := visitFields channel policy className rest visit.reporter
      let report := visit.outcome.map fun outcome => ⟨className, f.name, outcome⟩
      ⟨visit.field :: later.fields, later.visited + 1, report.toList ++ later.reports,
        visit.acknowledged ++ later.acknowledged, later.reporter, later.failure⟩

structure ClassesVisit (σ : Type) where
  classes : List GeneratedClass
  classesVisited : Nat
  fieldsVisited : Nat
  reports : List FieldReport
  acknowledged : List CustomizationId
  reporter : Reporter σ
  failure : Option Failure

def visitClasses (channel : Sink σ) (policy : Policy) :
    List GeneratedClass → Reporter σ → ClassesVisit σ
  | [], reporter => ⟨[], 0, 0, [], [], reporter, none⟩
  | c :: rest, reporter =>
    let visit := visitFields channel policy c.name c.fields reporter
    let visited := { c with fields := visit.fields }
    match visit.failure with
    | some failure =>
      ⟨visited :: rest, 1, visit.visited, visit.reports, visit.acknowledged, visit.reporter,
        some failure⟩
    | none =>
      let later := visitClasses channel policy rest visit.reporter
      ⟨visited :: later.classes, later.classesVisited + 1,
        visit.visited + later.fieldsVisited, visit.reports ++ later.reports,
        visit.acknowledged ++ later.acknowledged, later.reporter, later.failure⟩

end Traversal

section Runs

/-- The classes are those that a run leaves behind, also when it fails. -/
structure Run (σ : Type) where
  classes : List GeneratedClass
  result : Except Failure Report
  sink : σ
  journal : List Event

def event (level : Level) (message : String) : Event := .plain level .pass message

def startEvent (policy : Policy) (classes : List GeneratedClass) : Event :=
  event .debug ("Running initializer pass over " ++ toString classes.length ++ " classes (" ++
    policy.name ++ " policy)")

def dormantEvent : Event :=
  event .debug ("Pass is dormant; pass -" ++ Marker.optionName ++ " to enable it")

def finishEvents (report : Report) (dropped : Nat) : List Event :=
  let undelivered :=
    if 0 < dropped then
      [event .debug (toString dropped ++ " warnings could not be delivered")]
    else []
  undelivered ++ [event .info
    ("Initializer pass finished: " ++ toString report.fieldsVisited ++ " fields visited, " ++
      toString report.injected.length ++ " injected, " ++ toString report.warnings ++
      " warnings, " ++ toString report.fatals ++ " errors")]

def dormantReport : Report := ⟨false, 0, 0, [], SortedMap.empty, 0, 0⟩

def ClassesVisit.report (v : ClassesVisit σ) : Report :=
  { enabled := true
    classesVisited := v.classesVisited
    fieldsVisited := v.fieldsVisited
    fields := v.reports
    acknowledged := IdSet.ofList v.acknowledged
    warnings := v.reporter.warnings
    fatals := v.reporter.fatals }

def runEnabled (channel : Sink σ) (policy : Policy) (classes : List GeneratedClass)
    (sink : σ) : Run σ :=
  let reporter := (Reporter.start sink).note [startEvent policy classes]
  let visit := visitClasses channel policy classes reporter
  match visit.failure with
  | some failure =>
    ⟨visit.classes, .error failure, visit.reporter.sink, visit.reporter.journal⟩
  | none =>
    let report := visit.report
    let journal := visit.reporter.journal ++ finishEvents report visit.reporter.dropped
    ⟨visit.classes, .ok report, visit.reporter.sink, journal⟩

/-- A dormant run touches nothing and calls no sink. -/
def run (channel : Sink σ) (options : PassOptions) (classes : List GeneratedClass)
    (sink : σ) : Run σ :=
  if options.enabled then runEnabled channel options.policy classes sink
  else ⟨classes, .ok dormantReport, sink, [dormantEvent]⟩

end Runs

end Pass

end SchemaDefaults
