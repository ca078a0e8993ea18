import FormFlow.CommandLine.Assignment
import FormFlow.Plan.Summary
import FormFlow.Report.Basic
import FormFlow.Report.Table
/-!
# Reports on a form

The plan of a form, and the run of a form on assigned values. Values that were
asked for as secrets are not shown: a mask takes the place of each one that is
set, in nested forms as well.
-/
namespace FormFlow

def Dependency.encode (d : Dependency) : Json :=
  .obj [("declared_type", (d.declaredType.map FieldType.encode).getD .null), ("name", .str d.name)]

def Dependency.render (d : Dependency) : String :=
  match d.declaredType with
  | some type => s!"{d.name} ({type.render})"
  | none => d.name

namespace PlanOf

def encodeSummary (plan : Plan) : Json :=
  .ofEntries [("form", .str plan.typeName), ("culture", .ofOption plan.culture),
    ("constructor", plan.strategy.encode),
    ("dependencies", .arr (plan.dependencies.map Dependency.encode)),
    ("async", .bool plan.isAsync), ("operations", .arr (plan.summary.map SummaryRow.encode))]

def requirementLines (plan : Plan) : List String :=
  if plan.dependencies.isEmpty then []
  else ["  Requires: " ++ ", ".intercalate (plan.dependencies.map Dependency.render)]

def summaryCells (row : SummaryRow) (number : Nat) : List String :=
  [toString number, Table.blanks (2 * row.depth) ++ row.path, row.operation, row.detail]

def table (plan : Plan) : Table :=
  ⟨["#", "Member", "Operation", "Detail"],
    (plan.summary.zipIdx 1).map fun (row, number) => summaryCells row number⟩

end PlanOf

def planReport (json : Bool) (plan : Plan) : Report :=
  if json then .ofJson plan.encodeSummary
  else
    .ofLines (["", "  ▸ Plan for " ++ plan.typeName] ++ plan.requirementLines ++ [""]
      ++ plan.table.lines ++ [""])

def notCompiled (form : String) (e : ModelError) : Report :=
  .failed [s!"Failed to compile form '{form}'", e.message]

def secretMask : Json := .str "********"

mutual
def Operation.maskSecrets (fields : Fields) : Operation → Fields
  | .askText member _ _ true _ _ =>
    match Assoc.get? fields member with
    | some value => if value.isNull then fields else Assoc.insert fields member secretMask
    | none => fields
  | .recurse member ⟨_, _, _, _, operations⟩ =>
    match Assoc.get? fields member with
    | some (.obj child) => Assoc.insert fields member (.obj (Operation.maskAll child operations))
    | _ => fields
  | .askText _ _ _ false _ _ => fields
  | .askSelect _ _ _ _ _ _ => fields
  | .runStep _ _ _ _ => fields

def Operation.maskAll (fields : Fields) : List Operation → Fields
  | [] => fields
  | op :: rest => Operation.maskAll (Operation.maskSecrets fields op) rest
end

/-- A value as the plan allows it to be shown. -/
def PlanOf.maskSecrets (plan : Plan) (value : Json) : Json :=
  match value with
  | .obj fields => .obj (Operation.maskAll fields plan.operations)
  | value => value

def completedReport (json : Bool) (form : String) (values : Json) : Report :=
  if json then
    .ofJson (.ofEntries
      [("form", .str form), ("state", .str "completed"), ("values", values)])
  else .ofLines ["", s!"  ✓ {form} completed", "", values.pretty, ""]

def failedReport (json : Bool) (form : String) (failure : RunFailure) (reached : Json) : Report :=
  let path := failure.error.path
  let report : Report :=
    if json then
      .ofJson (.ofEntries
        [("form", .str form), ("state", .str "failed"), ("run_id", .str failure.runId),
          ("failed_member", .str path), ("error", .str failure.error.message),
          ("partial", reached)])
    else if failure.error.isCancelled then
      { notice := textLines ["", s!"  ! Cancelled at '{path}'", ""] }
    else
      { notice := textLines ["", s!"  ✗ {form} failed at '{path}'", "  " ++ reached.compact, ""] }
  { report with failure := (FormError.run failure).messages }

def runReport (json : Bool) (form : String) (plan : Plan) (result : Except FormError Instance) :
    Report :=
  match result with
  | .ok inst => completedReport json form (plan.maskSecrets inst.toValue)
  | .error (.run failure) =>
    failedReport json form failure (plan.maskSecrets failure.reached.toValue)
  | .error e => .failed (s!"Failed to run form '{form}'" :: e.messages)

namespace Factory

def showPlan (f : Factory) (form : String) (json : Bool) : Called Report :=
  let planned := f.plan form
  match planned.value with
  | .error e => ⟨planned.events, notCompiled form e, planned.factory⟩
  | .ok plan => ⟨planned.events, planReport json plan, planned.factory⟩

def runForm (f : Factory) (form : String) (assignments : List String) (json : Bool) :
    Called Report :=
  match assign assignments with
  | .error e => ⟨[], .failed [e.message], f⟩
  | .ok supplied =>
    let planned := f.plan form
    match planned.value with
    | .error e => ⟨planned.events, notCompiled form e, planned.factory⟩
    | .ok plan =>
      let built := planned.factory.build form supplied
      ⟨planned.events ++ built.events, runReport json form plan built.value, built.factory⟩

end Factory
end FormFlow
