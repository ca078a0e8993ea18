import FormFlow.Nesting
import FormFlow.Report.Basic
import FormFlow.Report.Table
/-!
# Reports on a catalog

The list of all forms with the shape of their plans, and the check that every
form can be compiled, in an order in which nested forms come first.
-/
namespace FormFlow

abbrev Planned := String × Except ModelError Plan

namespace Planned

def dependencyNames (plan : Plan) : List String := plan.dependencies.map Dependency.name

def listEntry : Planned → Json
  | (name, .ok plan) =>
    .ofEntries [("form", .str name), ("operations", .ofNat plan.operations.length),
      ("dependencies", .strings (dependencyNames plan)), ("async", .bool plan.isAsync)]
  | (name, .error e) => .ofEntries [("form", .str name), ("error", .str e.message)]

def listRow : Planned → List String
  | (name, .ok plan) =>
    [name, toString plan.operations.length,
      if plan.dependencies.isEmpty then "-" else ", ".intercalate (dependencyNames plan),
      if plan.isAsync then "async" else "sync"]
  | (name, .error e) => [name, "-", "-", "✗ " ++ e.message]

def defect? : Planned → Option String
  | (_, .ok _) => none
  | (_, .error e) => some e.message

def checkEntry (p : Planned) : Json :=
  .ofEntries [("form", .str p.1), ("ok", .bool p.defect?.isNone), ("error", .ofOption p.defect?)]

def checkLine (p : Planned) : String :=
  match p.defect? with
  | none => "  ✓ " ++ p.1
  | some message => "  ✗ " ++ p.1 ++ ": " ++ message

end Planned

def listReport (json : Bool) (forms : List Planned) : Report :=
  if json then .ofJson (.arr (forms.map Planned.listEntry))
  else if forms.isEmpty then .ofLines ["", "  i No forms in the catalog.", ""]
  else
    .ofLines (Table.lines
      ⟨["Form", "Operations", "Dependencies", "Mode"], forms.map Planned.listRow⟩)

def checkReport (json : Bool) (forms : List Planned) : Report :=
  let failures := forms.filterMap Planned.defect?
  let report : Report :=
    if json then .ofJson (.arr (forms.map Planned.checkEntry))
    else .ofLines ([""] ++ forms.map Planned.checkLine ++ [""])
  if failures.isEmpty then report
  else
    { report with
      failure := [s!"{failures.length} of {forms.length} forms failed to compile"] }

namespace Factory

def listForms (f : Factory) (json : Bool) : Called Report :=
  let planned := f.plans f.catalog.typeNames
  ⟨planned.events, listReport json planned.value, planned.factory⟩

def checkForms (f : Factory) (json : Bool) : Called Report :=
  match f.catalog.nestingOrder with
  | .error e => ⟨[], .failed ["Nested-form graph is invalid", e.message], f⟩
  | .ok order =>
    let planned := f.plans order
    ⟨planned.events, checkReport json planned.value, planned.factory⟩

end Factory
end FormFlow
