import FormFlow.Plan.Basic
/-!
# Plan summaries

A plan as a flat list of rows in the order of execution, nested operations
right after the operation that nests them.
-/
namespace FormFlow

structure SummaryRow where
  path : String
  operation : String
  depth : Nat
  detail : String
  deriving DecidableEq, Repr, Inhabited

def SummaryRow.encode (row : SummaryRow) : Json :=
  .obj [("depth", .ofNat row.depth), ("detail", .str row.detail),
    ("operation", .str row.operation), ("path", .str row.path)]

namespace Operation

def detail : Operation → String
  | .askText _ title type secret _ _ =>
    "\"" ++ title ++ "\" (" ++ type.render ++ (if secret then ", secret" else "") ++ ")"
  | .askSelect _ title source converter _ _ =>
    "\"" ++ title ++ "\" from " ++ source.name ++
      match converter with
      | some converter => " via " ++ converter.name
      | none => ""
  | .runStep _ isAsync status _ =>
    if isAsync then (if status.useStatus then "async, with status" else "async") else "sync"
  | .recurse _ plan => "form " ++ plan.typeName

mutual
def summaryRows (base : String) (depth : Nat) : Operation → List SummaryRow
  | .askText member title type secret search culture =>
    [⟨joinPath base member, "ask-text", depth,
      detail (.askText member title type secret search culture)⟩]
  | .askSelect member title source converter search culture =>
    [⟨joinPath base member, "ask-select", depth,
      detail (.askSelect member title source converter search culture)⟩]
  | .runStep member isAsync status body =>
    [⟨joinPath base member, "run-step", depth, detail (.runStep member isAsync status body)⟩]
  | .recurse member ⟨typeName, culture, strategy, dependencies, operations⟩ =>
    ⟨joinPath base member, "recurse", depth,
      detail (.recurse member ⟨typeName, culture, strategy, dependencies, operations⟩)⟩
      :: allSummaryRows (joinPath base member) (depth + 1) operations

def allSummaryRows (base : String) (depth : Nat) : List Operation → List SummaryRow
  | [] => []
  | op :: rest => summaryRows base depth op ++ allSummaryRows base depth rest
end

end Operation

def PlanOf.summary (plan : Plan) : List SummaryRow :=
  Operation.allSummaryRows "" 0 plan.operations

end FormFlow
