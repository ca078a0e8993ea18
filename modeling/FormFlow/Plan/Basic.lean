import FormFlow.Resolution
import FormFlow.Model.Construction
/-!
# Execution plans

The ordered, fully resolved operations of a form type. A nested form is an
operation that owns the plan of its form.
-/
namespace FormFlow

/-- A value that the caller must supply. -/
structure Dependency where
  name : String
  declaredType : Option FieldType
  deriving DecidableEq, Repr, Inhabited

structure PlanOf (Op : Type) where
  typeName : String
  culture : Option String
  strategy : ConstructionStrategy
  dependencies : List Dependency
  operations : List Op

inductive Operation where
  | askText (member title : String) (type : FieldType) (secret : Bool) (search : SearchOptions)
      (culture : Option String)
  | askSelect (member title : String) (source : Source) (converter : Option Converter)
      (search : SearchOptions) (culture : Option String)
  | runStep (member : String) (isAsync : Bool) (status : StepOptions) (body : StepBody)
  | recurse (member : String) (plan : PlanOf Operation)

abbrev Plan := PlanOf Operation

namespace Operation

def member : Operation → String
  | .askText member _ _ _ _ _ => member
  | .askSelect member _ _ _ _ _ => member
  | .runStep member _ _ _ => member
  | .recurse member _ => member

def label : Operation → String
  | .askText _ _ _ _ _ _ => "ask-text"
  | .askSelect _ _ _ _ _ _ => "ask-select"
  | .runStep _ _ _ _ => "run-step"
  | .recurse _ _ => "recurse"

mutual
/-- The operation, or one nested in it, awaits asynchronous work of its own. -/
def isAsync : Operation → Bool
  | .askText _ _ _ _ _ _ => false
  | .askSelect _ _ _ _ _ _ => false
  | .runStep _ isAsync _ _ => isAsync
  | .recurse _ ⟨_, _, _, _, operations⟩ => anyAsync operations

def anyAsync : List Operation → Bool
  | [] => false
  | op :: rest => isAsync op || anyAsync rest
end

end Operation

namespace PlanOf

def isAsync (plan : Plan) : Bool := Operation.anyAsync plan.operations

def isEmpty (plan : Plan) : Bool := plan.operations.isEmpty

/-- The first dependency that the supplied values leave unset. -/
def missingDependency? (plan : Plan) (supplied : Fields) : Option Dependency :=
  plan.dependencies.find? fun dep =>
    match Assoc.get? supplied dep.name with
    | some value => value.isNull
    | none => true

end PlanOf

/-- The dotted path of a member below a path; the root's path is empty. -/
def joinPath (base member : String) : String :=
  if base = "" then member else base ++ "." ++ member

@[simp] theorem joinPath_empty (member : String) : joinPath "" member = member := if_pos rfl

theorem joinPath_of_ne {base : String} (h : base ≠ "") (member : String) :
    joinPath base member = base ++ "." ++ member := if_neg h

end FormFlow
