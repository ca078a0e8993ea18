import FormFlow.Declaration.Encoding
/-!
# Form models

The structural model of a form type: its prompted members in order and, once
the constructor is chosen, the dependencies that come before them.
-/
namespace FormFlow

inductive ConstructionStrategy where
  | default
  | singleExplicit (parameters : List Parameter)
  | markedExplicit (parameters : List Parameter)
  deriving DecidableEq, Repr, Inhabited

namespace ConstructionStrategy

def parameters : ConstructionStrategy → List Parameter
  | .default => []
  | .singleExplicit parameters => parameters
  | .markedExplicit parameters => parameters

def encode : ConstructionStrategy → Json
  | .default => .obj [("type", .str "default")]
  | .singleExplicit parameters =>
    .obj [("parameters", .arr (parameters.map Parameter.encode)), ("type", .str "single_explicit")]
  | .markedExplicit parameters =>
    .obj [("parameters", .arr (parameters.map Parameter.encode)), ("type", .str "marked_explicit")]

def structural : ConstructionStrategy → String
  | .default => "Default"
  | .singleExplicit parameters =>
    "SingleExplicit([" ++ ", ".intercalate (parameters.map Parameter.structural) ++ "])"
  | .markedExplicit parameters =>
    "MarkedExplicit([" ++ ", ".intercalate (parameters.map Parameter.structural) ++ "])"

end ConstructionStrategy

inductive DependencySource where
  | constructorParameter
  | requiredProperty
  deriving DecidableEq, Repr, Inhabited

def DependencySource.render : DependencySource → String
  | .constructorParameter => "constructor_parameter"
  | .requiredProperty => "required_property"

inductive MemberKind where
  | textPrompt (options : TextOptions)
  | selectPrompt (options : SelectOptions)
  | taskStep (isAsync : Bool) (options : StepOptions)
  | nestedForm (form : String)
  | dependency (source : DependencySource)
  deriving DecidableEq, Repr, Inhabited

def MemberKind.label : MemberKind → String
  | .textPrompt _ => "text"
  | .selectPrompt _ => "select"
  | .taskStep _ _ => "step"
  | .nestedForm _ => "nested"
  | .dependency _ => "dependency"

structure MemberSpec where
  name : String
  /-- The type of a property, or of what a step finally returns. -/
  declaredType : Option FieldType
  kind : MemberKind
  deriving DecidableEq, Repr, Inhabited

namespace MemberSpec

def isDependency (m : MemberSpec) : Bool :=
  match m.kind with
  | .dependency _ => true
  | _ => false

/-- A prompted member gets its value from the run itself. -/
def isPrompted (m : MemberSpec) : Bool :=
  match m.kind with
  | .textPrompt _ | .selectPrompt _ | .nestedForm _ => true
  | .taskStep _ _ | .dependency _ => false

end MemberSpec

structure Model where
  typeName : String
  culture : Option String
  members : List MemberSpec
  deriving DecidableEq, Repr, Inhabited

namespace Model

def member? (m : Model) (name : String) : Option MemberSpec :=
  m.members.find? fun spec => spec.name = name

def dependencies (m : Model) : List MemberSpec := m.members.filter MemberSpec.isDependency

end Model
end FormFlow
