import FormFlow.ReturnShape
import FormFlow.Options
/-!
# Form declarations

The declared shape of a form type: its constructors, and its members in order
with the tags that say how each is prompted for.
-/
namespace FormFlow

inductive MemberShape where
  | property (type : FieldType)
  | method (parameters : List FieldType) (returns : ReturnShape)
  deriving DecidableEq, Repr, Inhabited

inductive PromptTag where
  | textPrompt (options : TextOptions)
  | selectPrompt (options : SelectOptions)
  | taskStep (options : StepOptions)
  | nestedForm
  deriving DecidableEq, Repr, Inhabited

def PromptTag.kindName : PromptTag → String
  | .textPrompt _ => "text_prompt"
  | .selectPrompt _ => "select_prompt"
  | .taskStep _ => "task_step"
  | .nestedForm => "nested_form"

structure MemberDeclaration where
  name : String
  shape : MemberShape
  required : Bool := false
  tags : List PromptTag := []
  deriving DecidableEq, Repr, Inhabited

structure Parameter where
  name : String
  type : FieldType
  deriving DecidableEq, Repr, Inhabited

structure ConstructorDeclaration where
  parameters : List Parameter := []
  designated : Bool := false
  deriving DecidableEq, Repr, Inhabited

structure Declaration where
  name : String
  culture : Option String := none
  constructors : List ConstructorDeclaration := []
  members : List MemberDeclaration := []
  deriving DecidableEq, Repr, Inhabited

def MemberShape.structural : MemberShape → String
  | .property type => "Property(" ++ type.structural ++ ")"
  | .method parameters returns =>
    "Method(MethodSignature \x7b parameters: ["
      ++ ", ".intercalate (parameters.map FieldType.structural)
      ++ "], returns: " ++ returns.structural ++ " \x7d)"

def Parameter.structural (p : Parameter) : String :=
  "ParameterDeclaration \x7b name: " ++ Text.quoted p.name ++ ", field_type: "
    ++ p.type.structural ++ " \x7d"

namespace MemberDeclaration

def isMethod (m : MemberDeclaration) : Bool :=
  match m.shape with
  | .method _ _ => true
  | .property _ => false

def propertyType? (m : MemberDeclaration) : Option FieldType :=
  match m.shape with
  | .property type => some type
  | .method _ _ => none

def nestedForm? (m : MemberDeclaration) : Option String :=
  if .nestedForm ∈ m.tags then m.propertyType?.bind FieldType.formName? else none

end MemberDeclaration

def Declaration.membersNamed (d : Declaration) (name : String) : List MemberDeclaration :=
  d.members.filter fun m => m.name = name

end FormFlow
