import FormFlow.Declaration.Basic
/-!
# Encoded declarations

A declaration as a data value. A variant with data is an object of one entry
and a variant without data its bare name; flags that are off, empty tag and
constructor lists and an unset culture are left out.
-/
namespace FormFlow

def MemberShape.encode : MemberShape → Json
  | .property type => .obj [("property", type.encode)]
  | .method parameters returns =>
    .obj [("method", .obj [("parameters", .arr (parameters.map FieldType.encode)),
      ("returns", returns.encode)])]

def PromptTag.encode : PromptTag → Json
  | .textPrompt options => .obj [("text_prompt", options.encode)]
  | .selectPrompt options => .obj [("select_prompt", options.encode)]
  | .taskStep options => .obj [("task_step", options.encode)]
  | .nestedForm => .str "nested_form"

def flagEntry (key : String) (flag : Bool) : List (String × Json) :=
  if flag then [(key, .bool true)] else []

def listEntry (key : String) (items : List Json) : List (String × Json) :=
  if items.isEmpty then [] else [(key, .arr items)]

def MemberDeclaration.encode (m : MemberDeclaration) : Json :=
  .ofEntries ([("name", .str m.name), ("shape", m.shape.encode)]
    ++ flagEntry "required" m.required ++ listEntry "tags" (m.tags.map PromptTag.encode))

def Parameter.encode (p : Parameter) : Json :=
  .obj [("name", .str p.name), ("type", p.type.encode)]

def ConstructorDeclaration.encode (c : ConstructorDeclaration) : Json :=
  .ofEntries ([("parameters", .arr (c.parameters.map Parameter.encode))]
    ++ flagEntry "designated" c.designated)

def Declaration.encode (d : Declaration) : Json :=
  .ofEntries ([("name", .str d.name)] ++ optionalEntry "culture" d.culture
    ++ listEntry "constructors" (d.constructors.map ConstructorDeclaration.encode)
    ++ [("members", .arr (d.members.map MemberDeclaration.encode))])

end FormFlow
