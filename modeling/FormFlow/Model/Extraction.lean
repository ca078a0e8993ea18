import FormFlow.Log
/-!
# Extraction of models

The tagged members of a declaration, in order. A tagged member carries one
tag, its name is not that of an earlier tagged member, and the tag fits its
shape; the first member that breaks a rule is reported, by the first of these
rules that it breaks.
-/
namespace FormFlow

def MemberDeclaration.kindOf (m : MemberDeclaration) (tag : PromptTag) :
    Except TagMisfit (Option FieldType × MemberKind) :=
  match tag, m.shape with
  | .textPrompt options, .property type =>
    if type.isScalar then .ok (some type, .textPrompt options) else .error (.textNotScalar type)
  | .selectPrompt options, .property type =>
    match type with
    | .form _ => .error (.selectOfForm type)
    | _ => .ok (some type, .selectPrompt options)
  | .nestedForm, .property type =>
    match type with
    | .form name => .ok (some type, .nestedForm name)
    | _ => .error (.nestedNotForm type)
  | .taskStep options, .method [] returns =>
    .ok (returns.settledType?, .taskStep returns.isDeferred options)
  | .taskStep _, .method parameters _ => .error (.stepParameters parameters.length)
  | .taskStep _, .property _ => .error .stepNotMethod
  | tag, .method _ _ => .error (.notProperty tag.kindName)

/-- The specification of a member after tagged members of the given names; none for a member
without tags. -/
def MemberDeclaration.extract (form : String) (seen : List String) (m : MemberDeclaration) :
    Except ModelError (Option MemberSpec) :=
  match m.tags with
  | [] => .ok none
  | [tag] =>
    if m.name ∈ seen then .error (.duplicateMember form m.name)
    else
      match m.kindOf tag with
      | .ok (type, kind) => .ok (some ⟨m.name, type, kind⟩)
      | .error misfit => .error (.invalidMemberType form m.name misfit)
  | tags => .error (.conflictingTags form m.name (tags.map PromptTag.kindName))

def extractAfter (form : String) (seen : List String) :
    List MemberDeclaration → Except ModelError (List MemberSpec)
  | [] => .ok []
  | m :: rest =>
    match m.extract form seen with
    | .error error => .error error
    | .ok none => extractAfter form seen rest
    | .ok (some spec) => (extractAfter form (m.name :: seen) rest).map (spec :: ·)

def Declaration.extract (d : Declaration) : Except ModelError Model :=
  (extractAfter d.name [] d.members).map fun members => ⟨d.name, d.culture, members⟩

def MemberSpec.statusLog (form : String) (m : MemberSpec) : List LogEvent :=
  match m.kind with
  | .taskStep false options => if options.useStatus then [.statusIgnored form m.name] else []
  | _ => []

def extractLogAfter (form : String) (seen : List String) : List MemberDeclaration → List LogEvent
  | [] => []
  | m :: rest =>
    match m.extract form seen with
    | .error _ => []
    | .ok none => extractLogAfter form seen rest
    | .ok (some spec) => spec.statusLog form ++ extractLogAfter form (m.name :: seen) rest

def Declaration.extractTraced (d : Declaration) : Traced Model :=
  .of (extractLogAfter d.name [] d.members ++
    match d.extract with
    | .ok model => [.modelExtracted d.name model.members.length]
    | .error _ => []) d.extract

end FormFlow
