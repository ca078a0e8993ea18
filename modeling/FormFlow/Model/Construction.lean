import FormFlow.Log
/-!
# Construction and dependencies

The constructor of a form type: the designated one; else the only one; else,
among several, one without parameters; else, where none is declared, the
implicit one. Its parameters and the required untagged properties become the
dependencies of the model and come before the prompted members.
-/
namespace FormFlow

def Declaration.chooseConstructor (d : Declaration) : Except ModelError ConstructionStrategy :=
  match d.constructors.filter ConstructorDeclaration.designated with
  | [marked] => .ok (.markedExplicit marked.parameters)
  | _ :: _ :: _ => .error (.ambiguousConstructor d.name)
  | [] =>
    match d.constructors with
    | [] => .ok .default
    | [only] => .ok (if only.parameters = [] then .default else .singleExplicit only.parameters)
    | several =>
      if several.any fun c => c.parameters = [] then .ok .default
      else .error (.ambiguousConstructor d.name)

def parameterDependencies (form : String) (model : Model) (names : List String) :
    List Parameter → Except ModelError (List MemberSpec)
  | [] => .ok []
  | p :: rest =>
    if (model.member? p.name).any MemberSpec.isPrompted then
      .error (.conflictingDependency form p.name)
    else if p.name ∈ names then .error (.duplicateDependency form p.name)
    else (parameterDependencies form model (p.name :: names) rest).map
      (⟨p.name, some p.type, .dependency .constructorParameter⟩ :: ·)

def MemberDeclaration.requiredProperty? (m : MemberDeclaration) : Option (String × FieldType) :=
  if m.required && m.tags.isEmpty then m.propertyType?.map fun type => (m.name, type) else none

def propertyDependencies (form : String) (names : List String) :
    List (String × FieldType) → Except ModelError (List MemberSpec)
  | [] => .ok []
  | (name, type) :: rest =>
    if name ∈ names then .error (.duplicateDependency form name)
    else (propertyDependencies form (name :: names) rest).map
      (⟨name, some type, .dependency .requiredProperty⟩ :: ·)

def Declaration.dependencies (d : Declaration) (model : Model) (strategy : ConstructionStrategy) :
    Except ModelError (List MemberSpec) := do
  let ofParameters ← parameterDependencies d.name model [] strategy.parameters
  let ofProperties ← propertyDependencies d.name (ofParameters.map MemberSpec.name)
    (d.members.filterMap MemberDeclaration.requiredProperty?)
  .ok (ofParameters ++ ofProperties)

def Declaration.construct (d : Declaration) (model : Model) :
    Except ModelError (ConstructionStrategy × Model) := do
  let strategy ← d.chooseConstructor
  let dependencies ← d.dependencies model strategy
  .ok (strategy, { model with members := dependencies ++ model.members })

def Declaration.constructTraced (d : Declaration) (model : Model) :
    Traced (ConstructionStrategy × Model) :=
  .of (match d.construct model with
    | .ok (strategy, full) =>
      [.constructorResolved d.name strategy (full.members.length - model.members.length)]
    | .error _ => []) (d.construct model)

end FormFlow
