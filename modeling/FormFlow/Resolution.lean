import FormFlow.Model.Extraction
import FormFlow.Binding
/-!
# Resolved bindings

Every source, converter and step that a model names is looked up among the
declared members of its form, its signature is checked against the member that
names it, and the registered callable is attached. A run never looks a name up.
-/
namespace FormFlow

inductive Source where
  | property (name : String)
  | method (name : String) (call : Instance → Except StepError (List Json))

namespace Source

def name : Source → String
  | .property name => name
  | .method name _ => name

def structural : Source → String
  | .property name => s!"SourceHandle::Property({name})"
  | .method name _ => s!"SourceHandle::Method({name})"

/-- The candidates on an instance; an unset property has none. -/
def fetch (i : Instance) : Source → Except StepError (List Json)
  | .property name =>
    match i.get? name with
    | none | some .null => .ok []
    | some (.arr items) => .ok items
    | some other => .error (.failed (s!"choices source '{name}' is not a sequence: " ++ other.compact))
  | .method _ call => call i

end Source

structure Converter where
  name : String
  render : Json → String

def Converter.structural (c : Converter) : String := s!"ConverterHandle({c.name})"

def StepBody.structural : StepBody → String
  | .sync _ => "StepHandle::Sync"
  | .async _ => "StepHandle::Async"

inductive MemberBinding where
  | select (source : Source) (converter : Option Converter)
  | step (body : StepBody)

abbrev ResolvedBindings := Assoc MemberBinding

def MemberDeclaration.sourceElement? (m : MemberDeclaration) : Option FieldType :=
  match m.shape with
  | .property (.list element) => some element
  | .property _ => none
  | .method [] returns => returns.sequenceElement?
  | .method _ _ => none

def MemberDeclaration.convertsFrom (element : FieldType) (m : MemberDeclaration) : Bool :=
  match m.shape with
  | .method [parameter] returns => parameter.accepts element && returns = .value .text
  | _ => false

def Declaration.sourceMember (d : Declaration) (m : MemberSpec) (name : String) :
    Except ModelError (MemberDeclaration × FieldType) :=
  match d.membersNamed name with
  | [] => .error (.unresolvedSource d.name m.name name)
  | named =>
    let compatible := named.filterMap fun member =>
      member.sourceElement?.map fun element => (member, element)
    match compatible with
    | [] => .error (.incompatibleSignature d.name m.name name .noSequence)
    | [single] =>
      match m.declaredType with
      | some type =>
        if type.accepts single.2 then .ok single
        else .error (.incompatibleSignature d.name m.name name (.elementType single.2 type))
      | none => .ok single
    | many => .error (.ambiguousBinding d.name m.name name many.length)

def Declaration.attachSource (d : Declaration) (table : BindingTable) (m : MemberSpec)
    (member : MemberDeclaration) : Except ModelError Source :=
  match member.shape with
  | .property _ => .ok (.property member.name)
  | .method _ _ =>
    match Assoc.get? table member.name with
    | some (.source call) => .ok (.method member.name call)
    | some other =>
      .error (.incompatibleSignature d.name m.name member.name
        (.registeredAs other.flavour .source))
    | none => .error (.missingImplementation d.name member.name)

def Declaration.resolveConverter (d : Declaration) (table : BindingTable) (m : MemberSpec)
    (element : FieldType) (name : String) : Except ModelError Converter :=
  match d.membersNamed name with
  | [] => .error (.unresolvedConverter d.name m.name name)
  | named =>
    match named.filter (MemberDeclaration.convertsFrom element) with
    | [] => .error (.incompatibleSignature d.name m.name name (.converterShape element))
    | [_] =>
      match Assoc.get? table name with
      | some (.converter render) => .ok ⟨name, render⟩
      | some other =>
        .error (.incompatibleSignature d.name m.name name
          (.registeredAs other.flavour .converter))
      | none => .error (.missingImplementation d.name name)
    | many => .error (.ambiguousBinding d.name m.name name many.length)

def Declaration.resolveSelect (d : Declaration) (table : BindingTable) (m : MemberSpec)
    (options : SelectOptions) : Except ModelError MemberBinding := do
  let (member, element) ← d.sourceMember m options.source
  let source ← d.attachSource table m member
  match options.converter with
  | none => .ok (.select source none)
  | some name =>
    let converter ← d.resolveConverter table m element name
    .ok (.select source (some converter))

def Declaration.resolveStep (d : Declaration) (table : BindingTable) (m : MemberSpec)
    (isAsync : Bool) : Except ModelError MemberBinding :=
  let overloads := (d.membersNamed m.name).length
  if 1 < overloads then .error (.ambiguousBinding d.name m.name m.name overloads)
  else
    match Assoc.get? table m.name with
    | some (.step body) =>
      if body.isAsync = isAsync then .ok (.step body)
      else .error (.incompatibleSignature d.name m.name m.name
        (.stepFlavour isAsync (Callable.step body).flavour))
    | some other =>
      .error (.incompatibleSignature d.name m.name m.name (.stepFlavour isAsync other.flavour))
    | none => .error (.missingImplementation d.name m.name)

def Declaration.resolveMember (d : Declaration) (table : BindingTable) (m : MemberSpec) :
    Except ModelError (Option MemberBinding) :=
  match m.kind with
  | .selectPrompt options => (d.resolveSelect table m options).map some
  | .taskStep isAsync _ => (d.resolveStep table m isAsync).map some
  | .textPrompt _ | .nestedForm _ | .dependency _ => .ok none

def Declaration.resolveAfter (d : Declaration) (table : BindingTable) (resolved : ResolvedBindings) :
    List MemberSpec → Except ModelError ResolvedBindings
  | [] => .ok resolved
  | m :: rest =>
    match d.resolveMember table m with
    | .error error => .error error
    | .ok none => resolveAfter d table resolved rest
    | .ok (some binding) => resolveAfter d table (Assoc.insert resolved m.name binding) rest

def Declaration.resolve (d : Declaration) (model : Model) (table : BindingTable) :
    Except ModelError ResolvedBindings := d.resolveAfter table [] model.members

def Declaration.resolveTraced (d : Declaration) (model : Model) (table : BindingTable) :
    Traced ResolvedBindings :=
  .of (match d.resolve model table with
    | .ok bindings => [.bindingsResolved d.name bindings.length]
    | .error _ => []) (d.resolve model table)

end FormFlow
