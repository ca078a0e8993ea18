import FormFlow.Declaration.Basic
/-!
# Reading declarations

Declarations are read from documents, so that data values and catalog files
share one reader. Unknown entries are skipped; an entry with a default may be
left out, but not be absent where it stands, except for optional texts.
-/
namespace FormFlow
open Document

def listOf? {α : Type} (read : Document → Option α) (d : Document) : Option (List α) :=
  d.items?.bind fun items => items.mapM read

def MemberShape.ofDocument? (d : Document) : Option MemberShape := do
  match ← d.variant? with
  | ("property", some payload) => (FieldType.ofDocument? false payload).map .property
  | ("method", some payload) =>
    let entries ← payload.entries?
    let parameters ← entryOr entries "parameters" (listOf? (FieldType.ofDocument? false)) (some [])
    let returns ← entryOr entries "returns" (ReturnShape.ofDocument? false) none
    some (.method parameters returns)
  | _ => none

def PromptTag.ofDocument? (d : Document) : Option PromptTag := do
  match ← d.variant? with
  | ("text_prompt", some payload) => (TextOptions.ofDocument? payload).map .textPrompt
  | ("select_prompt", some payload) => (SelectOptions.ofDocument? payload).map .selectPrompt
  | ("task_step", some payload) => (StepOptions.ofDocument? payload).map .taskStep
  | ("nested_form", none) => some .nestedForm
  | _ => none

def MemberDeclaration.ofDocument? (d : Document) : Option MemberDeclaration := do
  let entries ← d.entries?
  let name ← entryOr entries "name" text? none
  let shape ← entryOr entries "shape" MemberShape.ofDocument? none
  let required ← entryOr entries "required" flag? (some false)
  let tags ← entryOr entries "tags" (listOf? PromptTag.ofDocument?) (some [])
  some { name, shape, required, tags }

def Parameter.ofDocument? (d : Document) : Option Parameter := do
  let entries ← d.entries?
  let name ← entryOr entries "name" text? none
  let type ← entryOr entries "type" (FieldType.ofDocument? false) none
  some { name, type }

def ConstructorDeclaration.ofDocument? (d : Document) : Option ConstructorDeclaration := do
  let entries ← d.entries?
  let parameters ← entryOr entries "parameters" (listOf? Parameter.ofDocument?) (some [])
  let designated ← entryOr entries "designated" flag? (some false)
  some { parameters, designated }

def Declaration.ofDocument? (d : Document) : Option Declaration := do
  let entries ← d.entries?
  let name ← entryOr entries "name" text? none
  let culture ← entryOr entries "culture" optionalText? (some none)
  let constructors ← entryOr entries "constructors"
    (listOf? ConstructorDeclaration.ofDocument?) (some [])
  let members ← entryOr entries "members" (listOf? MemberDeclaration.ofDocument?) (some [])
  some { name, culture, constructors, members }

def Declaration.decode? (value : Json) : Option Declaration := ofDocument? value.document

def FieldType.decode? (value : Json) : Option FieldType := ofDocument? true value.document

def ReturnShape.decode? (value : Json) : Option ReturnShape := ofDocument? true value.document

end FormFlow
