import FormFlow.Catalog.Basic
import FormFlow.Text.Alphanumeric
/-!
# Valid declaration lists

Type names are non-empty, alphanumeric up to underscores and distinct, and no
member has an empty name. The first offending declaration is reported, by the
first of these rules that it breaks.
-/
namespace FormFlow

inductive ValidationError where
  | emptyTypeName
  | badTypeName (name : String)
  | duplicateType (name : String)
  | emptyMemberName (form : String) (shape : MemberShape)
  deriving DecidableEq, Repr, Inhabited

def ValidationError.reason : ValidationError → String
  | .emptyTypeName => "form type name must not be empty"
  | .badTypeName name => s!"form type name '{name}' may only contain alphanumerics and underscores"
  | .duplicateType name => s!"duplicate form type: '{name}'"
  | .emptyMemberName form shape =>
    s!"form type '{form}' has a member with an empty name ({shape.structural})"

def ValidationError.message (e : ValidationError) : String := "validation error: " ++ e.reason

def isIdentifier (name : String) : Bool :=
  name.toList.all fun c => Text.isAlphanumeric c || c = '_'

def Declaration.violation? (seen : List String) (d : Declaration) : Option ValidationError :=
  if d.name = "" then some .emptyTypeName
  else if !isIdentifier d.name then some (.badTypeName d.name)
  else if d.name ∈ seen then some (.duplicateType d.name)
  else (d.members.find? fun m => m.name = "").map fun m => .emptyMemberName d.name m.shape

def validateAfter (seen : List String) : List Declaration → Except ValidationError Unit
  | [] => .ok ()
  | d :: rest =>
    match d.violation? seen with
    | some error => .error error
    | none => validateAfter (d.name :: seen) rest

def validate (declarations : List Declaration) : Except ValidationError Unit :=
  validateAfter [] declarations

end FormFlow
