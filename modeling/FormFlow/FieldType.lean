import FormFlow.Document
import FormFlow.Text.Basic
/-!
# Field types

The declared types of properties, parameters and the elements that methods
return, with the order in which one type accepts another and their written
forms.
-/
namespace FormFlow

inductive FieldType where
  | text
  | integer
  | decimal
  | boolean
  | list (element : FieldType)
  | form (name : String)
  deriving DecidableEq, Repr, Inhabited

namespace FieldType

/-- Scalars are the types that a free text answer can be read as. -/
def isScalar : FieldType → Bool
  | .text | .integer | .decimal | .boolean => true
  | .list _ | .form _ => false

def formName? : FieldType → Option String
  | .form name => some name
  | _ => none

/-- A value of the second type can be stored where the first is declared: the types are the same,
or integers widen into decimals, under any number of lists. -/
def accepts : FieldType → FieldType → Bool
  | .decimal, .integer => true
  | .list a, .list b => accepts a b
  | a, b => a = b

def render : FieldType → String
  | .text => "text"
  | .integer => "integer"
  | .decimal => "decimal"
  | .boolean => "boolean"
  | .list element => "list<" ++ render element ++ ">"
  | .form name => "form " ++ name

def structural : FieldType → String
  | .text => "Text"
  | .integer => "Integer"
  | .decimal => "Decimal"
  | .boolean => "Boolean"
  | .list element => "List(" ++ structural element ++ ")"
  | .form name => "Form(" ++ Text.quoted name ++ ")"

def encode : FieldType → Json
  | .text => .str "text"
  | .integer => .str "integer"
  | .decimal => .str "decimal"
  | .boolean => .str "boolean"
  | .list element => .obj [("list", encode element)]
  | .form name => .obj [("form", .str name)]

def scalarNamed? : String → Option FieldType
  | "text" => some .text
  | "integer" => some .integer
  | "decimal" => some .decimal
  | "boolean" => some .boolean
  | _ => none

/-- Reads a type. A scalar type is a bare name; with `padded` it may also stand as a record entry
whose payload is absent. -/
def ofDocument? (padded : Bool) : Document → Option FieldType
  | .scalar s => s.text.bind scalarNamed?
  | .record [(name, payload)] =>
    if name = "list" then (ofDocument? padded payload).map .list
    else if name = "form" then payload.text?.map .form
    else if padded && payload.isAbsent then scalarNamed? name
    else none
  | _ => none

theorem accepts_self (t : FieldType) : accepts t t = true := by
  induction t <;> simp_all [accepts]

theorem accepts_list (a b : FieldType) : accepts (.list a) (.list b) = accepts a b := rfl

end FieldType
end FormFlow
