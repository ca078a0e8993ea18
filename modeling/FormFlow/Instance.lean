import FormFlow.Document
import FormFlow.Json.Printer
/-!
# Form instances

The live values of a form: the name of its type and its fields. A field is set
when it is present and not null.
-/
namespace FormFlow

structure Instance where
  typeName : String
  fields : Fields
  deriving Inhabited

namespace Instance

def new (typeName : String) : Instance := ⟨typeName, []⟩

def get? (i : Instance) (member : String) : Option Json := Assoc.get? i.fields member

def text? (i : Instance) (member : String) : Option String := (i.get? member).bind Json.text?

def set (i : Instance) (member : String) (value : Json) : Instance :=
  { i with fields := Assoc.insert i.fields member value }

def take (i : Instance) (member : String) : Instance :=
  { i with fields := Assoc.erase i.fields member }

def isSet (i : Instance) (member : String) : Bool :=
  match i.get? member with
  | some value => !value.isNull
  | none => false

def toValue (i : Instance) : Json := .obj i.fields

def encode (i : Instance) : Json := .obj [("fields", .obj i.fields), ("type_name", .str i.typeName)]

def decode? (value : Json) : Option Instance := do
  let entries ← value.fields?
  let typeName ← (← Assoc.get? entries "type_name").text?
  match Assoc.get? entries "fields" with
  | none => some ⟨typeName, []⟩
  | some (.obj fields) => some ⟨typeName, fields⟩
  | some _ => none

@[simp] theorem get?_set_self (i : Instance) (member : String) (value : Json) :
    (i.set member value).get? member = some value := Assoc.get?_insert_self _ _ _

theorem get?_set_of_ne (i : Instance) {member other : String} (value : Json)
    (h : other ≠ member) : (i.set member value).get? other = i.get? other :=
  Assoc.get?_insert_of_ne _ _ h

theorem set_set (i : Instance) (member : String) (v w : Json) :
    (i.set member v).set member w = i.set member w := by
  simp only [set, Assoc.insert_insert]

theorem set_comm (i : Instance) {member other : String} (v w : Json) (h : member ≠ other) :
    (i.set member v).set other w = (i.set other w).set member v := by
  simp only [set, Assoc.insert_comm _ v w h]

@[simp] theorem typeName_set (i : Instance) (member : String) (value : Json) :
    (i.set member value).typeName = i.typeName := rfl

end Instance
end FormFlow
