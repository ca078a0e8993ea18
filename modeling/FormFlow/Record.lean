import FormFlow.Instance
import FormFlow.Text.Basic
/-!
# Typed records

A record type lists the slots of a typed value. Reading a value checks its
fields in key order, so the first one of a wrong type is reported, then fills
the slots in their own order, so the first slot without a value is. Unknown
fields are skipped and every slot is written.
-/
namespace FormFlow

inductive SlotType where
  | text
  | texts
  | count
  | optionalText
  deriving DecidableEq, Repr, Inhabited

structure Slot where
  name : String
  type : SlotType
  default : Option Json
  deriving Inhabited

abbrev RecordType := List Slot

inductive RecordError where
  | wrongType (found : Json) (expected : String)
  | outOfRange (found : Int) (expected : String)
  | missingField (name : String)
  | notObject (found : Json)
  deriving Inhabited

namespace RecordError

def foundText : Json → String
  | .null => "null"
  | .bool b => "boolean \x60" ++ (if b then "true" else "false") ++ "\x60"
  | .int n => "integer \x60" ++ toString n ++ "\x60"
  | .float x => "floating point \x60" ++ Decimal.Layout.prose.render x ++ "\x60"
  | .str s => "string " ++ Text.quoted s
  | .arr _ => "sequence"
  | .obj _ => "map"

def message : RecordError → String
  | .wrongType found expected => "invalid type: " ++ foundText found ++ ", expected " ++ expected
  | .outOfRange found expected =>
    "invalid value: integer \x60" ++ toString found ++ "\x60, expected " ++ expected
  | .missingField name => "missing field \x60" ++ name ++ "\x60"
  | .notObject found => "form instance must serialize to an object, got " ++ found.compact

end RecordError

namespace SlotType

def checkText : Json → Except RecordError Json
  | .str s => .ok (.str s)
  | value => .error (.wrongType value "a string")

def check : SlotType → Json → Except RecordError Json
  | .text, value => checkText value
  | .optionalText, .null => .ok .null
  | .optionalText, value => checkText value
  | .texts, .arr items => (items.mapM checkText).map .arr
  | .texts, value => .error (.wrongType value "a sequence")
  | .count, .int n =>
    if 0 ≤ n ∧ n < Nat.pow 2 32 then .ok (.int n) else .error (.outOfRange n "u32")
  | .count, value => .error (.wrongType value "u32")

end SlotType

namespace RecordType

def checkFields (type : RecordType) (fields : Fields) : Except RecordError Fields :=
  fields.foldlM (fun checked (key, value) =>
    match type.find? fun slot => slot.name = key with
    | none => .ok checked
    | some slot => (slot.type.check value).map fun value => Assoc.insert checked key value) []

def fill (checked : Fields) (slot : Slot) : Except RecordError (String × Json) :=
  match Assoc.get? checked slot.name, slot.default with
  | some value, _ => .ok (slot.name, value)
  | none, some value => .ok (slot.name, value)
  | none, none => .error (.missingField slot.name)

def decode (type : RecordType) (fields : Fields) : Except RecordError Json := do
  let checked ← type.checkFields fields
  let entries ← type.mapM (fill checked)
  .ok (.ofEntries entries)

end RecordType

/-- The types that an instance can be converted to: a record type, or any value at all. -/
inductive TypedView where
  | any
  | record (type : RecordType)
  deriving Inhabited

def Instance.toTyped (i : Instance) : TypedView → Except RecordError Json
  | .any => .ok i.toValue
  | .record type => type.decode i.fields

def Instance.ofTyped (typeName : String) : Json → Except RecordError Instance
  | .obj fields => .ok ⟨typeName, fields⟩
  | value => .error (.notObject value)

end FormFlow
