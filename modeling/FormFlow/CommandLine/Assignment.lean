import FormFlow.Json.Reader
import FormFlow.Text.Basic
/-!
# Assignments

An assignment supplies a value under a name: everything before the first equals
sign is the name, stripped of blanks, and everything behind it is the value. A
value that does not read as a data value is a text. Of several assignments to
one name the last one holds.
-/
namespace FormFlow

inductive AssignmentError where
  | missingValue (text : String)
  | emptyName (text : String)
  deriving DecidableEq, Repr, Inhabited

def AssignmentError.message : AssignmentError → String
  | .missingValue text => s!"Invalid --set '{text}': expected NAME=VALUE"
  | .emptyName text => s!"Invalid --set '{text}': name must not be empty"

def splitAssignment? (text : String) : Option (String × String) :=
  match text.toList.dropWhile (· ≠ '=') with
  | [] => none
  | _ :: value => some (String.ofList (text.toList.takeWhile (· ≠ '=')), String.ofList value)

def readAssignment (read : String → Option Json) (text : String) :
    Except AssignmentError (String × Json) :=
  match splitAssignment? text with
  | none => .error (.missingValue text)
  | some (name, value) =>
    let name := Text.trim name
    if name = "" then .error (.emptyName text) else .ok (name, (read value).getD (.str value))

def assignInto (read : String → Option Json) (supplied : Fields) :
    List String → Except AssignmentError Fields
  | [] => .ok supplied
  | text :: rest =>
    match readAssignment read text with
    | .error e => .error e
    | .ok (name, value) => assignInto read (Assoc.insert supplied name value) rest

def assign (texts : List String) : Except AssignmentError Fields := assignInto Json.read? [] texts

end FormFlow
