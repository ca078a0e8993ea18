import FormFlow.FieldType
import FormFlow.Decimal.Rounding
import FormFlow.Text.Basic
/-!
# Reading answers

A free text answer as a value of a scalar type. Blanks at the ends do not
matter, except in a text. An integer has an optional sign before its digits and
fits 64 bits with a sign; its digits are read from the left, so the first one
that is no digit or leaves the range decides the error.
-/
namespace FormFlow

inductive IntegerError where
  | empty
  | invalidDigit
  | tooLarge
  | tooSmall
  deriving DecidableEq, Repr, Inhabited

def IntegerError.message : IntegerError → String
  | .empty => "cannot parse integer from empty string"
  | .invalidDigit => "invalid digit found in string"
  | .tooLarge => "number too large to fit in target type"
  | .tooSmall => "number too small to fit in target type"

namespace Integer

def bound (negative : Bool) : Nat := if negative then Nat.pow 2 63 else Nat.pow 2 63 - 1

def readDigits (negative : Bool) (value : Nat) : List Char → Except IntegerError Nat
  | [] => .ok value
  | c :: rest =>
    if c.isDigit then
      let next := 10 * value + (c.toNat - '0'.toNat)
      if next ≤ bound negative then readDigits negative next rest
      else .error (if negative then .tooSmall else .tooLarge)
    else .error .invalidDigit

def read (text : List Char) : Except IntegerError Int :=
  if text = [] then .error .empty
  else
    match Decimal.splitSign text with
    | (_, []) => .error .invalidDigit
    | (negative, digits) =>
      (readDigits negative 0 digits).map fun n => if negative then -(n : Int) else n

end Integer

inductive CoercionError where
  | notInteger (text : String) (cause : IntegerError)
  | notNumber (text : String) (cause : Decimal.LiteralError)
  | notFinite (text : String)
  | notBoolean (text : String)
  | notScalar (type : FieldType)
  deriving DecidableEq, Repr

def CoercionError.message : CoercionError → String
  | .notInteger text cause => s!"'{text}' is not an integer: {cause.message}"
  | .notNumber text cause => s!"'{text}' is not a number: {cause.message}"
  | .notFinite text => s!"'{text}' is not a finite number"
  | .notBoolean text => s!"'{text}' is not yes/no"
  | .notScalar type => s!"cannot read a {type.render} value from text"

def flagWord? (word : String) : Option Bool :=
  let word := Decimal.lowerAscii word.toList
  if word = "true" ∨ word = "yes" ∨ word = "y" then some true
  else if word = "false" ∨ word = "no" ∨ word = "n" then some false
  else none

def coerce (type : FieldType) (answer : String) : Except CoercionError Json :=
  let trimmed := Text.trim answer
  match type with
  | .text => .ok (.str answer)
  | .integer =>
    match Integer.read trimmed.toList with
    | .ok n => .ok (.int n)
    | .error cause => .error (.notInteger trimmed cause)
  | .decimal =>
    match Decimal.readFloat trimmed with
    | .ok x => if x.isFinite then .ok (.float x) else .error (.notFinite trimmed)
    | .error cause => .error (.notNumber trimmed cause)
  | .boolean =>
    match flagWord? trimmed with
    | some b => .ok (.bool b)
    | none => .error (.notBoolean trimmed)
  | .list _ => .error (.notScalar type)
  | .form _ => .error (.notScalar type)

end FormFlow
