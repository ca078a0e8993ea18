import FormFlow.Assoc
/-!
# Data values

The values that forms collect and that the program reads and writes. A whole
number and a fractional number are different values even when they are equal
as reals. An object holds each key once, in ascending order: `ofEntries` and
`Assoc.insert` keep it so.
-/
namespace FormFlow

inductive Json where
  | null
  | bool (b : Bool)
  | int (n : Int)
  | float (x : Float)
  | str (s : String)
  | arr (items : List Json)
  | obj (fields : List (String × Json))
  deriving Inhabited

abbrev Fields := Assoc Json

namespace Json

mutual
/-- Equality of values; fractional numbers are compared as numbers. -/
def beq : Json → Json → Bool
  | .null, .null => true
  | .bool a, .bool b => a == b
  | .int a, .int b => a == b
  | .float a, .float b => a == b
  | .str a, .str b => a == b
  | .arr a, .arr b => beqItems a b
  | .obj a, .obj b => beqFields a b
  | _, _ => false

def beqItems : List Json → List Json → Bool
  | [], [] => true
  | a :: as, b :: bs => beq a b && beqItems as bs
  | _, _ => false

def beqFields : List (String × Json) → List (String × Json) → Bool
  | [], [] => true
  | (k, a) :: as, (l, b) :: bs => k == l && beq a b && beqFields as bs
  | _, _ => false
end

instance : BEq Json := ⟨beq⟩

def isNull : Json → Bool
  | .null => true
  | _ => false

def text? : Json → Option String
  | .str s => some s
  | _ => none

def items? : Json → Option (List Json)
  | .arr items => some items
  | _ => none

def fields? : Json → Option Fields
  | .obj fields => some fields
  | _ => none

def ofEntries (entries : List (String × Json)) : Json := .obj (Assoc.ofList entries)

def ofOption (value : Option String) : Json :=
  match value with
  | some s => .str s
  | none => .null

def ofNat (n : Nat) : Json := .int n

def strings (texts : List String) : Json := .arr (texts.map .str)

end Json
end FormFlow
