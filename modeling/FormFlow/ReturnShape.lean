import FormFlow.FieldType
/-!
# Return shapes

What a method hands back: nothing, a value, a finite sequence, or a deferred
computation of one of these.
-/
namespace FormFlow

inductive ReturnShape where
  | unit
  | value (type : FieldType)
  | sequence (element : FieldType)
  | deferred (inner : ReturnShape)
  deriving DecidableEq, Repr, Inhabited

namespace ReturnShape

def isDeferred : ReturnShape → Bool
  | .deferred _ => true
  | _ => false

def sequenceElement? : ReturnShape → Option FieldType
  | .sequence element => some element
  | .value (.list element) => some element
  | _ => none

/-- The type of what is finally returned: every deferral is peeled off, and a sequence counts as a
list. -/
def settledType? : ReturnShape → Option FieldType
  | .unit => none
  | .value type => some type
  | .sequence element => some (.list element)
  | .deferred inner => settledType? inner

def structural : ReturnShape → String
  | .unit => "Unit"
  | .value type => "Value(" ++ type.structural ++ ")"
  | .sequence element => "Sequence(" ++ element.structural ++ ")"
  | .deferred inner => "Deferred(" ++ structural inner ++ ")"

def encode : ReturnShape → Json
  | .unit => .str "unit"
  | .value type => .obj [("value", type.encode)]
  | .sequence element => .obj [("sequence", element.encode)]
  | .deferred inner => .obj [("deferred", encode inner)]

def ofDocument? (padded : Bool) : Document → Option ReturnShape
  | .scalar s => if s.text = some "unit" then some .unit else none
  | .record [(name, payload)] =>
    if name = "value" then (FieldType.ofDocument? padded payload).map .value
    else if name = "sequence" then (FieldType.ofDocument? padded payload).map .sequence
    else if name = "deferred" then (ofDocument? padded payload).map .deferred
    else if padded && payload.isAbsent && name = "unit" then some .unit
    else none
  | _ => none

end ReturnShape
end FormFlow
