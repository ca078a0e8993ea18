import FormFlow.Instance
/-!
# Positions in nested values

A position is the list of members that lead from a form to a value in it, through
the objects of the forms that it nests.
-/
namespace FormFlow

def Json.at? : Json → List String → Option Json
  | value, [] => some value
  | .obj fields, member :: rest => (Assoc.get? fields member).bind fun value => value.at? rest
  | _, _ :: _ => none

namespace Instance

/-- The value at a position of the instance; an instance is not a value itself. -/
def at? (i : Instance) : List String → Option Json
  | [] => none
  | member :: rest => (i.get? member).bind fun value => value.at? rest

@[simp] theorem at?_nil (i : Instance) : i.at? [] = none := rfl

theorem at?_cons (i : Instance) (member : String) (rest : List String) :
    i.at? (member :: rest) = (i.get? member).bind fun value => value.at? rest := rfl

theorem at?_set_self (i : Instance) (member : String) (value : Json) (rest : List String) :
    (i.set member value).at? (member :: rest) = value.at? rest := by
  rw [at?_cons, get?_set_self]
  rfl

theorem at?_set_of_ne (i : Instance) {member other : String} (value : Json) (rest : List String)
    (h : other ≠ member) : (i.set member value).at? (other :: rest) = i.at? (other :: rest) := by
  rw [at?_cons, at?_cons, get?_set_of_ne i value h]

theorem toValue_at? (i : Instance) {pos : List String} (h : pos ≠ []) :
    i.toValue.at? pos = i.at? pos := by
  cases pos with
  | nil => exact absurd rfl h
  | cons member rest => rfl

end Instance
end FormFlow
