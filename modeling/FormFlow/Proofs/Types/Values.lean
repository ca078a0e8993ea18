import FormFlow.Coercion
/-!
# Values of declared types

Which values a declared type admits. What is read from an answer is admitted by
the type it is read as, and a type admits what any type that it accepts admits.
-/
namespace FormFlow
namespace FieldType

/-- A decimal may be a whole number, and every element of a list is a value of the element type. -/
def admits : FieldType → Json → Bool
  | .text, .str _ => true
  | .integer, .int _ => true
  | .decimal, .int _ => true
  | .decimal, .float _ => true
  | .boolean, .bool _ => true
  | .list element, .arr items => items.all fun value => admits element value
  | .form _, .obj _ => true
  | _, _ => false

theorem admits_list_iff {element : FieldType} {value : Json} :
    (FieldType.list element).admits value = true ↔
      ∃ items, value = .arr items ∧ ∀ item ∈ items, element.admits item = true := by
  cases value with
  | arr items => simp [admits]
  | _ => simp [admits]

theorem admits_arr_iff {type : FieldType} {items : List Json} :
    type.admits (.arr items) = true ↔
      ∃ element, type = .list element ∧ ∀ item ∈ items, element.admits item = true := by
  cases type with
  | list element => simp [admits]
  | _ => simp [admits]

theorem admits_of_accepts {a : FieldType} :
    ∀ {b : FieldType} {value : Json}, a.accepts b = true → b.admits value = true →
      a.admits value = true := by
  induction a with
  | list element ih =>
    intro b value hAccepts hAdmits
    cases b with
    | list other =>
      obtain ⟨items, rfl, hItems⟩ := admits_list_iff.mp hAdmits
      exact admits_list_iff.mpr ⟨items, rfl, fun item hItem => ih hAccepts (hItems item hItem)⟩
    | _ => simp [accepts] at hAccepts
  | decimal =>
    intro b value hAccepts hAdmits
    cases b with
    | integer =>
      cases value with
      | int n => rfl
      | _ => cases hAdmits
    | decimal => exact hAdmits
    | _ => simp [accepts] at hAccepts
  | _ =>
    intro b value hAccepts hAdmits
    have hSame := of_decide_eq_true hAccepts
    rwa [hSame]

end FieldType

theorem coerce_admits {type : FieldType} {answer : String} {value : Json}
    (h : coerce type answer = .ok value) : type.admits value = true := by
  simp only [coerce] at h
  split at h
  · cases h
    rfl
  · split at h <;> cases h
    rfl
  · split at h
    · split at h <;> cases h
      rfl
    · cases h
  · split at h <;> cases h
    rfl
  · cases h
  · cases h

end FormFlow
