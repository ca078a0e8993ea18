import FormFlow.Proofs.Types.Values
/-!
# The order of types by acceptance

A type accepts those that are under as many lists and whose innermost elements are of
the same type, or whole numbers where the type has decimals. Read off these two, the
depth and the innermost type, acceptance is an order, although it is defined by a
recursion through the lists, and no type is comparable to a list of itself.
-/
namespace FormFlow
namespace FieldType

/-- The number of lists that the innermost elements are under. -/
def listDepth : FieldType → Nat
  | .list element => listDepth element + 1
  | _ => 0

def innermost : FieldType → FieldType
  | .list element => innermost element
  | type => type

/-- Values of the second type are values of the first one, as they stand. -/
inductive Widens : FieldType → FieldType → Prop
  | same (type : FieldType) : Widens type type
  | whole : Widens .decimal .integer

@[simp] theorem listDepth_list (element : FieldType) :
    (FieldType.list element).listDepth = element.listDepth + 1 := rfl

@[simp] theorem innermost_list (element : FieldType) :
    (FieldType.list element).innermost = element.innermost := rfl

section Order
variable {a b c : FieldType}

theorem eq_of_innermost (hDepth : a.listDepth = b.listDepth) (hInner : a.innermost = b.innermost) :
    a = b := by
  induction a generalizing b with
  | list element ih =>
    cases b with
    | list other => rw [ih (Nat.succ.inj hDepth) hInner]
    | _ => cases hDepth
  | _ =>
    cases b with
    | list other => cases hDepth
    | _ => exact hInner

theorem Widens.trans (h : a.Widens b) (hNext : b.Widens c) : a.Widens c := by
  cases h with
  | same => exact hNext
  | whole =>
    cases hNext with
    | same => exact .whole

theorem Widens.antisymm (h : a.Widens b) (hBack : b.Widens a) : a = b := by
  cases h with
  | same => rfl
  | whole => cases hBack

theorem accepts_iff_widens (hPlain : ∀ element, a ≠ .list element) :
    a.accepts b = true ↔ a.Widens b := by
  constructor
  · intro h
    unfold accepts at h
    split at h
    · exact .whole
    · exact absurd rfl (hPlain _)
    · cases of_decide_eq_true h
      exact .same a
  · intro h
    cases h with
    | same => exact accepts_self a
    | whole => rfl

theorem accepts_iff :
    a.accepts b = true ↔ a.listDepth = b.listDepth ∧ a.innermost.Widens b.innermost := by
  induction a generalizing b with
  | list element ih =>
    cases b with
    | list other => simp [accepts_list, ih]
    | _ => simp [accepts, listDepth]
  | _ =>
    cases b with
    | list other => simp [accepts, listDepth]
    | _ => simp [accepts_iff_widens, listDepth, innermost]

theorem accepts_trans (h : a.accepts b = true) (hNext : b.accepts c = true) :
    a.accepts c = true := by
  obtain ⟨hDepth, hWidens⟩ := accepts_iff.mp h
  obtain ⟨hDepth', hWidens'⟩ := accepts_iff.mp hNext
  exact accepts_iff.mpr ⟨hDepth.trans hDepth', hWidens.trans hWidens'⟩

theorem accepts_antisymm (h : a.accepts b = true) (hBack : b.accepts a = true) : a = b := by
  obtain ⟨hDepth, hWidens⟩ := accepts_iff.mp h
  exact eq_of_innermost hDepth (hWidens.antisymm (accepts_iff.mp hBack).2)

theorem accepts_eq_false (h : a.listDepth ≠ b.listDepth) : a.accepts b = false := by
  rw [Bool.eq_false_iff]
  exact fun hAccepts => h (accepts_iff.mp hAccepts).1

end Order

/-- Acceptance is an order of the types, under which only types of one depth are comparable: they have
the same innermost type, or decimals stand over whole numbers. A type admits what any type that it
accepts admits. -/
theorem accepts_orders :
    (∀ a : FieldType, a.accepts a = true) ∧
      (∀ a b c : FieldType, a.accepts b = true → b.accepts c = true → a.accepts c = true) ∧
      (∀ a b : FieldType, a.accepts b = true → b.accepts a = true → a = b) ∧
      (∀ a b : FieldType, a.accepts b = true ↔
        a.listDepth = b.listDepth ∧ a.innermost.Widens b.innermost) ∧
      (∀ element : FieldType, (FieldType.list element).accepts element = false ∧
        element.accepts (.list element) = false) ∧
      ∀ (a b : FieldType) (value : Json), a.accepts b = true → b.admits value = true →
        a.admits value = true := by
  refine ⟨accepts_self, fun _ _ _ => accepts_trans, fun _ _ => accepts_antisymm,
    fun _ _ => accepts_iff, fun element => ⟨?_, ?_⟩, fun _ _ _ => admits_of_accepts⟩
  · apply accepts_eq_false
    rw [listDepth_list]
    omega
  · apply accepts_eq_false
    rw [listDepth_list]
    omega

end FieldType

namespace Sample

theorem amounts_accepted :
    let decimals := FieldType.list (.list .decimal)
    let amounts := FieldType.list (.list .integer)
    decimals.accepts amounts = true ∧ amounts.accepts decimals = false ∧
      decimals.accepts (.list .decimal) = false ∧
      decimals.admits (.arr [.arr [.int 12, .int (-3)], .arr []]) = true := by
  intro decimals amounts
  obtain ⟨-, -, hAntisymm, hAccepts, hElements, hAdmits⟩ := FieldType.accepts_orders
  have hWider : decimals.accepts amounts = true := (hAccepts _ _).mpr ⟨rfl, .whole⟩
  refine ⟨hWider, ?_, (hElements _).1, hAdmits _ amounts _ hWider (by decide)⟩
  rw [Bool.eq_false_iff]
  exact fun hBack => absurd (hAntisymm _ _ hWider hBack) (by decide)

end Sample
end FormFlow
