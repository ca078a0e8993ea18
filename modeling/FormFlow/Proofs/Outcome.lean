import FormFlow.Log
/-!
# Computations that may fail

What a composed computation gives, read off its parts, and computations that
fail only in a given way.
-/
namespace FormFlow
namespace Outcome
variable {ε α β : Type} {x : Except ε α} {e : ε}

theorem bind_eq_ok {f : α → Except ε β} {b : β} :
    x >>= f = .ok b ↔ ∃ a, x = .ok a ∧ f a = .ok b := by
  cases x with
  | error e =>
    constructor
    · intro h
      cases h
    · rintro ⟨a, h, -⟩
      cases h
  | ok a =>
    constructor
    · exact fun h => ⟨a, rfl, h⟩
    · rintro ⟨a, h, hNext⟩
      cases h
      exact hNext

theorem bind_eq_error {f : α → Except ε β} :
    x >>= f = .error e ↔ x = .error e ∨ ∃ a, x = .ok a ∧ f a = .error e := by
  cases x with
  | error e' =>
    constructor
    · intro h
      cases h
      exact .inl rfl
    · rintro (h | ⟨a, h, -⟩)
      · cases h
        rfl
      · cases h
  | ok a =>
    constructor
    · exact fun h => .inr ⟨a, rfl, h⟩
    · rintro (h | ⟨a, h, hNext⟩)
      · cases h
      · cases h
        exact hNext

theorem map_eq_ok {f : α → β} {b : β} : x.map f = .ok b ↔ ∃ a, x = .ok a ∧ f a = b := by
  cases x with
  | error e =>
    constructor
    · intro h
      cases h
    · rintro ⟨a, h, -⟩
      cases h
  | ok a => simp [Except.map]

theorem map_eq_error {f : α → β} : x.map f = .error e ↔ x = .error e := by
  cases x <;> simp [Except.map]

def FailsOnly (P : ε → Prop) (x : Except ε α) : Prop := ∀ e, x = .error e → P e

namespace FailsOnly
variable {P : ε → Prop}

theorem ok (a : α) : FailsOnly P (.ok a) := fun _ h => by cases h

theorem error (h : P e) : FailsOnly P (.error e : Except ε α) := by
  rintro _ ⟨⟩
  exact h

theorem bind {f : α → Except ε β} (hFirst : FailsOnly P x)
    (hNext : ∀ a, x = .ok a → FailsOnly P (f a)) : FailsOnly P (x >>= f) := by
  cases x with
  | error e => exact error (hFirst e rfl)
  | ok a => exact hNext a rfl

theorem map {f : α → β} (h : FailsOnly P x) : FailsOnly P (x.map f) := by
  cases x with
  | error e => exact error (h e rfl)
  | ok a => exact ok (f a)

theorem of_bind {f : α → Except ε β} (h : FailsOnly P (x >>= f)) :
    FailsOnly P x ∧ ∀ a, x = .ok a → FailsOnly P (f a) :=
  ⟨fun e hError => h e (bind_eq_error.mpr (.inl hError)),
    fun a hOk e hError => h e (bind_eq_error.mpr (.inr ⟨a, hOk, hError⟩))⟩

end FailsOnly
end Outcome

theorem exists_split_cons {α : Type} {P : List α → α → Prop} {y : α} {ys : List α} :
    (∃ before x after, y :: ys = before ++ x :: after ∧ P before x) ↔
      P [] y ∨ ∃ before x after, ys = before ++ x :: after ∧ P (y :: before) x := by
  constructor
  · rintro ⟨_ | ⟨first, before⟩, x, after, hSplit, h⟩
    · obtain ⟨rfl, -⟩ := List.cons.inj hSplit
      exact .inl h
    · obtain ⟨rfl, hRest⟩ := List.cons.inj hSplit
      exact .inr ⟨before, x, after, hRest, h⟩
  · rintro (h | ⟨before, x, after, rfl, h⟩)
    · exact ⟨[], y, ys, rfl, h⟩
    · exact ⟨y :: before, x, after, rfl, h⟩

theorem Traced.bind_congr {α β : Type} {x x' : Traced α} {f f' : α → Traced β} (hFirst : x' = x)
    (hNext : ∀ a, x.result = .ok a → f' a = f a) : x' >>= f' = x >>= f := by
  subst hFirst
  obtain ⟨log, result⟩ := x'
  cases result with
  | error e => rfl
  | ok a =>
    have hSame : f' a = f a := hNext a rfl
    change (⟨log ++ (f' a).log, (f' a).result⟩ : Traced β) = ⟨log ++ (f a).log, (f a).result⟩
    rw [hSame]

end FormFlow
