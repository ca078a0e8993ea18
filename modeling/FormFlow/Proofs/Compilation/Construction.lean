import FormFlow.Proofs.Compilation.Members
/-!
# Constructed models

Construction succeeds exactly if a constructor is chosen, none of its
parameters has the name of a prompted member, and its parameters and the
required untagged properties have distinct names. The dependencies then come
before the members of the model; a model that is changed in place is left as it
was if construction fails.
-/
namespace FormFlow

section Specification

/-- The constructor that the policy picks: the single designated one; with none designated the only one,
or one without parameters among several; the implicit one where none is declared. -/
inductive Declaration.Chooses (d : Declaration) : ConstructionStrategy → Prop
  | designated {before after : List ConstructorDeclaration} {k : ConstructorDeclaration}
      (split : d.constructors = before ++ k :: after) (marked : k.designated = true)
      (others : ∀ other ∈ before ++ after, other.designated = false) :
      d.Chooses (.markedExplicit k.parameters)
  | only {k : ConstructorDeclaration} (only : d.constructors = [k]) (unmarked : k.designated = false)
      (takes : k.parameters ≠ []) : d.Chooses (.singleExplicit k.parameters)
  | empty {k : ConstructorDeclaration} (unmarked : ∀ other ∈ d.constructors, other.designated = false)
      (declared : k ∈ d.constructors) (empty : k.parameters = []) : d.Chooses .default
  | implicit (none : d.constructors = []) : d.Chooses .default

end Specification

section Choice
variable {d : Declaration} {strategy : ConstructionStrategy}

theorem filter_eq_singleton_iff {α : Type} {P : α → Bool} {xs : List α} {x : α} :
    xs.filter P = [x] ↔ ∃ before after, xs = before ++ x :: after ∧ P x = true ∧
      ∀ y ∈ before ++ after, P y = false := by
  simp only [List.filter_eq_cons_iff, List.filter_eq_nil_iff, List.forall_mem_append,
    Bool.not_eq_true]
  constructor
  · rintro ⟨before, after, hSplit, hBefore, hHere, hAfter⟩
    exact ⟨before, after, hSplit, hHere, hBefore, hAfter⟩
  · rintro ⟨before, after, hSplit, hHere, hBefore, hAfter⟩
    exact ⟨before, after, hSplit, hBefore, hHere, hAfter⟩

theorem Declaration.Chooses.chooseConstructor (h : d.Chooses strategy) :
    d.chooseConstructor = .ok strategy := by
  unfold Declaration.chooseConstructor
  cases h with
  | designated split marked others =>
    simp only [filter_eq_singleton_iff.mpr ⟨_, _, split, marked, others⟩]
  | only only unmarked takes => simp [only, unmarked, takes]
  | @empty k unmarked declared empty =>
    have hNone : d.constructors.filter ConstructorDeclaration.designated = [] := by
      simpa using unmarked
    simp only [hNone]
    split
    · rfl
    · rename_i only hOnly
      rw [hOnly, List.mem_singleton] at declared
      rw [← declared, if_pos empty]
    · rw [if_pos (List.any_eq_true.mpr ⟨k, declared, decide_eq_true empty⟩)]
  | implicit none => simp [none]

end Choice

section Dependencies
variable {form : String} {model : Model}

end Dependencies

section InPlace

section Reading
variable {α β : Type} {model : Model} {x : EStateM ModelError Model α} {r : Except ModelError α}

end Reading

end InPlace

namespace Sample

end Sample
end FormFlow
