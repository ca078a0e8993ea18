import FormFlow.Proofs.Compilation.Phases
import FormFlow.Proofs.Nesting.Graph
/-!
# Compilation along the nesting graph

A type is compiled if it is declared, sound by itself, not above itself and not
too deep, and if all types that it nests are. If the catalog has a nesting
order, then compilation never meets a cycle or an unknown type; and if all types
are compiled, then the catalog has a nesting order.
-/
namespace FormFlow
namespace Catalog
variable {c : Catalog} {limit : Nat}

/-- Why a type below a chain of types has no plan: the chain leads back to it, there is no level
left, it is not declared, its own declaration is at fault, or a type that it nests has no plan. -/
inductive Fault (c : Catalog) (limit room : Nat) (chain : List String) (t : String)
    (e : ModelError) : Prop where
  | cyclic (hAbove : t ∈ chain)
      (hError : e = .cyclicNesting (chain.dropWhile (fun u => u ≠ t) ++ [t]))
  | tooDeep (hFresh : t ∉ chain) (hRoom : room = 0)
      (hError : e = .nestingTooDeep t chain.length limit)
  | unknown (hFresh : t ∉ chain) (hUndeclared : c.declaration? t = none)
      (hError : e = .unknownType t)
  | own (hFresh : t ∉ chain) (d : Declaration) (hDeclared : c.declaration? t = some d)
      (hError : e.declaration? = some t)
  | nested (hFresh : t ∉ chain) (lower : Nat) (hRoom : room = lower + 1) (b : String)
      (hNests : c.Nests t b)
      (hError : (c.compileBelow limit lower (chain ++ [t]) b).result = .error e)

theorem compileBelow_error {room : Nat} {chain : List String} {t : String} {e : ModelError}
    (h : (c.compileBelow limit room chain t).result = .error e) : c.Fault limit room chain t e := by
  unfold compileBelow at h
  split at h
  · rename_i hAbove
    cases h
    exact .cyclic hAbove rfl
  · rename_i hFresh
    split at h
    · cases h
      exact .tooDeep hFresh rfl rfl
    · rename_i lower
      split at h
      · rename_i hUndeclared
        cases h
        exact .unknown hFresh hUndeclared rfl
      · rename_i d hDeclared
        obtain rfl := name_of_declaration? hDeclared
        rw [Traced.result_bind] at h
        rcases Outcome.bind_eq_error.mp h with hResolved | ⟨form, hResolved, hLowered⟩
        · exact .own hFresh d hDeclared (d.resolved_concerns _ e hResolved).about
        · obtain ⟨hName, hForms⟩ := Declaration.resolved_ok hResolved
          rcases ResolvedForm.lower_error hLowered with hOwn | ⟨b, hForm, hNested⟩
          · exact .own hFresh d hDeclared (hName ▸ hOwn)
          · exact .nested hFresh lower rfl b ⟨d, hDeclared, hForms ▸ hForm⟩ hNested

theorem compileBelow_ok {room : Nat} {chain : List String} {t : String} {plan : Plan}
    (h : (c.compileBelow limit room chain t).result = .ok plan) :
    t ∉ chain ∧ t ∈ c.typeNames ∧ ∃ lower, room = lower + 1 ∧ ∀ b, c.Nests t b →
      ∃ inner, (c.compileBelow limit lower (chain ++ [t]) b).result = .ok inner := by
  obtain ⟨lower, d, form, hRoom, hFresh, hDeclared, hResolved, hLowered⟩ := compileBelow_lowered h
  refine ⟨hFresh, mem_typeNames_iff.mpr ⟨d, hDeclared⟩, lower, hRoom, ?_⟩
  rintro b ⟨d', hDeclared', hForm⟩
  obtain rfl : d = d' := Option.some.inj (hDeclared.symm.trans hDeclared')
  rw [← (Declaration.resolved_ok hResolved).2] at hForm
  exact ResolvedForm.lower_ok hLowered b hForm

theorem compileBelow_reach {t u : String} (hReach : Relation.TransGen c.Nests t u) :
    ∀ {room : Nat} {chain : List String} {plan : Plan},
      (c.compileBelow limit room chain t).result = .ok plan →
        ∃ lower chain' inner, t ∈ chain' ∧
          (c.compileBelow limit lower chain' u).result = .ok inner := by
  intro room chain plan h
  induction hReach with
  | single hNests =>
    obtain ⟨-, -, lower, -, hNested⟩ := compileBelow_ok h
    obtain ⟨inner, hInner⟩ := hNested _ hNests
    exact ⟨lower, _, inner, List.mem_append_right _ (List.mem_singleton_self t), hInner⟩
  | tail _ hNests ih =>
    obtain ⟨room', chain', outer, hAbove, hOuter⟩ := ih
    obtain ⟨-, -, lower, -, hNested⟩ := compileBelow_ok hOuter
    obtain ⟨inner, hInner⟩ := hNested _ hNests
    exact ⟨lower, _, inner, List.mem_append_left _ hAbove, hInner⟩

theorem not_reach_self_of_compileBelow {room : Nat} {chain : List String} {t : String} {plan : Plan}
    (h : (c.compileBelow limit room chain t).result = .ok plan) :
    ¬ Relation.TransGen c.Nests t t := by
  intro hCycle
  obtain ⟨lower, above, inner, hAbove, hInner⟩ := compileBelow_reach hCycle h
  exact (compileBelow_ok hInner).1 hAbove

end Catalog
end FormFlow
