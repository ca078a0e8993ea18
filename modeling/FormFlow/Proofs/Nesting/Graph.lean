import FormFlow.Proofs.Nesting.Search
import Mathlib.Data.List.Permutation
/-!
# The nesting graph of a catalog

A type nests the forms that the tags of its declaration name. The catalog has a
nesting order exactly if all nested forms are declared and no type nests itself.
Otherwise it is told why: the first nested form that is not declared, or a type
that lies on a cycle.
-/
namespace FormFlow
namespace Catalog
variable {c : Catalog}

def Nests (c : Catalog) (parent child : String) : Prop :=
  ∃ d, c.declaration? parent = some d ∧ child ∈ d.nestedForms

structure WellNested (c : Catalog) : Prop where
  declared : ∀ parent child, c.Nests parent child → child ∈ c.typeNames
  acyclic : ∀ t, ¬ Relation.TransGen c.Nests t t

theorem mem_nestingEdges {parent child : String} :
    ⟨parent, child⟩ ∈ c.nestingEdges ↔ c.Nests parent child := by
  simp only [nestingEdges, List.mem_flatMap, List.mem_map, NestingEdge.mk.injEq]
  constructor
  · rintro ⟨d, hDeclared, child, hForm, rfl, rfl⟩
    exact ⟨d, mem_all_iff.mp hDeclared, hForm⟩
  · rintro ⟨d, hDeclared, hForm⟩
    obtain rfl := name_of_declaration? hDeclared
    exact ⟨d, mem_all_iff.mpr hDeclared, child, hForm, rfl, rfl⟩

theorem nests_nestingEdges : Nesting.Nests c.nestingEdges = c.Nests := by
  funext parent child
  exact propext mem_nestingEdges

theorem Nests.declared {parent child : String} (h : c.Nests parent child) :
    parent ∈ c.typeNames := by
  obtain ⟨d, hDeclared, -⟩ := h
  exact mem_typeNames_iff.mpr ⟨d, hDeclared⟩

theorem undeclared_eq_none :
    (c.nestingEdges.find? fun e => !c.contains e.child) = none ↔
      ∀ parent child, c.Nests parent child → child ∈ c.typeNames := by
  rw [List.find?_eq_none]
  constructor
  · intro h parent child hNests
    have hContained := h ⟨parent, child⟩ (mem_nestingEdges.mpr hNests)
    rw [Bool.not_eq_true, Bool.not_eq_false'] at hContained
    exact contains_iff_mem_typeNames.mp hContained
  · rintro h ⟨parent, child⟩ hEdge
    rw [Bool.not_eq_true, Bool.not_eq_false']
    exact contains_iff_mem_typeNames.mpr (h parent child (mem_nestingEdges.mp hEdge))

theorem nestingOrder_of_undeclared {e : NestingEdge} (he : e ∈ c.nestingEdges)
    (hChild : e.child ∉ c.typeNames) :
    ∃ before first after, c.nestingEdges = before ++ first :: after ∧
      (∀ e ∈ before, e.child ∈ c.typeNames) ∧ first.child ∉ c.typeNames ∧
        c.nestingOrder = .error (.unknownType first.child) := by
  have hKnown : ∀ e : NestingEdge, (!c.contains e.child) = false ↔ e.child ∈ c.typeNames := by
    intro e
    rw [Bool.not_eq_false', contains_iff_mem_typeNames]
  cases hFound : c.nestingEdges.find? fun e => !c.contains e.child with
  | none =>
    have hNone := List.find?_eq_none.mp hFound e he
    exact absurd ((hKnown e).mp (Bool.eq_false_iff.mpr hNone)) hChild
  | some first =>
    obtain ⟨hFirst, before, after, hEdges, hBefore⟩ := List.find?_eq_some_iff_append.mp hFound
    refine ⟨before, first, after, hEdges, fun e he => (hKnown e).mp ?_, ?_, ?_⟩
    · exact (Bool.not_eq_true' _).mp (hBefore e he)
    · rw [← hKnown, hFirst]
      decide
    · rw [nestingOrder, hFound]

theorem declared_of_nestingOrder {types : List String} (h : c.nestingOrder = .ok types) :
    ∀ parent child, c.Nests parent child → child ∈ c.typeNames := by
  unfold nestingOrder at h
  split at h
  · cases h
  · rename_i hNone
    exact undeclared_eq_none.mp hNone

section Declared
variable (hDeclared : ∀ parent child, c.Nests parent child → child ∈ c.typeNames)
include hDeclared

theorem nestingOrder_of_declared :
    c.nestingOrder = (Nesting.order c.typeNames c.nestingEdges).mapError .nestingCycle := by
  rw [nestingOrder, undeclared_eq_none.mpr hDeclared]

theorem nests_mem_typeNames (p t : String) (h : Nesting.Nests c.nestingEdges p t) :
    p ∈ c.typeNames ∧ t ∈ c.typeNames := by
  rw [nests_nestingEdges] at h
  exact ⟨h.declared, hDeclared p t h⟩

theorem nestingOrder_error {e : ModelError} (h : c.nestingOrder = .error e) :
    ∃ t, e = .nestingCycle t ∧ Relation.TransGen c.Nests t t := by
  rw [nestingOrder_of_declared hDeclared] at h
  cases hOrder : Nesting.order c.typeNames c.nestingEdges with
  | ok types =>
    rw [hOrder] at h
    cases h
  | error t =>
    rw [hOrder] at h
    cases h
    have hCycle := Nesting.order_error c.nodup_typeNames
      (fun p t hNests => (nests_mem_typeNames hDeclared p t hNests).1) hOrder
    rw [nests_nestingEdges] at hCycle
    exact ⟨t, rfl, hCycle⟩

end Declared

theorem nestingOrder_ok {types : List String} (h : c.nestingOrder = .ok types) :
    types.Perm c.typeNames ∧
      ∀ parent child, c.Nests parent child → types.idxOf child < types.idxOf parent := by
  have hDeclared := declared_of_nestingOrder h
  rw [nestingOrder_of_declared hDeclared] at h
  cases hOrder : Nesting.order c.typeNames c.nestingEdges with
  | error t =>
    rw [hOrder] at h
    cases h
  | ok found =>
    rw [hOrder] at h
    cases h
    have hOk := Nesting.order_ok c.nodup_typeNames (nests_mem_typeNames hDeclared) hOrder
    rwa [nests_nestingEdges] at hOk

theorem acyclic_of_nestingOrder {types : List String} (h : c.nestingOrder = .ok types) (t : String) :
    ¬ Relation.TransGen c.Nests t t := by
  intro hCycle
  have hBelow : ∀ u, Relation.TransGen c.Nests t u → types.idxOf u < types.idxOf t := by
    intro u hReach
    induction hReach with
    | single hNests => exact (nestingOrder_ok h).2 _ _ hNests
    | tail _ hNests ih => exact Nat.lt_trans ((nestingOrder_ok h).2 _ _ hNests) ih
  exact Nat.lt_irrefl _ (hBelow t hCycle)

theorem nestingOrder_ok_iff : (∃ types, c.nestingOrder = .ok types) ↔ c.WellNested := by
  constructor
  · rintro ⟨types, h⟩
    exact ⟨declared_of_nestingOrder h, acyclic_of_nestingOrder h⟩
  · intro h
    cases hOrder : c.nestingOrder with
    | ok types => exact ⟨types, rfl⟩
    | error e =>
      obtain ⟨t, -, hCycle⟩ := nestingOrder_error h.declared hOrder
      exact absurd hCycle (h.acyclic t)

/-- The order of a catalog, or what stands against one. The first edge to a form that is not declared
tells it. If all nested forms are declared, there is either a cycle, and a type on one is told, or
every declared type stands in the order once, behind all types that it nests. -/
theorem nestingOrder_exact (c : Catalog) :
    ((∃ e ∈ c.nestingEdges, e.child ∉ c.typeNames) →
        ∃ before first after, c.nestingEdges = before ++ first :: after ∧
          (∀ e ∈ before, e.child ∈ c.typeNames) ∧ first.child ∉ c.typeNames ∧
            c.nestingOrder = .error (.unknownType first.child)) ∧
      ((∀ e ∈ c.nestingEdges, e.child ∈ c.typeNames) →
        ((∃ t, c.nestingOrder = .error (.nestingCycle t)) ↔ ∃ t, Relation.TransGen c.Nests t t) ∧
        (∀ t, c.nestingOrder = .error (.nestingCycle t) → Relation.TransGen c.Nests t t) ∧
        ((∀ t, ¬ Relation.TransGen c.Nests t t) →
          ∃ types, c.nestingOrder = .ok types ∧ types.Nodup ∧ (∀ t, t ∈ types ↔ t ∈ c.typeNames) ∧
            ∀ parent child, c.Nests parent child → types.idxOf child < types.idxOf parent)) := by
  refine ⟨fun ⟨e, he, hChild⟩ => nestingOrder_of_undeclared he hChild, fun hEdges => ?_⟩
  have hDeclared : ∀ parent child, c.Nests parent child → child ∈ c.typeNames :=
    fun parent child hNests => hEdges ⟨parent, child⟩ (mem_nestingEdges.mpr hNests)
  have hTold : ∀ t, c.nestingOrder = .error (.nestingCycle t) → Relation.TransGen c.Nests t t := by
    intro t h
    obtain ⟨u, hSame, hCycle⟩ := nestingOrder_error hDeclared h
    cases hSame
    exact hCycle
  refine ⟨⟨fun ⟨t, h⟩ => ⟨t, hTold t h⟩, fun ⟨t, hCycle⟩ => ?_⟩, hTold, fun hAcyclic => ?_⟩
  · cases hOrder : c.nestingOrder with
    | ok types => exact absurd hCycle (acyclic_of_nestingOrder hOrder t)
    | error e =>
      obtain ⟨u, rfl, -⟩ := nestingOrder_error hDeclared hOrder
      exact ⟨u, rfl⟩
  · obtain ⟨types, hOrder⟩ := nestingOrder_ok_iff.mpr ⟨hDeclared, hAcyclic⟩
    obtain ⟨hPerm, hBehind⟩ := nestingOrder_ok hOrder
    exact ⟨types, hOrder, hPerm.nodup_iff.mpr c.nodup_typeNames, fun t => hPerm.mem_iff, hBehind⟩

end Catalog

namespace Sample

def shopForms : Catalog :=
  let form (name type : String) : MemberDeclaration :=
    { name, shape := .property (.form type), tags := [.nestedForm] }
  .ofDeclarations [
    { name := "Order", members := [form "buyer" "Buyer", form "back" "Return"] },
    { name := "Return", members := [form "of" "Order"] },
    { name := "Shop", members := [form "first" "Order", form "last" "Order"] },
    { name := "Buyer" }]

theorem shopForms_cycle :
    shopForms.nestingOrder = .error (.nestingCycle "Return") ∧
      Relation.TransGen shopForms.Nests "Return" "Return" := by
  have hTold : shopForms.nestingOrder = .error (.nestingCycle "Return") := by cbv
  have hEdges : ∀ e ∈ shopForms.nestingEdges, e.child ∈ shopForms.typeNames := by decide
  obtain ⟨-, hDeclared⟩ := shopForms.nestingOrder_exact
  exact ⟨hTold, (hDeclared hEdges).2.1 "Return" hTold⟩

end Sample
end FormFlow
