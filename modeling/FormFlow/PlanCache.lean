import FormFlow.Compilation
/-!
# Plan cache

Compiled plans by type name. Looking a plan up, compiling it and storing it are
separate steps; storing keeps a plan that is already there. Every plan gets a
serial number when it is compiled, so that stored plans can be told apart.
-/
namespace FormFlow

structure CachedPlan where
  serial : Nat
  plan : Plan

structure PlanCache where
  plans : Assoc CachedPlan := []
  issued : Nat := 0

namespace PlanCache

def empty : PlanCache := {}

def get? (cache : PlanCache) (typeName : String) : Option CachedPlan :=
  Assoc.get? cache.plans typeName

/-- Stores a freshly compiled plan unless one is stored already, and gives the stored one. -/
def store (cache : PlanCache) (typeName : String) (plan : Plan) : CachedPlan × PlanCache :=
  match cache.get? typeName with
  | some stored => (stored, { cache with issued := cache.issued + 1 })
  | none =>
    let fresh : CachedPlan := ⟨cache.issued, plan⟩
    (fresh, ⟨Assoc.insert cache.plans typeName fresh, cache.issued + 1⟩)

/-- The stored plan of a type, compiled and stored first if there is none. A failure is not
stored. -/
def getOrCompile (cache : PlanCache) (c : Catalog) (limit : Nat) (typeName : String) :
    Traced CachedPlan × PlanCache :=
  match cache.get? typeName with
  | some stored => (.of [.planCacheHit typeName] (.ok stored), cache)
  | none =>
    let compiled := c.compile limit typeName
    match compiled.result with
    | .error error => (.of compiled.log (.error error), cache)
    | .ok plan =>
      let (stored, cache) := cache.store typeName plan
      (.of (compiled.log ++ [.planCompiled typeName plan.operations.length plan.isAsync])
        (.ok stored), cache)

def invalidate (cache : PlanCache) (typeName : String) : PlanCache :=
  { cache with plans := Assoc.erase cache.plans typeName }

def clear (cache : PlanCache) : PlanCache := { cache with plans := [] }

def size (cache : PlanCache) : Nat := cache.plans.length

section Operations
variable (cache : PlanCache) (t : String) (plan : Plan)

@[simp] theorem get?_invalidate_self : (cache.invalidate t).get? t = none :=
  Assoc.get?_erase_self cache.plans t

theorem get?_invalidate_of_ne {u : String} (h : u ≠ t) :
    (cache.invalidate t).get? u = cache.get? u := Assoc.get?_erase_of_ne cache.plans h

@[simp] theorem get?_clear : cache.clear.get? t = none := rfl

@[simp] theorem get?_store_self : (cache.store t plan).2.get? t = some (cache.store t plan).1 := by
  unfold store
  split
  · assumption
  · exact Assoc.get?_insert_self cache.plans t _

theorem get?_store_of_ne {u : String} (h : u ≠ t) :
    (cache.store t plan).2.get? u = cache.get? u := by
  unfold store
  split
  · rfl
  · exact Assoc.get?_insert_of_ne cache.plans _ h

theorem store_of_some {stored : CachedPlan} (h : cache.get? t = some stored) :
    (cache.store t plan).1 = stored := by simp only [store, h]

theorem get?_of_store {u : String} {found : CachedPlan}
    (h : (cache.store t plan).2.get? u = some found) :
    cache.get? u = some found ∨ u = t ∧ found = ⟨cache.issued, plan⟩ := by
  by_cases hEq : u = t
  · subst hEq
    cases hFound : cache.get? u with
    | none =>
      rw [get?_store_self, store, hFound] at h
      cases h
      exact .inr ⟨rfl, rfl⟩
    | some stored =>
      rw [get?_store_self, store_of_some _ _ _ hFound] at h
      exact .inl h
  · exact .inl (get?_store_of_ne cache t plan hEq ▸ h)

theorem get?_of_invalidate {u : String} {found : CachedPlan}
    (h : (cache.invalidate t).get? u = some found) : cache.get? u = some found := by
  by_cases hEq : u = t
  · rw [hEq, get?_invalidate_self] at h
    cases h
  · exact get?_invalidate_of_ne cache t hEq ▸ h

@[simp] theorem issued_store : (cache.store t plan).2.issued = cache.issued + 1 := by
  unfold store
  split <;> rfl

theorem sorted_store (h : Assoc.Sorted cache.plans) :
    Assoc.Sorted (cache.store t plan).2.plans := by
  unfold store
  split
  · exact h
  · exact Assoc.sorted_insert t _ h

end Operations

end PlanCache
end FormFlow
