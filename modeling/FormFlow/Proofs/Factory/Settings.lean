import FormFlow.Proofs.Factory.Plans
import FormFlow.Proofs.Compilation.Context
/-!
# Factories whose settings change

Plans stay in the cache of a factory when its settings are changed. Each of them
was compiled under a limit that was in force then, and is the only plan that its
type has.
-/
namespace FormFlow

namespace PlanCache
variable {cache : PlanCache} {c : Catalog} {limit : Nat}

/-- Each stored plan is the plan of its type under some limit. -/
def Compiled (cache : PlanCache) (c : Catalog) : Prop :=
  ∀ t stored, cache.get? t = some stored → ∃ limit, (c.compile limit t).result = .ok stored.plan

theorem getOrCompile_found {t : String} {stored : CachedPlan} (h : cache.get? t = some stored) :
    cache.getOrCompile c limit t = (.of [.planCacheHit t] (.ok stored), cache) := by
  simp only [getOrCompile, h]

theorem get?_of_getOrCompile {t : String} {stored : CachedPlan}
    (h : (cache.getOrCompile c limit t).1.result = .ok stored) :
    (cache.getOrCompile c limit t).2.get? t = some stored := by
  cases hFound : cache.get? t with
  | some found =>
    rw [getOrCompile_found hFound] at h ⊢
    exact hFound.trans (congrArg some (Except.ok.inj h))
  | none =>
    cases hResult : (c.compile limit t).result with
    | error e =>
      simp only [getOrCompile, hFound, hResult] at h
      cases h
    | ok plan =>
      simp only [getOrCompile, hFound, hResult] at h ⊢
      exact (get?_store_self cache t plan).trans (congrArg some (Except.ok.inj h))

namespace Compiled

theorem getOrCompile (h : cache.Compiled c) (limit : Nat) (t : String) :
    (cache.getOrCompile c limit t).2.Compiled c := by
  cases hFound : cache.get? t with
  | some stored =>
    rw [getOrCompile_found hFound]
    exact h
  | none =>
    cases hResult : (c.compile limit t).result with
    | error e =>
      simp only [PlanCache.getOrCompile, hFound, hResult]
      exact h
    | ok plan =>
      simp only [PlanCache.getOrCompile, hFound, hResult]
      intro u stored hStored
      rcases get?_of_store cache t plan hStored with hBefore | ⟨rfl, rfl⟩
      · exact h u stored hBefore
      · exact ⟨limit, hResult⟩

theorem result_eq (h : cache.Compiled c) {t : String} {plan : Plan}
    (hPlan : (c.compile limit t).result = .ok plan) :
    ∃ stored, (cache.getOrCompile c limit t).1.result = .ok stored ∧ stored.plan = plan := by
  cases hFound : cache.get? t with
  | some stored =>
    obtain ⟨limit', hStored⟩ := h t stored hFound
    refine ⟨stored, ?_, Catalog.compile_ok_unique hPlan hStored⟩
    rw [getOrCompile_found hFound]
    rfl
  | none =>
    simp only [PlanCache.getOrCompile, hFound, hPlan, store]
    exact ⟨_, rfl, rfl⟩

end Compiled
end PlanCache

namespace Factory

/-- A call of a factory, or a change of its settings. -/
inductive Act where
  | call (call : Call)
  | withSettings (settings : Settings)

def act (f : Factory) : Act → Factory
  | .call call => f.after call
  | .withSettings settings => f.withSettings settings

structure Keeps (f : Factory) (c : Catalog) : Prop where
  catalog_eq : f.catalog = c
  compiled : f.cache.Compiled c

namespace Keeps
variable {f g : Factory} {c : Catalog}

theorem new (c : Catalog) (surface : Surface) (runId : String) (settings : Settings) :
    ({ catalog := c, surface, runId, settings } : Factory).Keeps c :=
  ⟨rfl, fun _ _ h => by cases h⟩

theorem plan (h : f.Keeps c) (t : String) : (f.plan t).factory.Keeps c := by
  obtain ⟨rfl, hCompiled⟩ := h
  exact ⟨rfl, hCompiled.getOrCompile _ t⟩

theorem leadsTo (h : f.Keeps c) (hLeads : f.LeadsTo g) : g.Keeps c := by
  induction hLeads with
  | refl => exact h
  | plan _ t ih => exact ih.plan t
  | surface _ surface ih => exact ⟨ih.catalog_eq, ih.compiled⟩

theorem act (h : f.Keeps c) (a : Act) : (f.act a).Keeps c := by
  cases a with
  | call call => exact h.leadsTo (f.leadsTo_after call)
  | withSettings settings => exact ⟨h.catalog_eq, h.compiled⟩

theorem acts (h : f.Keeps c) (acts : List Act) : (acts.foldl Factory.act f).Keeps c := by
  induction acts generalizing f with
  | nil => exact h
  | cons a rest ih => exact ih (h.act a)

theorem plan_eq (h : f.Keeps c) {t : String} {plan : Plan}
    (hPlan : (c.compile f.settings.maxNestingDepth t).result = .ok plan) :
    (f.plan t).value = .ok plan ∧ (f.plan t).factory.plan t =
      ⟨[.logged (.planCacheHit t)], .ok plan, (f.plan t).factory⟩ := by
  obtain ⟨rfl, hCompiled⟩ := h
  obtain ⟨stored, hResult, rfl⟩ := hCompiled.result_eq hPlan
  have hFound := PlanCache.get?_of_getOrCompile hResult
  constructor
  · simp only [Factory.plan, hResult]
    rfl
  · rw [Factory.plan]
    simp only [Factory.plan, PlanCache.getOrCompile_found hFound]
    rfl

end Keeps
end Factory
end FormFlow
