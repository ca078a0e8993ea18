import FormFlow.Report.Basic
/-!
# The plans of a factory

Whatever is called on a factory whose settings are not changed any more, the
plans in its cache stay those that compilation gives under these settings. So
each type has the plan, or the defect, that compiling it afresh would give.
-/
namespace FormFlow

def PlanCache.Current (cache : PlanCache) (c : Catalog) (limit : Nat) : Prop :=
  ∀ t stored, cache.get? t = some stored → (c.compile limit t).result = .ok stored.plan

namespace PlanCache.Current
variable {cache : PlanCache} {c : Catalog} {limit : Nat}

theorem empty (c : Catalog) (limit : Nat) : ({} : PlanCache).Current c limit := by
  intro t stored h
  cases h

theorem store (h : cache.Current c limit) {t : String} {plan : Plan}
    (hPlan : (c.compile limit t).result = .ok plan) :
    (cache.store t plan).1.plan = plan ∧ (cache.store t plan).2.Current c limit := by
  have hCurrent : (cache.store t plan).2.Current c limit := by
    intro u stored hStored
    rcases get?_of_store cache t plan hStored with hBefore | ⟨rfl, rfl⟩
    · exact h u stored hBefore
    · exact hPlan
  have hStored := hCurrent t _ (get?_store_self cache t plan)
  exact ⟨Except.ok.inj (hStored.symm.trans hPlan), hCurrent⟩

theorem getOrCompile (h : cache.Current c limit) (t : String) :
    (cache.getOrCompile c limit t).1.result.map CachedPlan.plan = (c.compile limit t).result ∧
      (cache.getOrCompile c limit t).2.Current c limit := by
  unfold PlanCache.getOrCompile
  split
  · rename_i stored hStored
    exact ⟨(h t stored hStored).symm, h⟩
  · cases hCompiled : (c.compile limit t).result with
    | error e => exact ⟨by simp only [hCompiled]; rfl, by simp only [hCompiled]; exact h⟩
    | ok plan =>
      obtain ⟨hPlan, hCurrent⟩ := h.store hCompiled
      simp only [hCompiled]
      exact ⟨congrArg Except.ok hPlan, hCurrent⟩

end PlanCache.Current

namespace Factory

inductive Call where
  | plan (typeName : String)
  | build (typeName : String) (supplied : Fields)
  | run (existing : Instance)
  | buildBlocking (typeName : String) (supplied : Fields)
  | runBlocking (existing : Instance)
  | buildTyped (view : TypedView) (typeName : String) (supplied : Fields)
  | runTyped (view : TypedView) (typeName : String) (existing : Json)
  | cancel

def after (f : Factory) : Call → Factory
  | .plan typeName => (f.plan typeName).factory
  | .build typeName supplied => (f.build typeName supplied).factory
  | .run existing => (f.run existing).factory
  | .buildBlocking typeName supplied => (f.buildBlocking typeName supplied).factory
  | .runBlocking existing => (f.runBlocking existing).factory
  | .buildTyped view typeName supplied => (f.buildTyped view typeName supplied).factory
  | .runTyped view typeName existing => (f.runTyped view typeName existing).factory
  | .cancel => f.cancel

/-- The second factory is the first one after look-ups of plans and runs on its surface. -/
inductive LeadsTo : Factory → Factory → Prop where
  | refl (f : Factory) : LeadsTo f f
  | plan {f g : Factory} (h : LeadsTo f g) (typeName : String) :
      LeadsTo f (g.plan typeName).factory
  | surface {f g : Factory} (h : LeadsTo f g) (surface : Surface) : LeadsTo f { g with surface }

def Call.lookedUp? : Call → Option String
  | .plan typeName | .build typeName _ | .buildBlocking typeName _ | .buildTyped _ typeName _ =>
    some typeName
  | .run existing | .runBlocking existing => some existing.typeName
  | .runTyped _ typeName existing => (Instance.ofTyped typeName existing).toOption.map Instance.typeName
  | .cancel => none

/-- The second factory is the first one after it has looked the plan of the type up, once or more, and
run on its surface. -/
inductive LooksUp (t : String) (f : Factory) : Factory → Prop where
  | first : LooksUp t f (f.plan t).factory
  | again {g : Factory} (h : LooksUp t f g) : LooksUp t f (g.plan t).factory
  | surface {g : Factory} (h : LooksUp t f g) (surface : Surface) : LooksUp t f { g with surface }

namespace LooksUp
variable {α : Type} {f g : Factory} {t : String}

theorem trans {h : Factory} (hFirst : f.LooksUp t g) (hLater : g.LooksUp t h) : f.LooksUp t h := by
  induction hLater with
  | first => exact hFirst.again
  | again _ ih => exact ih.again
  | surface _ surface ih => exact ih.surface surface

theorem withPlan {go : Factory → Plan → Called (Except FormError α)}
    (hGo : ∀ g plan, f.LooksUp t g → f.LooksUp t (go g plan).factory) :
    f.LooksUp t (f.withPlan t go).factory := by
  simp only [Factory.withPlan]
  split
  · exact .first
  · exact hGo _ _ .first

theorem whenSync {go : Factory → Called (Except FormError α)}
    (hGo : ∀ g : Factory, g.LooksUp t (go g).factory) : f.LooksUp t (f.whenSync t go).factory := by
  refine withPlan fun g plan hLooked => ?_
  split
  · exact hLooked
  · exact hLooked.trans (hGo g)

theorem build (f : Factory) (t : String) (supplied : Fields) :
    f.LooksUp t (f.build t supplied).factory := by
  refine withPlan fun g plan hLooked => ?_
  split
  · exact hLooked
  · exact hLooked.surface _

theorem run (f : Factory) (existing : Instance) :
    f.LooksUp existing.typeName (f.run existing).factory :=
  withPlan fun _ _ hLooked => hLooked.surface _

theorem leadsTo (h : f.LooksUp t g) : f.LeadsTo g := by
  induction h with
  | first => exact (LeadsTo.refl f).plan t
  | again _ ih => exact ih.plan t
  | surface _ surface ih => exact ih.surface surface

end LooksUp

theorem after_cases (f : Factory) (call : Call) :
    (∃ t, call.lookedUp? = some t ∧ f.LooksUp t (f.after call)) ∨
      call.lookedUp? = none ∧ ∃ surface, f.after call = { f with surface } := by
  cases call with
  | plan t => exact .inl ⟨t, rfl, .first⟩
  | build t supplied => exact .inl ⟨t, rfl, .build f t supplied⟩
  | run existing => exact .inl ⟨_, rfl, .run f existing⟩
  | buildBlocking t supplied => exact .inl ⟨t, rfl, .whenSync fun g => .build g t supplied⟩
  | runBlocking existing => exact .inl ⟨_, rfl, .whenSync fun g => .run g existing⟩
  | buildTyped view t supplied => exact .inl ⟨t, rfl, .build f t supplied⟩
  | runTyped view t existing =>
    simp only [Factory.after, Factory.runTyped, Call.lookedUp?]
    split
    · rename_i error hDecoded
      exact .inr ⟨by rw [hDecoded]; rfl, f.surface, rfl⟩
    · rename_i inst hDecoded
      exact .inl ⟨inst.typeName, by rw [hDecoded]; rfl, .run f inst⟩
  | cancel => exact .inr ⟨rfl, _, rfl⟩

theorem leadsTo_after (f : Factory) (call : Call) : f.LeadsTo (f.after call) := by
  rcases f.after_cases call with ⟨t, -, hLooked⟩ | ⟨-, surface, hAfter⟩
  · exact hLooked.leadsTo
  · rw [hAfter]
    exact (LeadsTo.refl f).surface surface

structure Serves (f : Factory) (c : Catalog) (settings : Settings) : Prop where
  catalog_eq : f.catalog = c
  settings_eq : f.settings = settings
  current : f.cache.Current c settings.maxNestingDepth

namespace Serves
variable {f : Factory} {c : Catalog} {settings : Settings}

theorem new (c : Catalog) (surface : Surface) (runId : String) (settings : Settings) :
    ({ catalog := c, surface, runId, settings } : Factory).Serves c settings :=
  ⟨rfl, rfl, .empty c _⟩

theorem plan (h : f.Serves c settings) (t : String) :
    (f.plan t).value = (c.compile settings.maxNestingDepth t).result ∧
      (f.plan t).factory.Serves c settings := by
  obtain ⟨rfl, rfl, hCurrent⟩ := h
  obtain ⟨hValue, hNext⟩ := hCurrent.getOrCompile t
  exact ⟨hValue, rfl, rfl, hNext⟩

theorem plans (types : List String) : ∀ {f : Factory}, f.Serves c settings →
    (f.plans types).value =
        types.map (fun t => (t, (c.compile settings.maxNestingDepth t).result)) ∧
      (f.plans types).factory.Serves c settings := by
  induction types with
  | nil => exact fun h => ⟨rfl, h⟩
  | cons t rest ih =>
    intro f h
    obtain ⟨hValue, hNext⟩ := h.plan t
    obtain ⟨hValues, hLast⟩ := ih hNext
    refine ⟨?_, hLast⟩
    rw [List.map_cons, ← hValue, ← hValues]
    rfl

theorem leadsTo {g : Factory} (h : f.Serves c settings) (hLeads : f.LeadsTo g) :
    g.Serves c settings := by
  induction hLeads with
  | refl => exact h
  | plan _ t ih => exact (ih.plan t).2
  | surface _ surface ih => exact ⟨ih.catalog_eq, ih.settings_eq, ih.current⟩

end Serves
end Factory
end FormFlow
