import FormFlow.Proofs.Factory.Settings
/-!
# Plans under changing limits

A factory compiles under the settings in force, but a plan that it holds it gives
without looking at them. So a type has the plan, or the defect, that compiling it
afresh would give, unless it has become too deep since its plan was looked up.
-/
namespace FormFlow
namespace Factory

/-- The settings in force after the acts. -/
def Act.inForce (settings : Settings) : List Act → Settings
  | [] => settings
  | .call _ :: rest => inForce settings rest
  | .withSettings settings :: rest => inForce settings rest

/-- One of the calls looks the type up, and the type has that plan under the settings in force then. -/
inductive Act.Planned (c : Catalog) (t : String) (plan : Plan) : Settings → List Act → Prop
  | now {settings : Settings} {call : Call} {rest : List Act} (looked : call.lookedUp? = some t)
      (compiled : (c.compile settings.maxNestingDepth t).result = .ok plan) :
      Planned c t plan settings (.call call :: rest)
  | later {settings : Settings} {call : Call} {rest : List Act} (h : Planned c t plan settings rest) :
      Planned c t plan settings (.call call :: rest)
  | changed {settings next : Settings} {rest : List Act} (h : Planned c t plan next rest) :
      Planned c t plan settings (.withSettings next :: rest)

namespace Act
variable {c : Catalog} {settings next : Settings} {rest : List Act} {t : String} {plan : Plan}

theorem planned_call_iff {call : Call} :
    Planned c t plan settings (.call call :: rest) ↔
      (call.lookedUp? = some t ∧ (c.compile settings.maxNestingDepth t).result = .ok plan) ∨
        Planned c t plan settings rest := by
  constructor
  · rintro (⟨hLooked, hCompiled⟩ | h)
    · exact .inl ⟨hLooked, hCompiled⟩
    · exact .inr h
  · rintro (⟨hLooked, hCompiled⟩ | h)
    · exact .now hLooked hCompiled
    · exact .later h

theorem planned_withSettings_iff :
    Planned c t plan settings (.withSettings next :: rest) ↔ Planned c t plan next rest :=
  ⟨fun | .changed h => h, .changed⟩

theorem Planned.compiled {acts : List Act} (h : Planned c t plan settings acts) :
    ∃ limit, (c.compile limit t).result = .ok plan := by
  induction h with
  | now _ hCompiled => exact ⟨_, hCompiled⟩
  | later _ ih => exact ih
  | changed _ ih => exact ih

end Act

def held? (f : Factory) (t : String) : Option Plan := (f.cache.get? t).map CachedPlan.plan

def compiled (f : Factory) (t : String) : Except ModelError Plan :=
  (f.catalog.compile f.settings.maxNestingDepth t).result

variable {f g : Factory} {c : Catalog} {settings : Settings} {acts : List Act} {t u : String}
  {plan : Plan}

section Lookups

structure Learns (f : Factory) (t : String) (g : Factory) : Prop where
  catalog_eq : g.catalog = f.catalog
  settings_eq : g.settings = f.settings
  self : g.held? t = (f.held? t).or (f.compiled t).toOption
  others : ∀ u, u ≠ t → g.held? u = f.held? u

theorem plan_learns (f : Factory) (t : String) :
    f.Learns t (f.plan t).factory ∧
      (f.plan t).value = ((f.held? t).map Except.ok).getD (f.compiled t) := by
  cases hFound : f.cache.get? t with
  | some stored =>
    have hHeld : f.held? t = some stored.plan := by rw [held?, hFound, Option.map_some]
    have hPlan : f.plan t = ⟨[.logged (.planCacheHit t)], .ok stored.plan, f⟩ := by
      rw [Factory.plan, PlanCache.getOrCompile_found hFound]
      rfl
    rw [hPlan, hHeld]
    exact ⟨⟨rfl, rfl, by rw [hHeld, Option.some_or], fun _ _ => rfl⟩, rfl⟩
  | none =>
    have hHeld : f.held? t = none := by rw [held?, hFound, Option.map_none]
    cases hResult : f.compiled t with
    | error e =>
      have hPlan : (f.plan t).factory = f ∧ (f.plan t).value = .error e := by
        simp only [compiled] at hResult
        simp only [Factory.plan, PlanCache.getOrCompile, hFound, hResult, true_and]
        rfl
      rw [hPlan.1, hPlan.2, hHeld]
      exact ⟨⟨rfl, rfl, by rw [hHeld, hResult]; rfl, fun _ _ => rfl⟩, rfl⟩
    | ok plan =>
      have hPlan : (f.plan t).factory = { f with cache := (f.cache.store t plan).2 } ∧
          (f.plan t).value = .ok (f.cache.store t plan).1.plan := by
        simp only [compiled] at hResult
        simp only [Factory.plan, PlanCache.getOrCompile, hFound, hResult, true_and]
        rfl
      have hStored : (f.cache.store t plan).1.plan = plan := by simp only [PlanCache.store, hFound]
      rw [hPlan.1, hPlan.2, hHeld, hStored]
      refine ⟨⟨rfl, rfl, ?_, fun u hOther => ?_⟩, rfl⟩
      · rw [held?, PlanCache.get?_store_self, hHeld, hResult, Option.map_some, hStored]
        rfl
      · rw [held?, PlanCache.get?_store_of_ne _ _ _ hOther, held?]

theorem Learns.again {h : Factory} (hFirst : f.Learns t g) (hAgain : g.Learns t h) : f.Learns t h := by
  have hCompiled : g.compiled t = f.compiled t := by
    rw [compiled, hFirst.catalog_eq, hFirst.settings_eq, compiled]
  constructor
  · rw [hAgain.catalog_eq, hFirst.catalog_eq]
  · rw [hAgain.settings_eq, hFirst.settings_eq]
  · rw [hAgain.self, hCompiled, hFirst.self, Option.or_assoc, Option.or_self]
  · intro u hOther
    rw [hAgain.others u hOther, hFirst.others u hOther]

theorem LooksUp.learns (h : f.LooksUp t g) : f.Learns t g := by
  induction h with
  | first => exact (f.plan_learns t).1
  | @again g _ ih => exact ih.again (g.plan_learns t).1
  | surface _ _ ih => exact ⟨ih.catalog_eq, ih.settings_eq, ih.self, ih.others⟩

theorem Keeps.eq_of_held? (h : f.Keeps c) {held : Plan} {limit : Nat} (hHeld : f.held? t = some held)
    (hCompiled : (c.compile limit t).result = .ok plan) : held = plan := by
  obtain ⟨stored, hStored, rfl⟩ := Option.map_eq_some_iff.mp hHeld
  obtain ⟨earlier, hEarlier⟩ := h.compiled t stored hStored
  exact Catalog.compile_ok_unique hCompiled hEarlier

theorem Learns.held?_iff (h : f.Learns u g) (hKeeps : f.Keeps c) :
    g.held? t = some plan ↔
      f.held? t = some plan ∨ u = t ∧ (c.compile f.settings.maxNestingDepth t).result = .ok plan := by
  by_cases hEq : t = u
  · subst hEq
    rw [h.self, compiled, hKeeps.catalog_eq]
    cases hHeld : f.held? t with
    | none => cases (c.compile f.settings.maxNestingDepth t).result <;> simp [Except.toOption]
    | some held =>
      constructor
      · exact .inl
      · rintro (hOld | ⟨-, hNew⟩)
        · exact hOld
        · exact congrArg some (hKeeps.eq_of_held? hHeld hNew)
  · rw [h.others t hEq]
    simp [Ne.symm hEq]

end Lookups

section Runs

theorem after_settings (f : Factory) (call : Call) : (f.after call).settings = f.settings := by
  rcases f.after_cases call with ⟨u, -, hLooked⟩ | ⟨-, surface, hAfter⟩
  · exact hLooked.learns.settings_eq
  · rw [hAfter]

theorem held?_after_iff (h : f.Keeps c) (call : Call) :
    (f.after call).held? t = some plan ↔ f.held? t = some plan ∨
      call.lookedUp? = some t ∧ (c.compile f.settings.maxNestingDepth t).result = .ok plan := by
  rcases f.after_cases call with ⟨u, hName, hLooked⟩ | ⟨hName, surface, hAfter⟩
  · rw [hLooked.learns.held?_iff h, hName, Option.some_inj]
  · rw [hAfter, hName]
    simp [held?]

theorem settings_acts (acts : List Act) :
    ∀ f : Factory, (acts.foldl act f).settings = Act.inForce f.settings acts := by
  induction acts with
  | nil => exact fun f => rfl
  | cons a rest ih =>
    intro f
    rw [List.foldl_cons, ih]
    cases a with
    | call call => rw [act, f.after_settings, Act.inForce]
    | withSettings settings => rfl

theorem held?_acts_iff (acts : List Act) : ∀ {f : Factory}, f.Keeps c →
    ((acts.foldl act f).held? t = some plan ↔
      f.held? t = some plan ∨ Act.Planned c t plan f.settings acts) := by
  induction acts with
  | nil =>
    intro f _
    exact ⟨.inl, fun h => h.elim id fun hPlanned => nomatch hPlanned⟩
  | cons a rest ih =>
    intro f h
    rw [List.foldl_cons, ih (h.act a)]
    cases a with
    | call call =>
      rw [act, held?_after_iff h, f.after_settings, Act.planned_call_iff, or_assoc]
    | withSettings settings =>
      rw [Act.planned_withSettings_iff]
      rfl

end Runs

/-- A type is planned as it is under the settings in force, except if it is too deep for them and a
call before has looked it up under settings that admit it: then it keeps the plan of that time. -/
theorem plan_follows_settings (c : Catalog) (surface : Surface) (runId : String)
    (settings : Settings) (acts : List Act) (t : String) :
    let f : Factory := acts.foldl act { catalog := c, surface, runId, settings }
    let now := (c.compile (Act.inForce settings acts).maxNestingDepth t).result
    (∀ plan, Act.Planned c t plan settings acts → (f.plan t).value = .ok plan) ∧
      ((f.plan t).value = now ↔
        ¬ ((∃ plan, Act.Planned c t plan settings acts) ∧
          ∃ form depth max, now = .error (.nestingTooDeep form depth max))) := by
  intro f now
  have hNew : ({ catalog := c, surface, runId, settings } : Factory).Keeps c :=
    .new c surface runId settings
  have hKeeps : f.Keeps c := hNew.acts acts
  have hHeld : ∀ plan, f.held? t = some plan ↔ Act.Planned c t plan settings acts := fun plan => by
    rw [held?_acts_iff acts hNew]
    simp [held?, PlanCache.get?]
  have hNow : f.compiled t = now := by
    rw [compiled, hKeeps.catalog_eq, settings_acts]
  have hPlanned : ∀ plan, Act.Planned c t plan settings acts → (f.plan t).value = .ok plan := by
    intro plan h
    rw [(f.plan_learns t).2, (hHeld plan).mpr h]
    rfl
  refine ⟨hPlanned, fun hSame => ?_, fun hAdmitted => ?_⟩
  · rintro ⟨⟨plan, h⟩, form, depth, max, hDeep⟩
    rw [hPlanned plan h, hDeep] at hSame
    cases hSame
  · cases hHolds : f.held? t with
    | none =>
      rw [(f.plan_learns t).2, hHolds, hNow]
      rfl
    | some plan =>
      have h := (hHeld plan).mp hHolds
      rw [hPlanned plan h]
      cases hResult : now with
      | ok other => exact congrArg Except.ok (hKeeps.eq_of_held? hHolds hResult)
      | error e =>
        obtain ⟨limit, hEarlier⟩ := h.compiled
        obtain ⟨form, depth, max, rfl⟩ := Catalog.compile_tooDeep_of_ok hEarlier hResult
        exact absurd ⟨⟨plan, h⟩, form, depth, max, hResult⟩ hAdmitted

end Factory

namespace Sample

/-- A team that was planned while one level was admitted still has its plan when none is. -/
theorem team_outlives_limit :
    let f := [Factory.Act.call (.plan "Team"), .withSettings { maxNestingDepth := 0 }].foldl
      Factory.act { catalog := invites, surface := oneAnswer, runId := "1" }
    f.settings.maxNestingDepth = 0 ∧ (f.plan "Team").value = .ok teamPlan ∧
      (invites.compile 0 "Team").result = .error (.nestingTooDeep "Invite" 1 0) ∧
      (f.plan "Team").value ≠ (invites.compile f.settings.maxNestingDepth "Team").result := by
  intro f
  have hKept : (f.plan "Team").value = .ok teamPlan := by cbv
  have hDeep : (invites.compile 0 "Team").result = .error (.nestingTooDeep "Invite" 1 0) := by cbv
  refine ⟨rfl, hKept, hDeep, ?_⟩
  have hLimit : f.settings.maxNestingDepth = 0 := rfl
  rw [hKept, hLimit, hDeep]
  rintro ⟨⟩

theorem team_planned_anew :
    let f : Factory := { catalog := invites, surface := oneAnswer, runId := "1" }
    let none : Settings := { maxNestingDepth := 0 }
    let lowered : List Factory.Act := [.call (.build "Team" []), .withSettings none]
    let raised : List Factory.Act :=
      [.withSettings none, .call (.plan "Team"), .withSettings { maxNestingDepth := 1 }]
    Factory.Act.Planned invites "Team" teamPlan {} lowered ∧
      ((lowered.foldl Factory.act f).plan "Team").value = .ok teamPlan ∧
      (¬ ∃ plan, Factory.Act.Planned invites "Team" plan {} raised) ∧
      ((raised.foldl Factory.act f).plan "Team").value = (invites.compile 1 "Team").result := by
  intro f none lowered raised
  have hDeep : (invites.compile 0 "Team").result = .error (.nestingTooDeep "Invite" 1 0) := by cbv
  have hLowered : Factory.Act.Planned invites "Team" teamPlan {} lowered := .now rfl (by cbv)
  have hRaised : ¬ ∃ plan, Factory.Act.Planned invites "Team" plan {} raised := by
    rintro ⟨plan, hPlanned⟩
    rw [Factory.Act.planned_withSettings_iff, Factory.Act.planned_call_iff] at hPlanned
    rcases hPlanned with ⟨-, hCompiled⟩ | hLater
    · cases hDeep.symm.trans hCompiled
    · cases Factory.Act.planned_withSettings_iff.mp hLater
  obtain ⟨hKept, -⟩ := Factory.plan_follows_settings invites oneAnswer "1" {} lowered "Team"
  obtain ⟨-, hAnew⟩ := Factory.plan_follows_settings invites oneAnswer "1" {} raised "Team"
  exact ⟨hLowered, hKept teamPlan hLowered, hRaised, hAnew.mpr fun h => hRaised h.1⟩

end Sample
end FormFlow
