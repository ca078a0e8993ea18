import FormFlow.Proofs.Factory.Plans
import FormFlow.Proofs.Compilation.Context
import Mathlib.Logic.Function.Basic
/-!
# Callers that share a plan cache

A call of `getOrCompile` takes up to three steps: it looks the plan up, compiles
it, and stores it unless another one is there by then. Steps of several callers
may come in any order, with removals anywhere between them. A call returns what
compilation gives all the same, and as long as a type is not removed all calls
for it return one plan.
-/
namespace FormFlow

namespace PlanCache
section Current
variable {cache : PlanCache} {c : Catalog} {limit : Nat}

theorem Current.invalidate (h : cache.Current c limit) (t : String) :
    (cache.invalidate t).Current c limit :=
  fun u stored hStored => h u stored (get?_of_invalidate cache t hStored)

theorem Current.clear (c : Catalog) (limit : Nat) : cache.clear.Current c limit := by
  intro u stored hStored
  cases hStored

end Current

inductive Phase where
  | idle
  | missed (typeName : String)
  | compiled (typeName : String) (plan : Plan)

def Phase.typeName? : Phase → Option String
  | .idle => none
  | .missed typeName => some typeName
  | .compiled typeName _ => some typeName

inductive Move (κ : Type) where
  | missed (caller : κ) (typeName : String)
  | compiled (caller : κ) (typeName : String)
  | returned (caller : κ) (typeName : String) (result : Except ModelError CachedPlan)
  | invalidated (typeName : String)
  | cleared

def Move.Removes {κ : Type} (typeName : String) : Move κ → Prop
  | .invalidated other => other = typeName
  | .cleared => True
  | _ => False

structure Shared (κ : Type) where
  cache : PlanCache
  phase : κ → Phase

namespace Shared
variable {κ : Type}

def fresh : Shared κ := ⟨.empty, fun _ => .idle⟩

/-- The stored plans are those that compilation gives, under one key each, and so are those that
callers are about to store. No stored plan has a serial number that is still to be issued. -/
structure Sound (c : Catalog) (limit : Nat) (s : Shared κ) : Prop where
  current : s.cache.Current c limit
  compiled : ∀ caller t plan, s.phase caller = .compiled t plan →
    (c.compile limit t).result = .ok plan
  sorted : Assoc.Sorted s.cache.plans
  serial_lt : ∀ t stored, s.cache.get? t = some stored → stored.serial < s.cache.issued

theorem Sound.fresh (c : Catalog) (limit : Nat) : (fresh : Shared κ).Sound c limit where
  current := .empty c limit
  compiled := fun _ _ _ h => by cases h
  sorted := .nil
  serial_lt := fun _ _ h => by cases h

theorem Sound.typeName_eq {c : Catalog} {limit : Nat} {s : Shared κ} (h : s.Sound c limit)
    (entry : String × CachedPlan) (hEntry : entry ∈ s.cache.plans) : entry.2.plan.typeName = entry.1 :=
  Catalog.compile_typeName (h.current _ _ (Assoc.get?_of_mem h.sorted hEntry))

variable [DecidableEq κ]

def enter (s : Shared κ) (caller : κ) (phase : Phase) : Shared κ :=
  { s with phase := Function.update s.phase caller phase }

@[simp] theorem enter_phase_self (s : Shared κ) (caller : κ) (phase : Phase) :
    (s.enter caller phase).phase caller = phase := by simp [enter]

theorem enter_phase_of_ne (s : Shared κ) {caller other : κ} (phase : Phase) (h : other ≠ caller) :
    (s.enter caller phase).phase other = s.phase other := by
  simp [enter, h]

@[simp] theorem enter_enter (s : Shared κ) (caller : κ) (phase phase' : Phase) :
    (s.enter caller phase).enter caller phase' = s.enter caller phase' := by simp [enter]

theorem enter_eq_self {s : Shared κ} {caller : κ} {phase : Phase} (h : s.phase caller = phase) :
    s.enter caller phase = s := by simp [enter, ← h]

/-- One atomic step of a caller, or a removal, which any caller may make at any time. -/
inductive Step (c : Catalog) (limit : Nat) : Shared κ → Move κ → Shared κ → Prop where
  | hit {s : Shared κ} {caller : κ} {t : String} {stored : CachedPlan}
      (idle : s.phase caller = .idle) (found : s.cache.get? t = some stored) :
      Step c limit s (.returned caller t (.ok stored)) s
  | missed {s : Shared κ} {caller : κ} {t : String} (idle : s.phase caller = .idle)
      (absent : s.cache.get? t = none) :
      Step c limit s (.missed caller t) (s.enter caller (.missed t))
  | failed {s : Shared κ} {caller : κ} {t : String} {error : ModelError}
      (missed : s.phase caller = .missed t) (result : (c.compile limit t).result = .error error) :
      Step c limit s (.returned caller t (.error error)) (s.enter caller .idle)
  | compiled {s : Shared κ} {caller : κ} {t : String} {plan : Plan}
      (missed : s.phase caller = .missed t) (result : (c.compile limit t).result = .ok plan) :
      Step c limit s (.compiled caller t) (s.enter caller (.compiled t plan))
  | stored {s : Shared κ} {caller : κ} {t : String} {plan : Plan}
      (compiled : s.phase caller = .compiled t plan) :
      Step c limit s (.returned caller t (.ok (s.cache.store t plan).1))
        { s.enter caller .idle with cache := (s.cache.store t plan).2 }
  | invalidated {s : Shared κ} (t : String) :
      Step c limit s (.invalidated t) { s with cache := s.cache.invalidate t }
  | cleared {s : Shared κ} : Step c limit s .cleared { s with cache := s.cache.clear }

inductive Runs (c : Catalog) (limit : Nat) : Shared κ → List (Move κ) → Shared κ → Prop where
  | nil (s : Shared κ) : Runs c limit s [] s
  | cons {s s' s'' : Shared κ} {move : Move κ} {moves : List (Move κ)}
      (step : Step c limit s move s') (rest : Runs c limit s' moves s'') :
      Runs c limit s (move :: moves) s''

namespace Sound
variable {c : Catalog} {limit : Nat} {s s' : Shared κ} {move : Move κ}

theorem enter (h : s.Sound c limit) {caller : κ} {phase : Phase}
    (hPhase : ∀ t plan, phase = .compiled t plan → (c.compile limit t).result = .ok plan) :
    (s.enter caller phase).Sound c limit := by
  refine ⟨h.current, fun other t plan hOther => ?_, h.sorted, h.serial_lt⟩
  by_cases hEq : other = caller
  · subst hEq
    rw [enter_phase_self] at hOther
    exact hPhase t plan hOther
  · rw [enter_phase_of_ne s phase hEq] at hOther
    exact h.compiled other t plan hOther

theorem step (h : s.Sound c limit) (hStep : Step c limit s move s') : s'.Sound c limit := by
  cases hStep with
  | hit => exact h
  | missed => exact h.enter fun _ _ hPhase => by cases hPhase
  | failed => exact h.enter fun _ _ hPhase => by cases hPhase
  | compiled _ hResult =>
    refine h.enter fun t plan hPhase => ?_
    cases hPhase
    exact hResult
  | @stored caller t plan hCompiled =>
    -- Another caller may have stored a plan meanwhile; it equals the one that is dropped then.
    have hIdle : (s.enter caller .idle).Sound c limit := h.enter fun _ _ hPhase => by cases hPhase
    obtain ⟨-, hCurrent⟩ := h.current.store (h.compiled caller t plan hCompiled)
    refine ⟨hCurrent, hIdle.compiled, sorted_store _ _ _ h.sorted, fun u found hFound => ?_⟩
    rw [issued_store]
    rcases get?_of_store _ _ _ hFound with hBefore | ⟨-, rfl⟩
    · exact Nat.lt_succ_of_lt (h.serial_lt u found hBefore)
    · exact Nat.lt_succ_self _
  | invalidated t =>
    exact ⟨h.current.invalidate t, h.compiled, Assoc.sorted_erase t h.sorted,
      fun u found hFound => h.serial_lt u found (get?_of_invalidate _ _ hFound)⟩
  | cleared => exact ⟨.clear c limit, h.compiled, .nil, fun _ _ hStored => by cases hStored⟩

theorem runs {moves : List (Move κ)} (h : s.Sound c limit) (hRuns : Runs c limit s moves s') :
    s'.Sound c limit := by
  induction hRuns with
  | nil => exact h
  | cons hStep _ ih => exact ih (h.step hStep)

theorem result_eq (h : s.Sound c limit) {caller : κ} {t : String}
    {result : Except ModelError CachedPlan}
    (hStep : Step c limit s (.returned caller t result) s') :
    result.map CachedPlan.plan = (c.compile limit t).result := by
  cases hStep with
  | hit _ hFound => exact (h.current t _ hFound).symm
  | failed _ hResult => exact hResult.symm
  | stored hCompiled =>
    have hPlan := h.compiled caller t _ hCompiled
    rw [hPlan]
    exact congrArg Except.ok (h.current.store hPlan).1

end Sound

section Steps
variable {c : Catalog} {limit : Nat} {s s' : Shared κ} {move : Move κ} {moves : List (Move κ)}
  {t : String} {p : CachedPlan}

theorem Step.cache_eq (h : Step c limit s move s')
    (hReturns : ∀ caller t p, move ≠ .returned caller t (.ok p)) (hRemoves : ∀ t, ¬ move.Removes t) :
    s'.cache = s.cache := by
  cases h with
  | hit | missed | failed | compiled => rfl
  | stored => exact absurd rfl (hReturns _ _ _)
  | invalidated u => exact absurd rfl (hRemoves u)
  | cleared => exact absurd trivial (hRemoves "")

theorem Step.get?_returned {caller : κ} (h : Step c limit s (.returned caller t (.ok p)) s') :
    s'.cache.get? t = some p := by
  cases h with
  | hit _ hFound => exact hFound
  | stored => exact get?_store_self _ _ _

theorem Step.get?_eq_some (h : Step c limit s move s') (hKeeps : ¬ move.Removes t)
    (hFound : s.cache.get? t = some p) : s'.cache.get? t = some p := by
  cases h with
  | hit | missed | failed | compiled => exact hFound
  | @stored _ u plan =>
    by_cases hEq : t = u
    · subst hEq
      exact (get?_store_self _ _ _).trans (congrArg some (store_of_some _ _ plan hFound))
    · exact (get?_store_of_ne _ _ _ hEq).trans hFound
  | invalidated u =>
    have hEq : t ≠ u := fun hEq => hKeeps hEq.symm
    exact (get?_invalidate_of_ne _ _ hEq).trans hFound
  | cleared => exact absurd trivial hKeeps

theorem Runs.get?_eq_some (h : Runs c limit s moves s') (hKeeps : ∀ move ∈ moves, ¬ move.Removes t)
    (hFound : s.cache.get? t = some p) : s'.cache.get? t = some p := by
  induction h with
  | nil => exact hFound
  | cons hStep _ ih =>
    obtain ⟨hMove, hMoves⟩ := List.forall_mem_cons.mp hKeeps
    exact ih hMoves (hStep.get?_eq_some hMove hFound)

theorem Step.get?_removed (h : Step c limit s move s') (hRemoves : move.Removes t) :
    s'.cache.get? t = none := by
  cases h with
  | hit | missed | failed | compiled | stored => cases hRemoves
  | invalidated u =>
    obtain rfl : u = t := hRemoves
    exact get?_invalidate_self _ _
  | cleared => rfl

def Outdates (s : Shared κ) (t : String) (serial : Nat) : Prop :=
  serial < s.cache.issued ∧ ∀ stored, s.cache.get? t = some stored → serial < stored.serial

theorem Step.issued_le (h : Step c limit s move s') : s.cache.issued ≤ s'.cache.issued := by
  cases h with
  | hit | missed | failed | compiled | invalidated | cleared => exact Nat.le_refl _
  | stored => simp

theorem Step.outdates {serial : Nat} (h : Step c limit s move s') (hOld : s.Outdates t serial) :
    s'.Outdates t serial := by
  refine ⟨Nat.lt_of_lt_of_le hOld.1 h.issued_le, fun stored hStored => ?_⟩
  cases h with
  | hit | missed | failed | compiled => exact hOld.2 stored hStored
  | stored =>
    rcases get?_of_store _ _ _ hStored with hBefore | ⟨-, rfl⟩
    · exact hOld.2 stored hBefore
    · exact hOld.1
  | invalidated u => exact hOld.2 stored (get?_of_invalidate _ _ hStored)
  | cleared => cases hStored

theorem Runs.outdates {serial : Nat} (h : Runs c limit s moves s') (hOld : s.Outdates t serial) :
    s'.Outdates t serial := by
  induction h with
  | nil => exact hOld
  | cons hStep _ ih => exact ih (hStep.outdates hOld)

theorem Runs.outdates_of_removes {serial : Nat} (h : Runs c limit s moves s')
    (hUsed : serial < s.cache.issued) (hRemoves : ∃ move ∈ moves, move.Removes t) :
    s'.Outdates t serial := by
  induction h with
  | nil => simp at hRemoves
  | @cons s s' s'' move moves hStep hRest ih =>
    have hUsed' : serial < s'.cache.issued := Nat.lt_of_lt_of_le hUsed hStep.issued_le
    by_cases hMove : move.Removes t
    · refine hRest.outdates ⟨hUsed', fun stored hStored => ?_⟩
      rw [hStep.get?_removed hMove] at hStored
      cases hStored
    · exact ih hUsed' (by simpa [hMove] using hRemoves)

theorem Runs.append {between : Shared κ} {first later : List (Move κ)}
    (hFirst : Runs c limit s first between) (hLater : Runs c limit between later s') :
    Runs c limit s (first ++ later) s' := by
  induction hFirst with
  | nil => exact hLater
  | cons hStep _ ih => exact .cons hStep (ih hLater)

theorem Runs.of_append {first later : List (Move κ)} (h : Runs c limit s (first ++ later) s') :
    ∃ between, Runs c limit s first between ∧ Runs c limit between later s' := by
  induction first generalizing s with
  | nil => exact ⟨s, .nil s, h⟩
  | cons move first ih =>
    cases h with
    | cons hStep hRest =>
      obtain ⟨between, hFirst, hLater⟩ := ih hRest
      exact ⟨between, .cons hStep hFirst, hLater⟩

theorem Runs.of_append_cons {first later : List (Move κ)}
    (h : Runs c limit s (first ++ move :: later) s') :
    ∃ before after, Runs c limit s first before ∧ Step c limit before move after ∧
      Runs c limit after later s' := by
  obtain ⟨before, hFirst, hLater⟩ := h.of_append
  cases hLater with
  | cons hStep hRest => exact ⟨before, _, hFirst, hStep, hRest⟩

theorem Sound.returned_eq_iff (h : s.Sound c limit) {before between after : List (Move κ)}
    {first later : κ} {q : CachedPlan}
    (hRuns : Runs c limit s (before ++ .returned first t (.ok p) ::
      (between ++ .returned later t (.ok q) :: after)) s') :
    p = q ↔ ∀ move ∈ between, ¬ move.Removes t := by
  obtain ⟨_, s₁, hBefore, hFirst, hRest⟩ := hRuns.of_append_cons
  obtain ⟨s₂, _, hBetween, hLater, -⟩ := hRest.of_append_cons
  have hSound : s₁.Sound c limit := (h.runs hBefore).step hFirst
  have hHeld : s₁.cache.get? t = some p := hFirst.get?_returned
  constructor
  · rintro rfl move hMove hRemoves
    have hOld := hBetween.outdates_of_removes (hSound.serial_lt t p hHeld) ⟨move, hMove, hRemoves⟩
    exact Nat.lt_irrefl _ ((hLater.outdates hOld).2 p hLater.get?_returned)
  · intro hKeeps
    have hStill : s₂.cache.get? t = some p := hBetween.get?_eq_some hKeeps hHeld
    have hSame := hLater.get?_eq_some (t := t) id hStill
    exact Option.some.inj (hSame.symm.trans hLater.get?_returned)

theorem exists_returned (c : Catalog) (limit : Nat) (s : Shared κ) {caller : κ}
    (h : (s.phase caller).typeName? = some t) :
    ∃ own result s', own.Sublist [.compiled caller t] ∧
      Runs c limit s (own ++ [.returned caller t result]) s' := by
  cases hPhase : s.phase caller with
  | idle => simp [hPhase, Phase.typeName?] at h
  | missed u =>
    obtain rfl : u = t := by simpa [hPhase, Phase.typeName?] using h
    cases hResult : (c.compile limit u).result with
    | error e => exact ⟨[], .error e, _, List.nil_sublist _, .cons (.failed hPhase hResult) (.nil _)⟩
    | ok plan =>
      exact ⟨[.compiled caller u], _, _, List.Sublist.refl _,
        .cons (.compiled hPhase hResult) (.cons (.stored (enter_phase_self _ _ _)) (.nil _))⟩
  | compiled u plan =>
    obtain rfl : u = t := by simpa [hPhase, Phase.typeName?] using h
    exact ⟨[], _, _, List.nil_sublist _, .cons (.stored hPhase) (.nil _)⟩

/-- An uninterrupted call takes the steps that `getOrCompile` takes as a whole. -/
theorem runs_getOrCompile (c : Catalog) (limit : Nat) (s : Shared κ) {caller : κ}
    (hIdle : s.phase caller = .idle) (t : String) :
    ∃ own, own.Sublist [.missed caller t, .compiled caller t] ∧
      Runs c limit s (own ++ [.returned caller t (s.cache.getOrCompile c limit t).1.result])
        { s with cache := (s.cache.getOrCompile c limit t).2 } := by
  have hBack : s.enter caller .idle = s := enter_eq_self hIdle
  cases hFound : s.cache.get? t with
  | some stored =>
    refine ⟨[], List.nil_sublist _, ?_⟩
    simp only [getOrCompile, hFound]
    exact .cons (.hit hIdle hFound) (.nil _)
  | none =>
    have hPhase : (s.enter caller (.missed t)).phase caller = .missed t := enter_phase_self _ _ _
    cases hResult : (c.compile limit t).result with
    | error e =>
      refine ⟨[.missed caller t], by simp, .cons (.missed hIdle hFound) ?_⟩
      have hFailed := Step.failed hPhase hResult
      rw [enter_enter, hBack] at hFailed
      simp only [getOrCompile, hFound, hResult]
      exact .cons hFailed (.nil _)
    | ok plan =>
      refine ⟨[.missed caller t, .compiled caller t], List.Sublist.refl _,
        .cons (.missed hIdle hFound) (.cons (.compiled hPhase hResult) ?_)⟩
      have hStored : Step c limit _ _ _ :=
        .stored (enter_phase_self (s.enter caller (.missed t)) caller (.compiled t plan))
      rw [enter_enter, enter_enter, hBack] at hStored
      simp only [getOrCompile, hFound, hResult, enter_enter]
      exact .cons hStored (.nil _)

end Steps

/-- What the callers see of the cache, some steps after it was new. -/
structure Transparent (c : Catalog) (limit : Nat) (moves : List (Move κ)) (s : Shared κ) : Prop where
  result_eq : ∀ caller t result, .returned caller t result ∈ moves →
    result.map CachedPlan.plan = (c.compile limit t).result
  /-- Two calls for a type return one plan exactly if the type is not removed between them. -/
  eq_iff : ∀ before between after t first p later q,
    moves = before ++ .returned first t (.ok p) :: (between ++ .returned later t (.ok q) :: after) →
      (p = q ↔ ∀ move ∈ between, ¬ move.Removes t)
  nodup_keys : (Assoc.keys s.cache.plans).Nodup
  typeName_eq : ∀ entry ∈ s.cache.plans, entry.2.plan.typeName = entry.1
  get?_returned : ∀ caller t p s', Step c limit s (.returned caller t (.ok p)) s' →
    s'.cache.get? t = some p
  /-- A failing call, and one that has not returned yet, leaves the cache as it was. -/
  cache_eq : ∀ move s', Step c limit s move s' →
    (∀ caller t p, move ≠ .returned caller t (.ok p)) → (∀ t, ¬ move.Removes t) →
      s'.cache = s.cache
  returns : ∀ caller t, (s.phase caller).typeName? = some t →
    ∃ own result s', own.Sublist [.compiled caller t] ∧
      Runs c limit fresh (moves ++ (own ++ [.returned caller t result])) s'
  /-- A call of `getOrCompile` is one that no other step comes between. -/
  getOrCompile : ∀ caller t, s.phase caller = .idle →
    ∃ own, own.Sublist [.missed caller t, .compiled caller t] ∧
      Runs c limit fresh
        (moves ++ (own ++ [.returned caller t (s.cache.getOrCompile c limit t).1.result]))
        { s with cache := (s.cache.getOrCompile c limit t).2 }

/-- The plan cache is transparent under every interleaving of its callers' steps. -/
theorem runs_transparent {c : Catalog} {limit : Nat} {moves : List (Move κ)} {s : Shared κ}
    (hRuns : Runs c limit fresh moves s) : s.Transparent c limit moves := by
  have hNew : (fresh : Shared κ).Sound c limit := .fresh c limit
  have hSound : s.Sound c limit := hNew.runs hRuns
  constructor
  case result_eq =>
    intro caller t result hMove
    obtain ⟨before, after, rfl⟩ := List.append_of_mem hMove
    obtain ⟨_, _, hBefore, hStep, -⟩ := hRuns.of_append_cons
    exact (hNew.runs hBefore).result_eq hStep
  case eq_iff =>
    rintro before between after t first p later q rfl
    exact hNew.returned_eq_iff hRuns
  case nodup_keys => exact Assoc.nodup_keys hSound.sorted
  case typeName_eq => exact hSound.typeName_eq
  case get?_returned => exact fun _ _ _ _ hStep => hStep.get?_returned
  case cache_eq => exact fun _ _ hStep => hStep.cache_eq
  case returns =>
    intro caller t hCalls
    obtain ⟨own, result, s', hOwn, hEnd⟩ := exists_returned c limit s hCalls
    exact ⟨own, result, s', hOwn, hRuns.append hEnd⟩
  case getOrCompile =>
    intro caller t hIdle
    obtain ⟨own, hOwn, hCall⟩ := runs_getOrCompile c limit s hIdle t
    exact ⟨own, hOwn, hRuns.append hCall⟩

end Shared
end PlanCache

namespace Sample
open PlanCache

/-- Two callers miss the plan of a team and both compile it; the second one to store gets the plan of
the first. After a removal a third call compiles anew. -/
def race : List (Move Bool) :=
  [.missed true "Team", .missed false "Team", .compiled true "Team", .compiled false "Team",
    .returned false "Team" (.ok ⟨0, teamPlan⟩), .returned true "Team" (.ok ⟨0, teamPlan⟩),
    .invalidated "Team",
    .missed true "Team", .compiled true "Team", .returned true "Team" (.ok ⟨2, teamPlan⟩)]

theorem race_transparent :
    ∃ s, Shared.Runs invites 16 Shared.fresh race s ∧ s.Transparent invites 16 race := by
  have hCompiled : (invites.compile 16 "Team").result = .ok teamPlan := by cbv
  have hRuns : ∃ s, Shared.Runs invites 16 Shared.fresh race s :=
    ⟨_, .cons (.missed rfl rfl) <| .cons (.missed rfl rfl) <| .cons (.compiled rfl hCompiled) <|
      .cons (.compiled rfl hCompiled) <| .cons (.stored rfl) <| .cons (.stored rfl) <|
      .cons (.invalidated "Team") <| .cons (.missed rfl rfl) <| .cons (.compiled rfl hCompiled) <|
      .cons (.stored rfl) <| .nil _⟩
  obtain ⟨s, hRace⟩ := hRuns
  exact ⟨s, hRace, Shared.runs_transparent hRace⟩

end Sample
end FormFlow
