import FormFlow.Proofs.Factory.Settings
import FormFlow.Proofs.Compilation.Correspondence
/-!
# Asynchronous plans

A step of a compiled plan is marked asynchronous exactly if its callable is and if
its method is declared to return a deferred value; so a plan is asynchronous
exactly if a step in it, at some depth, is. Blocking calls refuse such a plan
before anything is asked or called, and do with any other plan what the awaited
calls do.
-/
namespace FormFlow

section Specification

/-- A step of the plan, or of one nested in it, is bound to an asynchronous callable. -/
def PlanOf.HoldsAsyncStep (plan : Plan) : Prop :=
  ∃ q, plan.Holds q ∧ ∃ member isAsync status run,
    .runStep member isAsync status (.async run) ∈ q.operations

/-- The step is one of its declared form, with the callable that is registered for it, and its mark
tells the flavour of both. -/
def Catalog.MarksStep (c : Catalog) (form member : String) (isAsync : Bool) (status : StepOptions)
    (body : StepBody) : Prop :=
  ∃ d m returns, c.declaration? form = some d ∧ m ∈ d.members ∧ m.name = member ∧
    m.tags = [.taskStep status] ∧ m.shape = .method [] returns ∧
    Assoc.get? (c.bindingsOf form) member = some (.step body) ∧
    isAsync = body.isAsync ∧ isAsync = returns.isDeferred

/-- The event is a call of an asynchronous step. -/
def Event.callsAsync : Event → Bool
  | .stepCalled _ isAsync _ _ => isAsync
  | _ => false

/-- How a blocking call for a type stands to the awaited one on the same factory. -/
structure Factory.Gates (f : Factory) (t : String) (plan : Plan)
    (blocking awaited : Called (Except FormError Instance)) : Prop where
  refused_iff : blocking.value = .error (.model (.asyncPlanRequiresAsyncRun t)) ↔ plan.HoldsAsyncStep
  untouched : plan.HoldsAsyncStep →
    blocking.factory.surface = f.surface ∧ ∀ e ∈ blocking.events, ∃ entry, e = .logged entry
  /-- Apart from the log entry of a second look-up, both calls are the same. -/
  same : ¬ plan.HoldsAsyncStep →
    blocking.value = awaited.value ∧ blocking.factory = awaited.factory ∧
      ∃ before after, awaited.events = before ++ after ∧
        blocking.events = before ++ .logged (.planCacheHit t) :: after
  neverAsync : ∀ e ∈ blocking.events, e.callsAsync = false

end Specification

section Marks
variable {c : Catalog} {limit : Nat} {t : String} {plan q : Plan}

theorem Catalog.compile_marksStep (hCompiled : (c.compile limit t).result = .ok plan)
    (hHolds : plan.Holds q) {member : String} {isAsync : Bool} {status : StepOptions}
    {body : StepBody} (hOp : .runStep member isAsync status body ∈ q.operations) :
    c.MarksStep q.typeName member isAsync status body := by
  obtain ⟨d, nested, hDeclared, hPlan⟩ := isPlan_of_compile hCompiled q hHolds
  obtain ⟨m, hm, hLowers⟩ := forall₂_exists_left hPlan.operations hOp
  cases hLowers with
  | step _ returns tags shape _ registered flavour =>
    exact ⟨d, m, returns, hDeclared, (List.mem_filter.mp hm).1, rfl, tags, shape, registered,
      flavour.symm, rfl⟩

theorem Operation.anyAsync_iff {ops : List Operation} :
    anyAsync ops = true ↔ ∃ op ∈ ops, op.isAsync = true := by
  induction ops with
  | nil => simp [anyAsync]
  | cons op rest ih => simp [anyAsync, ih]

theorem Operation.isAsync_recurse (member : String) (inner : Plan) :
    (recurse member inner).isAsync = inner.isAsync := by
  cases inner
  simp only [isAsync, PlanOf.isAsync]

theorem PlanOf.isAsync_iff : plan.isAsync = true ↔
    ∃ q, plan.Holds q ∧ ∃ member status body, .runStep member true status body ∈ q.operations := by
  induction plan using Operation.plan_induction with
  | step plan ih =>
    rw [PlanOf.isAsync, Operation.anyAsync_iff]
    constructor
    · rintro ⟨op, hOp, hAsync⟩
      cases op with
      | askText | askSelect => simp [Operation.isAsync] at hAsync
      | runStep member isAsync status body =>
        obtain rfl : isAsync = true := by simpa [Operation.isAsync] using hAsync
        exact ⟨plan, .self plan, member, status, body, hOp⟩
      | recurse member inner =>
        rw [Operation.isAsync_recurse] at hAsync
        obtain ⟨q, hHolds, hStep⟩ := (ih member inner hOp).mp hAsync
        exact ⟨q, .nested hOp hHolds, hStep⟩
    · rintro ⟨q, hHolds, member, status, body, hStep⟩
      cases hHolds with
      | self => exact ⟨_, hStep, by simp [Operation.isAsync]⟩
      | nested hOp hRest =>
        refine ⟨_, hOp, ?_⟩
        rw [Operation.isAsync_recurse]
        exact (ih _ _ hOp).mpr ⟨q, hRest, member, status, body, hStep⟩

theorem Catalog.compile_isAsync_iff (hCompiled : (c.compile limit t).result = .ok plan) :
    plan.isAsync = true ↔ plan.HoldsAsyncStep := by
  rw [PlanOf.isAsync_iff]
  constructor
  · rintro ⟨q, hHolds, member, status, body, hOp⟩
    obtain ⟨-, -, -, -, -, -, -, -, -, hBody, -⟩ := compile_marksStep hCompiled hHolds hOp
    cases body with
    | sync run => cases hBody
    | async run => exact ⟨q, hHolds, member, true, status, run, hOp⟩
  · rintro ⟨q, hHolds, member, isAsync, status, run, hOp⟩
    obtain ⟨-, -, -, -, -, -, -, -, -, rfl, -⟩ := compile_marksStep hCompiled hHolds hOp
    exact ⟨q, hHolds, member, status, _, hOp⟩

end Marks

section Runs

def Operation.Synchronous (op : Operation) : Prop :=
  (∀ member isAsync status run, op ≠ .runStep member isAsync status (.async run)) ∧
    ∀ member inner, op = .recurse member inner → ¬ inner.HoldsAsyncStep

theorem PlanOf.synchronous_operations {plan : Plan} (h : ¬ plan.HoldsAsyncStep) :
    ∀ op ∈ plan.operations, op.Synchronous := by
  intro op hOp
  constructor
  · rintro member isAsync status run rfl
    exact h ⟨plan, .self plan, member, isAsync, status, run, hOp⟩
  · rintro member inner rfl ⟨q, hHolds, hStep⟩
    exact h ⟨q, .nested hOp hHolds, hStep⟩

theorem Event.callsAsync_of_preparesWork {e : Event} (h : e.preparesWork = true) :
    e.callsAsync = false := by
  cases e with
  | stepCalled => cases h
  | _ => rfl

namespace Scope
variable (scope : Scope) (inst : Instance) (surface : Surface) (member : String)

theorem askText_callsAsync (title : String) (type : FieldType) (secret : Bool)
    (search : SearchOptions) (culture : Option String) :
    ∀ e ∈ (scope.askText inst surface member title type secret search culture).events,
      e.callsAsync = false := by
  simp only [askText]
  repeat' split
  all_goals exact fun e he => List.mem_singleton.mp he ▸ rfl

theorem askSelect_callsAsync (title : String) (source : Source) (converter : Option Converter)
    (search : SearchOptions) (culture : Option String) :
    ∀ e ∈ (scope.askSelect inst surface member title source converter search culture).events,
      e.callsAsync = false := by
  have hFetched : ∀ e ∈ source.fetchEvents inst, e.callsAsync = false := fun e he =>
    Event.callsAsync_of_preparesWork (source.prepares_fetchEvents inst e he)
  have hAsked (candidates : List Json) (request : SelectRequest) :
      ∀ e ∈ source.fetchEvents inst ++ renderEvents converter candidates ++ [.selectionAsked request],
        e.callsAsync = false := by
    intro e he
    rw [List.append_assoc, List.mem_append, List.mem_append, List.mem_singleton] at he
    rcases he with hFetch | hRender | rfl
    · exact hFetched e hFetch
    · exact Event.callsAsync_of_preparesWork (prepares_renderEvents converter candidates e hRender)
    · rfl
  simp only [askSelect]
  split
  · exact hFetched
  · exact hFetched
  · repeat' split
    all_goals exact hAsked _ _

theorem runStep_sync_callsAsync (status : StepOptions) (run : Instance → StepOutcome) :
    ∀ e ∈ (scope.runStep inst surface member status (.sync run)).events, e.callsAsync = false := by
  simp only [runStep]
  split <;> exact fun e he => List.mem_singleton.mp he ▸ rfl

end Scope

theorem Operation.work_callsAsync {op : Operation} (hWork : op.isWork = true) (hSync : op.Synchronous)
    (scope : Scope) (inst : Instance) (surface : Surface) :
    ∀ e ∈ (op.run scope inst surface).events, e.callsAsync = false := by
  cases op with
  | askText member title type secret search culture =>
    exact scope.askText_callsAsync inst surface member title type secret search culture
  | askSelect member title source converter search culture =>
    exact scope.askSelect_callsAsync inst surface member title source converter search culture
  | runStep member isAsync status body =>
    cases body with
    | sync run => exact scope.runStep_sync_callsAsync inst surface member status run
    | async run => exact absurd rfl (hSync.1 member isAsync status run)
  | recurse => cases hWork

theorem Operation.run_callsAsync :
    (∀ (op : Operation) (scope : Scope) (inst : Instance) (surface : Surface), op.Synchronous →
      ∀ e ∈ (op.run scope inst surface).events, e.callsAsync = false) ∧
    ∀ (ops : List Operation) (scope : Scope) (inst : Instance) (surface : Surface),
      (∀ op ∈ ops, op.Synchronous) →
        ∀ e ∈ (runAll ops scope inst surface).events, e.callsAsync = false := by
  apply run_induction
  case work =>
    intro op scope inst surface hWork hSync
    exact work_callsAsync hWork hSync scope inst surface
  case refused =>
    intro member plan scope inst surface error hChild _ e he
    rw [run_recurse_error hChild] at he
    cases he
  case nested =>
    intro member plan scope inst surface child hChild ih hSync e he
    rw [run_recurse_ok hChild, Trail.nest_events] at he
    exact ih (PlanOf.synchronous_operations (hSync.2 member plan rfl)) e he
  case finished =>
    intro scope inst surface _ e he
    rw [runAll_nil] at he
    cases he
  case cancelled =>
    intro op rest scope inst surface hCancelled _ e he
    rw [runAll_cancelled hCancelled] at he
    cases he
  case halted =>
    intro op rest scope inst surface halt hCancelled hHalt ih hSync e he
    rw [runAll_halted hCancelled hHalt] at he
    rcases List.mem_cons.mp he with rfl | hRun
    · rfl
    · exact ih (hSync op List.mem_cons_self) e hRun
  case continued =>
    intro op rest scope inst surface hCancelled hHalt ih ihRest hSync e he
    obtain ⟨hOp, hRest⟩ := List.forall_mem_cons.mp hSync
    rw [runAll_continued hCancelled hHalt] at he
    rcases List.mem_cons.mp he with rfl | hRun
    · rfl
    · exact (List.mem_append.mp hRun).elim (ih hOp e) (ihRest hRest e)

theorem PlanOf.run_callsAsync {plan : Plan} (h : ¬ plan.HoldsAsyncStep) (runId : String)
    (culture : Option String) (inst : Instance) (surface : Surface) :
    ∀ e ∈ (plan.run runId culture inst surface).events, e.callsAsync = false := by
  have hTrail := Operation.run_callsAsync.2 plan.operations ⟨runId, "", plan.culture <|> culture⟩ inst
    surface (synchronous_operations h)
  have hAround (first last : LogEvent) :
      ∀ e ∈ Event.logged first :: (plan.trail runId culture inst surface).events ++ [.logged last],
        e.callsAsync = false := by
    intro e he
    rw [List.mem_append, List.mem_cons, List.mem_singleton] at he
    rcases he with (rfl | hRun) | rfl
    · rfl
    · exact hTrail e hRun
    · rfl
  simp only [run]
  split <;> exact hAround _ _

end Runs

namespace Factory
variable {f : Factory} {c : Catalog} {t : String} {plan : Plan}

theorem plan_events (f : Factory) (t : String) :
    ∀ e ∈ (f.plan t).events, ∃ entry, e = .logged entry := by
  simp [Factory.plan]

theorem Keeps.withPlan_eq {α : Type} (h : f.Keeps c)
    (hPlan : (c.compile f.settings.maxNestingDepth t).result = .ok plan)
    (go : Factory → Plan → Called (Except FormError α)) :
    f.withPlan t go =
      { go (f.plan t).factory plan with
        events := (f.plan t).events ++ (go (f.plan t).factory plan).events } := by
  simp only [withPlan, (h.plan_eq hPlan).1]

theorem Keeps.whenSync_of_async {α : Type} (h : f.Keeps c)
    (hPlan : (c.compile f.settings.maxNestingDepth t).result = .ok plan)
    (hAsync : plan.isAsync = true) (go : Factory → Called (Except FormError α)) :
    f.whenSync t go = ⟨(f.plan t).events, .error (.model (.asyncPlanRequiresAsyncRun t)),
      (f.plan t).factory⟩ := by
  simp only [whenSync, h.withPlan_eq hPlan, hAsync, if_true, List.append_nil]

theorem Keeps.whenSync_of_sync {α : Type} (h : f.Keeps c)
    (hPlan : (c.compile f.settings.maxNestingDepth t).result = .ok plan)
    (hSync : plan.isAsync = false) (go : Factory → Plan → Called (Except FormError α)) :
    (f.whenSync t fun g => g.withPlan t go) =
      { f.withPlan t go with
        events := (f.plan t).events ++
          .logged (.planCacheHit t) :: (go (f.plan t).factory plan).events } := by
  simp only [whenSync, h.withPlan_eq hPlan, hSync, Bool.false_eq_true, if_false]
  simp only [withPlan, (h.plan_eq hPlan).2, List.singleton_append]

theorem Keeps.gates (h : f.Keeps c)
    (hPlan : (c.compile f.settings.maxNestingDepth t).result = .ok plan)
    {go : Factory → Plan → Called (Except FormError Instance)}
    (hGo : ∀ g e, (go g plan).value ≠ .error (.model e))
    (hCalls : ¬ plan.HoldsAsyncStep → ∀ g, ∀ e ∈ (go g plan).events, e.callsAsync = false) :
    f.Gates t plan (f.whenSync t fun g => g.withPlan t go) (f.withPlan t go) := by
  have hHolds := Catalog.compile_isAsync_iff hPlan
  have hAwaited := h.withPlan_eq hPlan go
  have hLogged : ∀ e ∈ (f.plan t).events, e.callsAsync = false := by
    intro e he
    obtain ⟨entry, rfl⟩ := f.plan_events t e he
    rfl
  cases hAsync : plan.isAsync with
  | true =>
    have hStep : plan.HoldsAsyncStep := hHolds.mp hAsync
    rw [h.whenSync_of_async hPlan hAsync]
    exact {
      refused_iff := iff_of_true rfl hStep
      untouched := fun _ => ⟨rfl, f.plan_events t⟩
      same := fun hNot => absurd hStep hNot
      neverAsync := hLogged }
  | false =>
    have hNot : ¬ plan.HoldsAsyncStep := fun hStep => by simp [hHolds.mpr hStep] at hAsync
    rw [h.whenSync_of_sync hPlan hAsync, hAwaited]
    refine {
      refused_iff := iff_of_false (hGo _ _) hNot
      untouched := fun hStep => absurd hStep hNot
      same := fun _ => ⟨rfl, rfl, _, _, rfl, rfl⟩
      neverAsync := fun e he => ?_ }
    rcases List.mem_append.mp he with hBefore | hAfter
    · exact hLogged e hBefore
    · rcases List.mem_cons.mp hAfter with rfl | hRun
      · rfl
      · exact hCalls hNot _ e hRun

theorem execute_value (f : Factory) (plan : Plan) (inst : Instance) (e : ModelError) :
    (f.execute plan inst).value ≠ .error (.model e) := by
  simp only [execute]
  cases (plan.run f.runId f.settings.defaultCulture inst f.surface).result with
  | error failure => rintro ⟨⟩
  | ok final => rintro ⟨⟩

theorem execute_callsAsync (f : Factory) (h : ¬ plan.HoldsAsyncStep) (inst : Instance) :
    ∀ e ∈ (f.execute plan inst).events, e.callsAsync = false :=
  PlanOf.run_callsAsync h _ _ _ _

theorem Keeps.gates_build (h : f.Keeps c)
    (hPlan : (c.compile f.settings.maxNestingDepth t).result = .ok plan) (supplied : Fields) :
    f.Gates t plan (f.buildBlocking t supplied) (f.build t supplied) := by
  refine h.gates hPlan (fun g e => ?_) fun hNot g => ?_
  · split
    · rintro ⟨⟩
    · exact g.execute_value plan _ e
  · split
    · exact fun e he => absurd he List.not_mem_nil
    · exact g.execute_callsAsync hNot _

theorem Keeps.gates_run (h : f.Keeps c) {existing : Instance}
    (hPlan : (c.compile f.settings.maxNestingDepth existing.typeName).result = .ok plan) :
    f.Gates existing.typeName plan (f.runBlocking existing) (f.run existing) :=
  h.gates hPlan (fun g e => g.execute_value plan existing e)
    fun hNot g => g.execute_callsAsync hNot existing

/-- The marks of a compiled plan are true, and blocking calls refuse exactly the plans with an
asynchronous step, whatever was called on the factory before and however its settings were changed. -/
theorem blocking_calls_gated (c : Catalog) (surface : Surface) (runId : String) (settings : Settings)
    (acts : List Act) :
    let f := acts.foldl Factory.act { catalog := c, surface, runId, settings }
    ∀ t plan, (c.compile f.settings.maxNestingDepth t).result = .ok plan →
      (∀ q, plan.Holds q → ∀ member isAsync status body,
        .runStep member isAsync status body ∈ q.operations →
          c.MarksStep q.typeName member isAsync status body) ∧
      (plan.isAsync = true ↔ plan.HoldsAsyncStep) ∧
      (∀ supplied, f.Gates t plan (f.buildBlocking t supplied) (f.build t supplied)) ∧
      ∀ existing, existing.typeName = t →
        f.Gates t plan (f.runBlocking existing) (f.run existing) := by
  intro f t plan hPlan
  have hKeeps : f.Keeps c := (Keeps.new c surface runId settings).acts acts
  refine ⟨fun q hHolds member isAsync status body => Catalog.compile_marksStep hPlan hHolds,
    Catalog.compile_isAsync_iff hPlan, hKeeps.gates_build hPlan, ?_⟩
  rintro existing rfl
  exact hKeeps.gates_run hPlan

end Factory

namespace Sample

def scan : Declaration :=
  { name := "Scan"
    members := [{ name := "check", shape := .method [] (.deferred .unit), tags := [.taskStep {}] }] }

def upload : Declaration :=
  { name := "Upload"
    members := [
      { name := "scan", shape := .property (.form "Scan"), tags := [.nestedForm] },
      { name := "confirm", shape := .method [] .unit, tags := [.taskStep {}] }] }

def check : StepBody := .async fun inst => .suspended false inst (.finished false inst (.ok ()))

def uploads : Catalog :=
  ((Catalog.ofDeclarations [scan, upload]).bind "Scan" [("check", .step check)]).bind "Upload"
    [("confirm", .step confirm)]

def scanPlan : Plan := ⟨"Scan", none, .default, [], [.runStep "check" true {} check]⟩

def uploadPlan : Plan :=
  ⟨"Upload", none, .default, [], [.recurse "scan" scanPlan, .runStep "confirm" false {} confirm]⟩

theorem upload_refused :
    let f := [Factory.Act.call (.plan "Upload"), .withSettings { maxNestingDepth := 1 }].foldl
      Factory.act { catalog := uploads, surface := oneAnswer, runId := "1" }
    (uploads.compile 1 "Upload").result = .ok uploadPlan ∧ uploadPlan.HoldsAsyncStep ∧
      (f.buildBlocking "Upload" []).value =
        .error (.model (.asyncPlanRequiresAsyncRun "Upload")) := by
  intro f
  have hCompiled : (uploads.compile 1 "Upload").result = .ok uploadPlan := rfl
  obtain ⟨-, hAsync, hBuild, -⟩ := Factory.blocking_calls_gated uploads oneAnswer "1" {}
    [.call (.plan "Upload"), .withSettings { maxNestingDepth := 1 }] "Upload" uploadPlan hCompiled
  have hStep : uploadPlan.HoldsAsyncStep := hAsync.mp rfl
  exact ⟨hCompiled, hStep, (hBuild []).refused_iff.mpr hStep⟩

end Sample
end FormFlow
