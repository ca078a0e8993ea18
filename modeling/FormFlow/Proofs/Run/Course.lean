import FormFlow.Compilation
import FormFlow.Run.Executor
/-!
# The course of a run

What a single operation can do, what the operations of a form do one after
another, and induction along a run: over the plan, with the instance and the
surface that each operation meets.
-/
namespace FormFlow

/-- How an operation that nests no form can end: it finishes, fails at its own path, or its work is
given up once the token is cancelled. -/
inductive Halt.OfWork (path member : String) (cancelled : Bool) : Option Halt → Prop where
  | finished : OfWork path member cancelled none
  | failed (error : ExecutionError) (atPath : error.path = path)
      (notCancelled : ∀ p, error ≠ .cancelled p) : OfWork path member cancelled (some (.failed error))
  | interrupted (noticed : cancelled = true) :
      OfWork path member cancelled (some (.interrupted (.work member)))

theorem Progress.cancelled_of_settle_none {σ ρ : Type} (work : Progress σ ρ) (cancelled : Bool)
    (h : (work.settle cancelled).result = none) : (work.settle cancelled).cancelled = true := by
  induction work generalizing cancelled with
  | finished cancels state result => cases h
  | stalled state => rfl
  | suspended cancels state next ih =>
    unfold Progress.settle at h ⊢
    split
    · rfl
    · rename_i hGoesOn
      rw [if_neg hGoesOn] at h
      exact ih false h

theorem Surface.cancelled_of_await_none {surface rest : Surface}
    (h : surface.await = (none, rest)) : rest.cancelled = true := by
  obtain ⟨hResult, rfl⟩ := Prod.mk.injEq .. ▸ h
  exact Progress.cancelled_of_settle_none _ _ hResult

/-- How a prompt can end: it assigns its member and finishes, or it leaves the instance alone. -/
inductive Trail.OfPrompt (path member : String) (inst : Instance) : Trail → Prop where
  | assigned (events : List Event) (surface : Surface) (value : Json) :
      OfPrompt path member inst (.done events surface (inst.set member value))
  | failed (events : List Event) (surface : Surface) (error : ExecutionError)
      (atPath : error.path = path) (notCancelled : ∀ p, error ≠ .cancelled p) :
      OfPrompt path member inst (.fail events surface inst error)
  | interrupted (events : List Event) (surface : Surface) (noticed : surface.cancelled = true) :
      OfPrompt path member inst (.interrupt events surface inst (.work member))

theorem Trail.OfPrompt.halt {path member : String} {inst : Instance} {t : Trail}
    (h : t.OfPrompt path member inst) : Halt.OfWork path member t.surface.cancelled t.halt := by
  cases h with
  | assigned events surface value => exact .finished
  | failed events surface error atPath notCancelled => exact .failed error atPath notCancelled
  | interrupted events surface noticed => exact .interrupted noticed

theorem Trail.OfPrompt.get?_of_ne {path member other : String} {inst : Instance} {t : Trail}
    (h : t.OfPrompt path member inst) (hOther : other ≠ member) :
    t.inst.get? other = inst.get? other := by
  cases h with
  | assigned events surface value => exact inst.get?_set_of_ne value hOther
  | failed events surface error atPath notCancelled => rfl
  | interrupted events surface noticed => rfl

/-- The event opens the work of an operation, which may cancel the token: an answer that is awaited or
the body of a step. -/
def Event.opensWork : Event → Bool
  | .textAsked _ | .selectionAsked _ | .stepCalled _ _ _ _ => true
  | .statusShown _ | .statusEnded _ | .sourceCalled _ _ | .converterCalled _ _ | .logged _ => false

def Event.preparesWork : Event → Bool
  | .statusShown _ | .sourceCalled _ _ | .converterCalled _ _ => true
  | .textAsked _ | .selectionAsked _ | .stepCalled _ _ _ _ | .statusEnded _ | .logged _ => false

/-- What is observed of an operation that nests no form: it prepares its work and, unless that fails,
opens it once. -/
inductive Trail.OfWork (surface : Surface) (t : Trail) : Prop where
  | unopened (prepared : ∀ e ∈ t.events, e.preparesWork = true) (same : t.surface = surface)
  | opened (before : List Event) (e : Event) (after : List Event)
      (events : t.events = before ++ e :: after)
      (prepared : ∀ f ∈ before, f.preparesWork = true) (opens : e.opensWork = true)
      (ended : ∀ f ∈ after, ∃ ok, f = .statusEnded ok)

theorem Source.prepares_fetchEvents (source : Source) (inst : Instance) :
    ∀ e ∈ source.fetchEvents inst, e.preparesWork = true := by
  cases source <;> simp [fetchEvents, Event.preparesWork]

theorem prepares_renderEvents (converter : Option Converter) (candidates : List Json) :
    ∀ e ∈ renderEvents converter candidates, e.preparesWork = true := by
  cases converter <;> simp [renderEvents, Event.preparesWork]

namespace Scope
variable (scope : Scope) (inst : Instance) (surface : Surface) (member : String)

theorem askText_ofPrompt (title : String) (type : FieldType) (secret : Bool)
    (search : SearchOptions) (culture : Option String) :
    (scope.askText inst surface member title type secret search culture).OfPrompt
      (joinPath scope.path member) member inst := by
  simp only [askText]
  split
  · rename_i hAwait
    exact .interrupted _ _ (Surface.cancelled_of_await_none hAwait)
  · split
    · exact .failed _ _ _ rfl (by simp)
    · split
      · exact .failed _ _ _ rfl (by simp)
      · exact .assigned _ _ _

theorem askSelect_ofPrompt (title : String) (source : Source) (converter : Option Converter)
    (search : SearchOptions) (culture : Option String) :
    (scope.askSelect inst surface member title source converter search culture).OfPrompt
      (joinPath scope.path member) member inst := by
  simp only [askSelect]
  split
  · exact .failed _ _ _ rfl (by simp)
  · exact .failed _ _ _ rfl (by simp)
  · split
    · rename_i hAwait
      exact .interrupted _ _ (Surface.cancelled_of_await_none hAwait)
    · split
      · exact .failed _ _ _ rfl (by simp)
      · split
        · exact .assigned _ _ _
        · exact .failed _ _ _ rfl (by simp)

theorem askText_ofWork (title : String) (type : FieldType) (secret : Bool)
    (search : SearchOptions) (culture : Option String) :
    (scope.askText inst surface member title type secret search culture).OfWork surface := by
  simp only [askText]
  repeat' split
  all_goals exact .opened [] _ [] rfl (by simp) rfl (by simp)

theorem askSelect_ofWork (title : String) (source : Source) (converter : Option Converter)
    (search : SearchOptions) (culture : Option String) :
    (scope.askSelect inst surface member title source converter search culture).OfWork surface := by
  have hFetch := source.prepares_fetchEvents inst
  have hBefore (candidates : List Json) :
      ∀ e ∈ source.fetchEvents inst ++ renderEvents converter candidates, e.preparesWork = true := by
    intro e he
    exact (List.mem_append.mp he).elim (hFetch e) (prepares_renderEvents converter candidates e)
  simp only [askSelect]
  split
  · exact .unopened hFetch rfl
  · exact .unopened hFetch rfl
  · repeat' split
    all_goals exact .opened _ _ [] rfl (hBefore _) rfl (by simp)

theorem askText_finished {title : String} {type : FieldType} {secret : Bool}
    {search : SearchOptions} {culture : Option String}
    (h : (scope.askText inst surface member title type secret search culture).halt = none) :
    ∃ answer value, coerce type answer = .ok value ∧
      (scope.askText inst surface member title type secret search culture).inst =
        inst.set member value := by
  simp only [askText] at h ⊢
  split at h
  · cases h
  · split at h
    · cases h
    · split at h
      · cases h
      · rename_i hValue
        exact ⟨_, _, hValue, rfl⟩

theorem askSelect_finished {title : String} {source : Source} {converter : Option Converter}
    {search : SearchOptions} {culture : Option String}
    (h : (scope.askSelect inst surface member title source converter search culture).halt = none) :
    ∃ candidates, source.fetch inst = .ok candidates ∧ ∃ chosen ∈ candidates,
      (scope.askSelect inst surface member title source converter search culture).inst =
        inst.set member chosen := by
  simp only [askSelect] at h ⊢
  split at h
  · cases h
  · cases h
  · rename_i candidates _ hFetch
    refine ⟨candidates, hFetch, ?_⟩
    split at h
    · cases h
    · split at h
      · cases h
      · split at h
        · rename_i chosen hChosen
          exact ⟨chosen, List.mem_of_getElem? hChosen, rfl⟩
        · cases h

theorem runStep_halt (status : StepOptions) (body : StepBody) :
    let t := scope.runStep inst surface member status body
    Halt.OfWork (joinPath scope.path member) member t.surface.cancelled t.halt := by
  simp only [runStep]
  split
  · split
    · exact .finished
    · exact .failed _ rfl (by simp)
  · split
    · rename_i hResult
      exact .interrupted (Progress.cancelled_of_settle_none _ _ hResult)
    · exact .finished
    · exact .failed _ rfl (by simp)

theorem runStep_ofWork (status : StepOptions) (body : StepBody) :
    (scope.runStep inst surface member status body).OfWork surface := by
  have hShown : ∀ e ∈ (if status.useStatus then [Event.statusShown (status.statusText.getD member)]
      else []), e.preparesWork = true := by
    split <;> simp [Event.preparesWork]
  have hEnded (ok : Bool) : ∀ f ∈ (if status.useStatus then [Event.statusEnded ok] else []),
      ∃ ok, f = .statusEnded ok := by
    split <;> simp
  simp only [runStep]
  split
  · split <;> exact .opened [] _ [] rfl (by simp) rfl (by simp)
  · split
    · exact .opened _ _ [] rfl hShown rfl (by simp)
    · exact .opened _ _ _ (List.append_assoc _ _ _) hShown rfl (hEnded true)
    · exact .opened _ _ _ (List.append_assoc _ _ _) hShown rfl (hEnded false)

end Scope

namespace Trail
variable {inner : Trail} {member : String} {inst : Instance}

@[simp] theorem nest_events : (inner.nest member inst).events = inner.events := by
  unfold nest
  split <;> rfl

@[simp] theorem nest_surface : (inner.nest member inst).surface = inner.surface := by
  unfold nest
  split <;> rfl

theorem nest_finished (h : (inner.nest member inst).halt = none) :
    inner.halt = none ∧ (inner.nest member inst).inst = inst.set member inner.inst.toValue := by
  unfold nest at h ⊢
  split at h
  · rename_i hHalt
    exact ⟨hHalt, rfl⟩
  · cases h
  · cases h

theorem nest_get?_of_ne {other : String} (h : other ≠ member) :
    (inner.nest member inst).inst.get? other = inst.get? other := by
  unfold nest
  split
  · exact inst.get?_set_of_ne _ h
  · exact inst.get?_set_of_ne _ h
  · rfl

theorem nest_failed {error : ExecutionError} :
    (inner.nest member inst).halt = some (.failed error) ↔ inner.halt = some (.failed error) := by
  unfold nest
  split <;> simp [done, fail, interrupt, *]

theorem nest_interrupted {pending : Pending} :
    (inner.nest member inst).halt = some (.interrupted pending) ↔
      ∃ lower, inner.halt = some (.interrupted lower) ∧ pending = .form member inner.inst lower := by
  unfold nest
  split
  · rename_i hHalt
    simp [done, hHalt]
  · rename_i error hHalt
    simp [fail, hHalt]
  · rename_i lower hHalt
    simp [interrupt, hHalt, eq_comm]

end Trail

namespace Operation

def isWork : Operation → Bool
  | .recurse _ _ => false
  | _ => true

theorem work_halt {op : Operation} (h : op.isWork = true) (scope : Scope) (inst : Instance)
    (surface : Surface) :
    Halt.OfWork (joinPath scope.path op.member) op.member (op.run scope inst surface).surface.cancelled
      (op.run scope inst surface).halt := by
  cases op with
  | askText member title type secret search culture =>
    exact (scope.askText_ofPrompt inst surface member title type secret search culture).halt
  | askSelect member title source converter search culture =>
    exact (scope.askSelect_ofPrompt inst surface member title source converter search culture).halt
  | runStep member isAsync status body => exact scope.runStep_halt inst surface member status body
  | recurse member plan => cases h

theorem work_trail {op : Operation} (h : op.isWork = true) (scope : Scope) (inst : Instance)
    (surface : Surface) : (op.run scope inst surface).OfWork surface := by
  cases op with
  | askText member title type secret search culture =>
    exact scope.askText_ofWork inst surface member title type secret search culture
  | askSelect member title source converter search culture =>
    exact scope.askSelect_ofWork inst surface member title source converter search culture
  | runStep member isAsync status body => exact scope.runStep_ofWork inst surface member status body
  | recurse member plan => cases h

section Equations
variable {scope : Scope} {inst : Instance} {surface : Surface}

theorem run_recurse_error {member : String} {plan : Plan} {error : ExecutionError}
    (h : plan.nestedInstance (joinPath scope.path member) (inst.get? member) = .error error) :
    (Operation.recurse member plan).run scope inst surface = .fail [] surface inst error := by
  cases plan
  simp only [run, h]

theorem run_recurse_ok {member : String} {plan : Plan} {child : Instance}
    (h : plan.nestedInstance (joinPath scope.path member) (inst.get? member) = .ok child) :
    (Operation.recurse member plan).run scope inst surface =
      (runAll plan.operations (scope.enter (joinPath scope.path member) plan.culture) child
        surface).nest member inst := by
  cases plan
  simp only [run, h]

def isStep : Operation → Bool
  | .runStep _ _ _ _ => true
  | _ => false

theorem work_ofPrompt {op : Operation} (hStep : op.isStep = false) (hWork : op.isWork = true)
    (scope : Scope) (inst : Instance) (surface : Surface) :
    (op.run scope inst surface).OfPrompt (joinPath scope.path op.member) op.member inst := by
  cases op with
  | askText member title type secret search culture =>
    exact scope.askText_ofPrompt inst surface member title type secret search culture
  | askSelect member title source converter search culture =>
    exact scope.askSelect_ofPrompt inst surface member title source converter search culture
  | runStep member isAsync status body => cases hStep
  | recurse member plan => cases hWork

theorem run_get?_of_ne {op : Operation} (hStep : op.isStep = false) {other : String}
    (hOther : other ≠ op.member) : (op.run scope inst surface).inst.get? other = inst.get? other := by
  cases op with
  | recurse member plan =>
    cases hChild : plan.nestedInstance (joinPath scope.path member) (inst.get? member) with
    | error error =>
      rw [run_recurse_error hChild]
      rfl
    | ok child =>
      rw [run_recurse_ok hChild]
      exact Trail.nest_get?_of_ne hOther
  | _ => exact (work_ofPrompt hStep rfl scope inst surface).get?_of_ne hOther

@[simp] theorem runAll_nil : runAll [] scope inst surface = ⟨[], surface, inst, 0, none⟩ := by
  simp only [runAll]

variable {op : Operation} {rest : List Operation}

theorem runAll_cancelled (h : surface.cancelled = true) :
    runAll (op :: rest) scope inst surface =
      .fail [] surface inst (.cancelled (joinPath scope.path op.member)) := by
  simp only [runAll, h, if_true]

def startEvent (op : Operation) (scope : Scope) : Event :=
  .logged (.operationStarted (joinPath scope.path op.member) op.label scope.runId)

theorem runAll_halted {halt : Halt} (h : surface.cancelled = false)
    (hHalt : (op.run scope inst surface).halt = some halt) :
    runAll (op :: rest) scope inst surface =
      { op.run scope inst surface with
        events := op.startEvent scope :: (op.run scope inst surface).events } := by
  simp only [runAll, h, hHalt, startEvent, Bool.false_eq_true, if_false]

theorem runAll_continued (h : surface.cancelled = false)
    (hHalt : (op.run scope inst surface).halt = none) :
    runAll (op :: rest) scope inst surface =
      let first := op.run scope inst surface
      let later := runAll rest scope first.inst first.surface
      { later with
        events := op.startEvent scope :: first.events ++ later.events
        completed := first.completed + later.completed } := by
  simp only [runAll, h, hHalt, startEvent, Bool.false_eq_true, if_false]

theorem runAll_completed (h : (runAll (op :: rest) scope inst surface).halt = none) :
    (op.run scope inst surface).halt = none ∧
      ∃ later, later = runAll rest scope (op.run scope inst surface).inst
          (op.run scope inst surface).surface ∧ later.halt = none ∧
        (runAll (op :: rest) scope inst surface).inst = later.inst := by
  cases hCancelled : surface.cancelled with
  | true =>
    rw [runAll_cancelled hCancelled] at h
    cases h
  | false =>
    cases hHalt : (op.run scope inst surface).halt with
    | some halt =>
      rw [runAll_halted hCancelled hHalt] at h
      cases hHalt.symm.trans h
    | none =>
      rw [runAll_continued hCancelled hHalt] at h ⊢
      exact ⟨rfl, _, rfl, h, rfl⟩

theorem runAll_append_halted {before : List Operation} {halt : Halt}
    (h : (runAll before scope inst surface).halt = some halt) (after : List Operation) :
    runAll (before ++ after) scope inst surface = runAll before scope inst surface := by
  induction before generalizing inst surface with
  | nil =>
    rw [runAll_nil] at h
    cases h
  | cons op rest ih =>
    rw [List.cons_append]
    cases hCancelled : surface.cancelled with
    | true => rw [runAll_cancelled hCancelled, runAll_cancelled hCancelled]
    | false =>
      cases hHalt : (op.run scope inst surface).halt with
      | some halt' => rw [runAll_halted hCancelled hHalt, runAll_halted hCancelled hHalt]
      | none =>
        rw [runAll_continued hCancelled hHalt] at h
        rw [runAll_continued hCancelled hHalt, runAll_continued hCancelled hHalt]
        dsimp only
        rw [ih h]

theorem runAll_append_finished {before : List Operation}
    (h : (runAll before scope inst surface).halt = none) (after : List Operation) :
    runAll (before ++ after) scope inst surface =
      let first := runAll before scope inst surface
      let later := runAll after scope first.inst first.surface
      { later with
        events := first.events ++ later.events
        completed := first.completed + later.completed } := by
  induction before generalizing inst surface with
  | nil => simp
  | cons op rest ih =>
    rw [List.cons_append]
    cases hCancelled : surface.cancelled with
    | true =>
      rw [runAll_cancelled hCancelled] at h
      cases h
    | false =>
      cases hHalt : (op.run scope inst surface).halt with
      | some halt =>
        rw [runAll_halted hCancelled hHalt] at h
        cases hHalt.symm.trans h
      | none =>
        rw [runAll_continued hCancelled hHalt] at h ⊢
        rw [runAll_continued hCancelled hHalt]
        dsimp only
        rw [ih h]
        simp only [List.cons_append, List.append_assoc, Nat.add_assoc]

theorem runAll_failed {ops : List Operation} {error : ExecutionError}
    (hCalm : (runAll ops scope inst surface).surface.cancelled = false)
    (h : (runAll ops scope inst surface).halt = some (.failed error)) :
    ∃ before op after, ops = before ++ op :: after ∧ ∃ reached,
      reached = runAll before scope inst surface ∧ reached.halt = none ∧
        (op.run scope reached.inst reached.surface).halt = some (.failed error) ∧
          (runAll ops scope inst surface).inst = (op.run scope reached.inst reached.surface).inst ∧
            (runAll ops scope inst surface).surface =
              (op.run scope reached.inst reached.surface).surface := by
  induction ops generalizing inst surface with
  | nil =>
    rw [runAll_nil] at h
    cases h
  | cons op rest ih =>
    cases hCancelled : surface.cancelled with
    | true =>
      rw [runAll_cancelled hCancelled] at hCalm
      cases hCancelled.symm.trans hCalm
    | false =>
      cases hHalt : (op.run scope inst surface).halt with
      | some halt =>
        rw [runAll_halted hCancelled hHalt] at h ⊢
        exact ⟨[], op, rest, rfl, _, rfl, by rw [runAll_nil], by rw [runAll_nil]; exact h,
          by rw [runAll_nil], by rw [runAll_nil]⟩
      | none =>
        rw [runAll_continued hCancelled hHalt] at hCalm h ⊢
        obtain ⟨before, failing, after, rfl, reached, rfl, hReached, hFailed, hInst, hSurface⟩ :=
          ih hCalm h
        refine ⟨op :: before, failing, after, rfl, _, rfl, ?_⟩
        rw [runAll_continued hCancelled hHalt]
        exact ⟨hReached, hFailed, hInst, hSurface⟩

end Equations

theorem runAll_get?_of_ne {other : String} {scope : Scope} {ops : List Operation}
    (hSteps : ∀ op ∈ ops, op.isStep = false) (hOther : ∀ op ∈ ops, op.member ≠ other) :
    ∀ inst surface, (runAll ops scope inst surface).inst.get? other = inst.get? other := by
  induction ops with
  | nil =>
    intro inst surface
    rw [runAll_nil]
  | cons op rest ih =>
    obtain ⟨hStep, hSteps⟩ := List.forall_mem_cons.mp hSteps
    obtain ⟨hMember, hOther⟩ := List.forall_mem_cons.mp hOther
    intro inst surface
    have hFirst : (op.run scope inst surface).inst.get? other = inst.get? other :=
      run_get?_of_ne hStep hMember.symm
    cases hCancelled : surface.cancelled with
    | true =>
      rw [runAll_cancelled hCancelled]
      rfl
    | false =>
      cases hHalt : (op.run scope inst surface).halt with
      | some halt =>
        rw [runAll_halted hCancelled hHalt]
        exact hFirst
      | none =>
        rw [runAll_continued hCancelled hHalt]
        exact (ih hSteps hOther _ _).trans hFirst

/-- Induction over operations and the plans nested in them. -/
theorem nesting_induction {P : Operation → Prop} {Q : List Operation → Prop}
    (work : ∀ op : Operation, op.isWork = true → P op)
    (nested : ∀ member (plan : Plan), Q plan.operations → P (.recurse member plan))
    (nil : Q []) (cons : ∀ op rest, P op → Q rest → Q (op :: rest)) :
    (∀ op, P op) ∧ ∀ ops, Q ops := by
  exact isAsync.mutual_induct P Q (fun _ _ _ _ _ _ => work _ rfl) (fun _ _ _ _ _ _ => work _ rfl)
    (fun _ _ _ _ => work _ rfl)
    (fun member _ _ _ _ operations ih => nested member ⟨_, _, _, _, operations⟩ ih) nil cons

theorem plan_induction {P : Plan → Prop}
    (step : ∀ plan : Plan, (∀ member inner, .recurse member inner ∈ plan.operations → P inner) →
      P plan) : ∀ p, P p := by
  have hNested : ∀ ops : List Operation, ∀ member inner, .recurse member inner ∈ ops → P inner := by
    refine (nesting_induction (P := fun op => ∀ member inner, op = .recurse member inner → P inner)
      ?_ ?_ ?_ ?_).2
    · rintro op hWork member inner rfl
      cases hWork
    · rintro member inner ih _ _ ⟨⟩
      exact step inner ih
    · intro member inner hOp
      cases hOp
    · intro op rest ih ihRest member inner hOp
      rcases List.mem_cons.mp hOp with hHead | hTail
      · exact ih member inner hHead.symm
      · exact ihRest member inner hTail
  exact fun p => step p (hNested p.operations)

theorem run_induction {P : Operation → Scope → Instance → Surface → Prop}
    {Q : List Operation → Scope → Instance → Surface → Prop}
    (work : ∀ op scope inst surface, op.isWork = true → P op scope inst surface)
    (refused : ∀ member (plan : Plan) scope inst surface error,
      plan.nestedInstance (joinPath scope.path member) (inst.get? member) = .error error →
      P (.recurse member plan) scope inst surface)
    (nested : ∀ member (plan : Plan) scope inst surface child,
      plan.nestedInstance (joinPath scope.path member) (inst.get? member) = .ok child →
      Q plan.operations (scope.enter (joinPath scope.path member) plan.culture) child surface →
      P (.recurse member plan) scope inst surface)
    (finished : ∀ scope inst surface, Q [] scope inst surface)
    (cancelled : ∀ op rest scope inst surface, surface.cancelled = true →
      Q (op :: rest) scope inst surface)
    (halted : ∀ op rest scope inst surface halt, surface.cancelled = false →
      (op.run scope inst surface).halt = some halt → P op scope inst surface →
      Q (op :: rest) scope inst surface)
    (continued : ∀ op rest scope inst surface, surface.cancelled = false →
      (op.run scope inst surface).halt = none → P op scope inst surface →
      Q rest scope (op.run scope inst surface).inst (op.run scope inst surface).surface →
      Q (op :: rest) scope inst surface) :
    (∀ op scope inst surface, P op scope inst surface) ∧
      ∀ ops scope inst surface, Q ops scope inst surface := by
  have all := run.mutual_induct P Q
    (fun scope inst surface _ _ _ _ _ _ => work _ scope inst surface rfl)
    (fun scope inst surface _ _ _ _ _ _ => work _ scope inst surface rfl)
    (fun scope inst surface _ _ _ _ => work _ scope inst surface rfl)
    (fun scope inst surface member _ _ _ _ _ error h =>
      refused member ⟨_, _, _, _, _⟩ scope inst surface error h)
    (fun scope inst surface member _ _ _ _ _ child h ih =>
      nested member ⟨_, _, _, _, _⟩ scope inst surface child h ih)
    finished
    (fun scope inst surface op rest h => cancelled op rest scope inst surface h)
    (fun scope inst surface op rest h halt hHalt ih =>
      halted op rest scope inst surface halt (Bool.eq_false_iff.mpr h) hHalt ih)
    (fun scope inst surface op rest h hHalt ih ihRest =>
      continued op rest scope inst surface (Bool.eq_false_iff.mpr h) hHalt ih ihRest)
  exact ⟨fun op scope inst surface => all.1 op scope inst surface,
    fun ops scope inst surface => all.2 ops scope inst surface⟩

theorem cancelled_of_interrupted :
    (∀ (op : Operation) (scope : Scope) (inst : Instance) (surface : Surface) (pending : Pending),
      (op.run scope inst surface).halt = some (.interrupted pending) →
        (op.run scope inst surface).surface.cancelled = true) ∧
    ∀ (ops : List Operation) (scope : Scope) (inst : Instance) (surface : Surface)
      (pending : Pending), (runAll ops scope inst surface).halt = some (.interrupted pending) →
        (runAll ops scope inst surface).surface.cancelled = true := by
  apply run_induction
  case work =>
    intro op scope inst surface hWork pending hHalt
    have hEnd := work_halt hWork scope inst surface
    rw [hHalt] at hEnd
    cases hEnd with
    | interrupted noticed => exact noticed
  case refused =>
    intro member plan scope inst surface error hChild pending hHalt
    rw [run_recurse_error hChild] at hHalt
    cases hHalt
  case nested =>
    intro member plan scope inst surface child hChild ih pending hHalt
    rw [run_recurse_ok hChild] at hHalt ⊢
    obtain ⟨lower, hLower, -⟩ := Trail.nest_interrupted.mp hHalt
    rw [Trail.nest_surface]
    exact ih lower hLower
  case finished =>
    intro scope inst surface pending hHalt
    rw [runAll_nil] at hHalt
    cases hHalt
  case cancelled =>
    intro op rest scope inst surface hCancelled pending hHalt
    rw [runAll_cancelled hCancelled] at hHalt
    cases hHalt
  case halted =>
    intro op rest scope inst surface halt hCancelled hHalt ih pending hEnd
    rw [runAll_halted hCancelled hHalt] at hEnd ⊢
    exact ih pending hEnd
  case continued =>
    intro op rest scope inst surface hCancelled hHalt ih ihRest pending hEnd
    rw [runAll_continued hCancelled hHalt] at hEnd ⊢
    exact ihRest pending hEnd

theorem member_of_interrupted {op : Operation} {scope : Scope} {inst : Instance} {surface : Surface}
    {pending : Pending} (h : (op.run scope inst surface).halt = some (.interrupted pending)) :
    pending.member = op.member := by
  cases hWork : op.isWork with
  | true =>
    have hEnd := work_halt hWork scope inst surface
    rw [h] at hEnd
    cases hEnd
    rfl
  | false =>
    cases op with
    | recurse member plan =>
      cases hChild : plan.nestedInstance (joinPath scope.path member) (inst.get? member) with
      | error error =>
        rw [run_recurse_error hChild] at h
        cases h
      | ok child =>
        rw [run_recurse_ok hChild] at h
        obtain ⟨lower, -, rfl⟩ := Trail.nest_interrupted.mp h
        rfl
    | _ => cases hWork

theorem mem_of_interrupted {scope : Scope} {pending : Pending} {ops : List Operation} :
    ∀ {inst : Instance} {surface : Surface},
      (runAll ops scope inst surface).halt = some (.interrupted pending) →
        ∃ op ∈ ops, pending.member = op.member := by
  induction ops with
  | nil =>
    intro inst surface h
    rw [runAll_nil] at h
    cases h
  | cons op rest ih =>
    intro inst surface h
    cases hCancelled : surface.cancelled with
    | true =>
      rw [runAll_cancelled hCancelled] at h
      cases h
    | false =>
      cases hHalt : (op.run scope inst surface).halt with
      | some halt =>
        rw [runAll_halted hCancelled hHalt] at h
        exact ⟨op, List.mem_cons_self, member_of_interrupted h⟩
      | none =>
        rw [runAll_continued hCancelled hHalt] at h
        obtain ⟨later, hLater, hName⟩ := ih h
        exact ⟨later, List.mem_cons_of_mem op hLater, hName⟩

end Operation

section Runs
variable (plan : Plan) (runId : String) (culture : Option String) (inst : Instance)
  (surface : Surface)

theorem PlanOf.run_result :
    (plan.run runId culture inst surface).result =
      match (plan.trail runId culture inst surface).failure? with
      | none => .ok (plan.trail runId culture inst surface).inst
      | some (error, reached) => .error ⟨runId, plan.typeName, error, reached⟩ := by
  simp only [run]
  split <;> simp only [*]

theorem PlanOf.run_surface :
    (plan.run runId culture inst surface).surface =
      (plan.trail runId culture inst surface).surface := by
  simp only [run]
  split <;> rfl

def RunResult.reached (r : RunResult) : Instance :=
  match r.result with
  | .ok inst => inst
  | .error failure => failure.reached

/-- What a root form hands back of its trail. -/
def Trail.kept (t : Trail) : Instance :=
  match t.halt with
  | some (.interrupted pending) => pending.keep t.inst
  | _ => t.inst

theorem PlanOf.run_reached :
    (plan.run runId culture inst surface).reached =
      (plan.trail runId culture inst surface).kept := by
  simp only [RunResult.reached, run_result, Trail.failure?, Trail.kept]
  cases (plan.trail runId culture inst surface).halt with
  | none => rfl
  | some halt => cases halt <;> rfl

end Runs

namespace Sample

def orderForms : Catalog :=
  let line (name : String) : MemberDeclaration :=
    { name, shape := .property .text, tags := [.textPrompt {}] }
  let form (name type : String) : MemberDeclaration :=
    { name, shape := .property (.form type), tags := [.nestedForm] }
  .ofDeclarations [
    { name := "Order", members := [form "customer" "Customer"] },
    { name := "Customer", members := [form "address" "Address"] },
    { name := "Address", members := [line "street", line "city"] }]

def addressPlan : Plan :=
  ⟨"Address", none, .default, [], [
    .askText "street" "street" .text false {} none, .askText "city" "city" .text false {} none]⟩

def customerPlan : Plan := ⟨"Customer", none, .default, [], [.recurse "address" addressPlan]⟩

def orderPlan : Plan := ⟨"Order", none, .default, [], [.recurse "customer" customerPlan]⟩

def text (answer : String) : Answer := .finished false () ⟨.ok answer, .error .cancelled⟩

def oneAnswer : Surface := ⟨[text "Elm Street 5", .stalled ()], .cancelled, false⟩

def twoAnswers : Surface := ⟨[text "Elm Street 5", text "Springwood"], .cancelled, false⟩

end Sample
end FormFlow
