import FormFlow.Proofs.Run.Trace
/-!
# The moments of a run

The moments of a run are what is observed of it and the cancellation of its
token, in order. The token is cancelled before the run, or by work that the run
has just opened: an answer that it awaits or the body of a step.
-/
namespace FormFlow

inductive Moment where
  | observed (event : Event)
  | cancelled

namespace Moment

def event? : Moment → Option Event
  | .observed event => some event
  | .cancelled => none

def startedPath? (m : Moment) : Option String := m.event?.bind Event.startedPath?

def token (cancelled : Bool) : List Moment := if cancelled then [.cancelled] else []

/-- The moments of an operation that nests no form: the token is cancelled, if at all, by the work that
the first of these events opens. -/
def ofWork (cancelled : Bool) : List Event → List Moment
  | [] => []
  | e :: rest =>
    if e.opensWork then .observed e :: token cancelled ++ rest.map .observed
    else .observed e :: ofWork cancelled rest

theorem mem_token {b : Bool} : .cancelled ∈ token b ↔ b = true := by
  cases b <;> simp [token]

@[simp] theorem events_token (b : Bool) : (token b).filterMap event? = [] := by
  cases b <;> rfl

@[simp] theorem events_observed (events : List Event) :
    (events.map observed).filterMap event? = events := by
  rw [List.filterMap_map]
  exact List.filterMap_some

theorem not_mem_observed (events : List Event) : .cancelled ∉ events.map observed := by
  intro h
  obtain ⟨e, -, he⟩ := List.mem_map.mp h
  cases he

def Placed (moments : List Moment) : Prop :=
  ∀ before after, moments = before ++ .cancelled :: after →
    ∃ e, before.getLast? = some (.observed e) ∧ e.opensWork = true

theorem placed_of_not_mem {moments : List Moment} (h : .cancelled ∉ moments) : Placed moments := by
  intro before after hSplit
  refine absurd ?_ h
  rw [hSplit]
  exact List.mem_append_right before List.mem_cons_self

theorem Placed.append {first later : List Moment} (hFirst : Placed first) (hLater : Placed later) :
    Placed (first ++ later) := by
  intro before after hSplit
  rcases List.append_eq_append_iff.mp hSplit with
    ⟨before', rfl, hRest⟩ | ⟨_ | ⟨m, after'⟩, hHead, hRest⟩
  · obtain ⟨e, hLast, hOpens⟩ := hLater before' after hRest
    exact ⟨e, by rw [List.getLast?_append, hLast]; rfl, hOpens⟩
  · obtain ⟨e, hLast, -⟩ := hLater [] after hRest.symm
    cases hLast
  · obtain ⟨rfl, rfl⟩ := List.cons.inj hRest
    exact hFirst before after' hHead

theorem Placed.cons {moments : List Moment} (h : Placed moments) (e : Event) :
    Placed (.observed e :: moments) := by
  have hAlone : Placed [.observed e] := placed_of_not_mem (not_mem_observed [e])
  exact hAlone.append h

variable {b : Bool} {events : List Event}

theorem events_ofWork : (ofWork b events).filterMap event? = events := by
  induction events with
  | nil => rfl
  | cons e rest ih =>
    unfold ofWork
    split
    · simp only [List.cons_append, List.filterMap_cons, event?, List.filterMap_append, events_token,
        events_observed, List.nil_append]
    · simp only [List.filterMap_cons, event?, ih]

theorem ofWork_unopened (h : ∀ e ∈ events, e.opensWork = false) :
    ofWork b events = events.map observed := by
  induction events with
  | nil => rfl
  | cons e rest ih =>
    obtain ⟨hHead, hRest⟩ := List.forall_mem_cons.mp h
    simp only [ofWork, hHead, Bool.false_eq_true, if_false, ih hRest, List.map_cons]

theorem ofWork_opened {before after : List Event} {e : Event}
    (hBefore : ∀ f ∈ before, f.opensWork = false) (hOpens : e.opensWork = true) :
    ofWork b (before ++ e :: after) =
      before.map observed ++ .observed e :: token b ++ after.map observed := by
  induction before with
  | nil => simp only [List.nil_append, ofWork, hOpens, if_true, List.map_nil]
  | cons f rest ih =>
    obtain ⟨hHead, hRest⟩ := List.forall_mem_cons.mp hBefore
    simp only [List.cons_append, ofWork, hHead, Bool.false_eq_true, if_false, ih hRest,
      List.map_cons]

theorem placed_ofWork : Placed (ofWork b events) := by
  induction events with
  | nil => exact placed_of_not_mem List.not_mem_nil
  | cons e rest ih =>
    unfold ofWork
    split
    · rename_i hOpens
      refine Placed.append ?_ (placed_of_not_mem (not_mem_observed rest))
      cases b with
      | false => exact placed_of_not_mem (not_mem_observed [e])
      | true =>
        rintro (_ | ⟨m, _ | ⟨n, rest'⟩⟩) after hSplit
        · cases hSplit
        · cases hSplit
          exact ⟨e, rfl, hOpens⟩
        · simp [token] at hSplit
    · exact ih.cons e

end Moment

theorem Event.opensWork_of_preparesWork {e : Event} (h : e.preparesWork = true) :
    e.opensWork = false := by
  cases e with
  | textAsked request => cases h
  | selectionAsked request => cases h
  | stepCalled name isAsync typeName fields => cases h
  | _ => rfl

namespace Trail

def moments (t : Trail) : List Moment :=
  Moment.ofWork t.surface.cancelled t.events

variable {surface : Surface} {t : Trail}

theorem OfWork.moments_eq (h : t.OfWork surface) :
    t.moments = t.events.map .observed ∧ t.surface = surface ∨
      ∃ (before : List Event) (e : Event) (after : List Event), t.moments = before.map .observed ++
          .observed e :: Moment.token t.surface.cancelled ++ after.map .observed ∧
        ∀ f ∈ after, ∃ ok, f = .statusEnded ok := by
  have hShut (events : List Event) (h : ∀ e ∈ events, e.preparesWork = true) :
      ∀ e ∈ events, e.opensWork = false :=
    fun e he => Event.opensWork_of_preparesWork (h e he)
  cases h with
  | unopened prepared same => exact .inl ⟨Moment.ofWork_unopened (hShut _ prepared), same⟩
  | opened before e after events prepared opens ended =>
    refine .inr ⟨before, e, after, ?_, ended⟩
    rw [moments, events, Moment.ofWork_opened (hShut _ prepared) opens]

theorem OfWork.cancelled_mem_moments (h : t.OfWork surface) (hClear : surface.cancelled = false) :
    .cancelled ∈ t.moments ↔ t.surface.cancelled = true := by
  rcases h.moments_eq with ⟨hMoments, rfl⟩ | ⟨before, e, after, hMoments, -⟩
  · simp [hMoments, hClear]
  · simp [hMoments, Moment.mem_token]

end Trail

namespace Operation

mutual
def moments (op : Operation) (scope : Scope) (inst : Instance) (surface : Surface) : List Moment :=
  match op with
  | .askText member title type secret search culture =>
    (scope.askText inst surface member title type secret search culture).moments
  | .askSelect member title source converter search culture =>
    (scope.askSelect inst surface member title source converter search culture).moments
  | .runStep member _ status body => (scope.runStep inst surface member status body).moments
  | .recurse member ⟨typeName, culture, strategy, dependencies, operations⟩ =>
    let path := joinPath scope.path member
    match PlanOf.nestedInstance ⟨typeName, culture, strategy, dependencies, operations⟩ path
        (inst.get? member) with
    | .error _ => []
    | .ok child => momentsAll operations (scope.enter path culture) child surface

def momentsAll (ops : List Operation) (scope : Scope) (inst : Instance) (surface : Surface) :
    List Moment :=
  match ops with
  | [] => []
  | op :: rest =>
    if surface.cancelled then []
    else
      let first := op.run scope inst surface
      match first.halt with
      | some _ => .observed (op.startEvent scope) :: op.moments scope inst surface
      | none =>
        .observed (op.startEvent scope) :: op.moments scope inst surface ++
          momentsAll rest scope first.inst first.surface
end

section Equations
variable {scope : Scope} {inst : Instance} {surface : Surface}

theorem moments_of_work {op : Operation} (h : op.isWork = true) :
    op.moments scope inst surface = (op.run scope inst surface).moments := by
  cases op with
  | recurse member plan => cases h
  | _ => simp only [moments, run]

theorem moments_recurse_error {member : String} {plan : Plan} {error : ExecutionError}
    (h : plan.nestedInstance (joinPath scope.path member) (inst.get? member) = .error error) :
    (Operation.recurse member plan).moments scope inst surface = [] := by
  cases plan
  simp only [moments, h]

theorem moments_recurse_ok {member : String} {plan : Plan} {child : Instance}
    (h : plan.nestedInstance (joinPath scope.path member) (inst.get? member) = .ok child) :
    (Operation.recurse member plan).moments scope inst surface =
      momentsAll plan.operations (scope.enter (joinPath scope.path member) plan.culture) child
        surface := by
  cases plan
  simp only [moments, h]

variable {op : Operation} {rest : List Operation}

theorem momentsAll_cancelled (ops : List Operation) (h : surface.cancelled = true) :
    momentsAll ops scope inst surface = [] := by
  cases ops with
  | nil => simp only [momentsAll]
  | cons op rest => simp only [momentsAll, h, if_true]

theorem momentsAll_halted {halt : Halt} (h : surface.cancelled = false)
    (hHalt : (op.run scope inst surface).halt = some halt) :
    momentsAll (op :: rest) scope inst surface =
      .observed (op.startEvent scope) :: op.moments scope inst surface := by
  simp only [momentsAll, h, hHalt, Bool.false_eq_true, if_false]

theorem momentsAll_continued (h : surface.cancelled = false)
    (hHalt : (op.run scope inst surface).halt = none) :
    momentsAll (op :: rest) scope inst surface =
      .observed (op.startEvent scope) :: op.moments scope inst surface ++
        momentsAll rest scope (op.run scope inst surface).inst (op.run scope inst surface).surface := by
  simp only [momentsAll, h, hHalt, Bool.false_eq_true, if_false]

end Equations

theorem events_moments :
    (∀ (op : Operation) (scope : Scope) (inst : Instance) (surface : Surface),
      (op.moments scope inst surface).filterMap Moment.event? = (op.run scope inst surface).events) ∧
    ∀ (ops : List Operation) (scope : Scope) (inst : Instance) (surface : Surface),
      (momentsAll ops scope inst surface).filterMap Moment.event? =
        (runAll ops scope inst surface).events := by
  apply run_induction
  case work =>
    intro op scope inst surface hWork
    rw [moments_of_work hWork]
    exact Moment.events_ofWork
  case refused =>
    intro member plan scope inst surface error hChild
    rw [moments_recurse_error hChild, run_recurse_error hChild]
    rfl
  case nested =>
    intro member plan scope inst surface child hChild ih
    rw [moments_recurse_ok hChild, run_recurse_ok hChild, Trail.nest_events, ih]
  case finished =>
    intro scope inst surface
    simp only [momentsAll, runAll_nil, List.filterMap_nil]
  case cancelled =>
    intro op rest scope inst surface hCancelled
    rw [momentsAll_cancelled _ hCancelled, runAll_cancelled hCancelled]
    rfl
  case halted =>
    intro op rest scope inst surface halt hCancelled hHalt ih
    rw [momentsAll_halted hCancelled hHalt, runAll_halted hCancelled hHalt, List.filterMap_cons, ih]
    rfl
  case continued =>
    intro op rest scope inst surface hCancelled hHalt ih ihRest
    rw [momentsAll_continued hCancelled hHalt, runAll_continued hCancelled hHalt,
      List.filterMap_append, List.filterMap_cons, ih, ihRest]
    rfl

theorem placed_moments :
    (∀ (op : Operation) (scope : Scope) (inst : Instance) (surface : Surface),
      Moment.Placed (op.moments scope inst surface)) ∧
    ∀ (ops : List Operation) (scope : Scope) (inst : Instance) (surface : Surface),
      Moment.Placed (momentsAll ops scope inst surface) := by
  have hNone : Moment.Placed [] := Moment.placed_of_not_mem List.not_mem_nil
  apply run_induction
  case work =>
    intro op scope inst surface hWork
    rw [moments_of_work hWork]
    exact Moment.placed_ofWork
  case refused =>
    intro member plan scope inst surface error hChild
    rw [moments_recurse_error hChild]
    exact hNone
  case nested =>
    intro member plan scope inst surface child hChild ih
    rw [moments_recurse_ok hChild]
    exact ih
  case finished =>
    intro scope inst surface
    simp only [momentsAll, hNone]
  case cancelled =>
    intro op rest scope inst surface hCancelled
    rw [momentsAll_cancelled _ hCancelled]
    exact hNone
  case halted =>
    intro op rest scope inst surface halt hCancelled hHalt ih
    rw [momentsAll_halted hCancelled hHalt]
    exact ih.cons _
  case continued =>
    intro op rest scope inst surface hCancelled hHalt ih ihRest
    rw [momentsAll_continued hCancelled hHalt]
    exact (ih.cons _).append ihRest

theorem runAll_surface (ops : List Operation) (scope : Scope) (inst : Instance) {surface : Surface}
    (h : surface.cancelled = true) : (runAll ops scope inst surface).surface = surface := by
  cases ops with
  | nil => rw [runAll_nil]
  | cons op rest =>
    rw [runAll_cancelled h]
    rfl

/-- The token is cancelled after an operation that started with a clear one exactly if its moments
hold the cancellation. -/
theorem cancelled_mem_moments :
    (∀ (op : Operation) (scope : Scope) (inst : Instance) (surface : Surface),
      surface.cancelled = false →
        (.cancelled ∈ op.moments scope inst surface ↔
          (op.run scope inst surface).surface.cancelled = true)) ∧
    ∀ (ops : List Operation) (scope : Scope) (inst : Instance) (surface : Surface),
      surface.cancelled = false →
        (.cancelled ∈ momentsAll ops scope inst surface ↔
          (runAll ops scope inst surface).surface.cancelled = true) := by
  apply run_induction
  case work =>
    intro op scope inst surface hWork hClear
    rw [moments_of_work hWork]
    exact (work_trail hWork scope inst surface).cancelled_mem_moments hClear
  case refused =>
    intro member plan scope inst surface error hChild hClear
    rw [moments_recurse_error hChild, run_recurse_error hChild]
    simp [Trail.fail, hClear]
  case nested =>
    intro member plan scope inst surface child hChild ih hClear
    rw [moments_recurse_ok hChild, run_recurse_ok hChild, Trail.nest_surface]
    exact ih hClear
  case finished =>
    intro scope inst surface hClear
    simp [momentsAll, hClear]
  case cancelled =>
    intro op rest scope inst surface hCancelled hClear
    cases hCancelled.symm.trans hClear
  case halted =>
    intro op rest scope inst surface halt hCancelled hHalt ih hClear
    rw [momentsAll_halted hCancelled hHalt, runAll_halted hCancelled hHalt]
    simpa using ih hClear
  case continued =>
    intro op rest scope inst surface hCancelled hHalt ih ihRest hClear
    rw [momentsAll_continued hCancelled hHalt, runAll_continued hCancelled hHalt]
    have hFirst := ih hClear
    cases hToken : (op.run scope inst surface).surface.cancelled with
    | true =>
      have hStill := runAll_surface rest scope (op.run scope inst surface).inst hToken
      simp [hFirst, hStill, hToken]
    | false => simpa [hFirst, hToken] using ihRest hToken

end Operation

section Runs
variable (plan : Plan) (runId : String) (culture : Option String) (inst : Instance)
  (surface : Surface)

def PlanOf.endEvent (plan : Plan) (runId : String) (t : Trail) : Event :=
  .logged (match t.failure? with
    | none => .runCompleted plan.typeName t.completed runId
    | some (error, _) => .runFailed plan.typeName error.path t.completed error.message runId)

theorem PlanOf.run_events :
    (plan.run runId culture inst surface).events =
      .logged (.runStarted plan.typeName plan.operations.length runId) ::
        (plan.trail runId culture inst surface).events ++
          [plan.endEvent runId (plan.trail runId culture inst surface)] := by
  simp only [run, endEvent]
  split <;> simp only [*]

/-- The moments of a run, the cancellation that it finds first. -/
def PlanOf.moments : List Moment :=
  Moment.token surface.cancelled ++
    .observed (.logged (.runStarted plan.typeName plan.operations.length runId)) ::
      Operation.momentsAll plan.operations ⟨runId, "", plan.culture <|> culture⟩ inst surface ++
        [.observed (plan.endEvent runId (plan.trail runId culture inst surface))]

theorem PlanOf.events_moments :
    (plan.moments runId culture inst surface).filterMap Moment.event? =
      (plan.run runId culture inst surface).events := by
  have hOperations := Operation.events_moments.2 plan.operations
    ⟨runId, "", plan.culture <|> culture⟩ inst surface
  simp only [moments, List.filterMap_append, Moment.events_token, List.nil_append,
    List.filterMap_cons, hOperations, run_events]
  rfl

theorem PlanOf.cancelled_mem_moments :
    .cancelled ∈ plan.moments runId culture inst surface ↔
      (plan.run runId culture inst surface).surface.cancelled = true := by
  rw [run_surface]
  cases hToken : surface.cancelled with
  | true =>
    have hStill : (plan.trail runId culture inst surface).surface = surface :=
      Operation.runAll_surface _ _ _ hToken
    simp [moments, hToken, hStill, Moment.token]
  | false =>
    have hOperations := Operation.cancelled_mem_moments.2 plan.operations
      ⟨runId, "", plan.culture <|> culture⟩ inst surface hToken
    simp only [trail, ← hOperations]
    simp [moments, hToken, Moment.token]

theorem PlanOf.cancelled_placed {before after : List Moment}
    (h : plan.moments runId culture inst surface = before ++ .cancelled :: after) :
    before = [] ∧ surface.cancelled = true ∨
      ∃ e, before.getLast? = some (.observed e) ∧ e.opensWork = true := by
  have hOperations := Operation.placed_moments.2 plan.operations
    ⟨runId, "", plan.culture <|> culture⟩ inst surface
  have hEnd (e : Event) : Moment.Placed [.observed e] :=
    Moment.placed_of_not_mem (Moment.not_mem_observed [e])
  have hBegun := (hOperations.cons
    (.logged (.runStarted plan.typeName plan.operations.length runId))).append
      (hEnd (plan.endEvent runId (plan.trail runId culture inst surface)))
  cases hToken : surface.cancelled with
  | false =>
    simp only [moments, hToken, Moment.token, Bool.false_eq_true, if_false, List.nil_append] at h
    exact .inr (hBegun before after h)
  | true =>
    simp only [moments, hToken, Moment.token, if_true, List.cons_append, List.nil_append] at h
    cases before with
    | nil => exact .inl ⟨rfl, rfl⟩
    | cons m before =>
      obtain ⟨e, hLast, hOpens⟩ := hBegun before after (List.cons.inj h).2
      exact .inr ⟨e, by rw [List.getLast?_cons, hLast]; rfl, hOpens⟩

end Runs
end FormFlow
