import FormFlow.Proofs.Run.Frame
/-!
# Runs that are tried again

The instance that a failed run hands back differs from the one it was given only
in members that are asked for, at any depth. If no selection depends on what is
asked for, two runs on such instances stay in step: the same is asked and called,
and whatever the first instance still lacks or holds otherwise is assigned before
the runs end. So a run that is tried again on what it handed back does what it
would have done from the start.
-/
namespace FormFlow

section Specification

/-- The candidates do not depend on what the operations assign. -/
def Source.Steady (ops : List Operation) : Source → Prop
  | .property name => name ∉ ops.map Operation.member
  | .method _ call => ∀ i j, call i = call j

/-- In the plan and in each one nested in it, every selection is among candidates that do not depend on
what is asked for. -/
def PlanOf.Steady (plan : Plan) : Prop := ∀ q, plan.Holds q →
  ∀ member title source converter search culture,
    .askSelect member title source converter search culture ∈ q.operations →
      source.Steady q.operations

def Operation.AllSteady (ops : List Operation) : Prop :=
  (∀ member title source converter search culture,
    .askSelect member title source converter search culture ∈ ops → source.Steady ops) ∧
  ∀ member plan, .recurse member plan ∈ ops → plan.Steady

end Specification

theorem PlanOf.Steady.operations {plan : Plan} (h : plan.Steady) :
    Operation.AllSteady plan.operations :=
  ⟨h plan (.self plan), fun _ _ hOp q hHolds => h q (.nested hOp hHolds)⟩

theorem Operation.AllSteady.tail {op : Operation} {rest : List Operation}
    (h : AllSteady (op :: rest)) : AllSteady rest := by
  refine ⟨fun member title source converter search culture hOp => ?_,
    fun member plan hOp => h.2 member plan (List.mem_cons_of_mem op hOp)⟩
  have hSource := h.1 member title source converter search culture (List.mem_cons_of_mem op hOp)
  cases source with
  | property name => exact fun hIn => hSource (List.mem_cons_of_mem _ hIn)
  | method name call => exact hSource

theorem Source.Steady.fetch_eq {ops : List Operation} {source : Source} (h : source.Steady ops)
    {i j : Instance} (hSame : i.SameOutside (ops.map Operation.member) j) :
    source.fetch j = source.fetch i := by
  cases source with
  | property name => simp only [fetch, hSame name h]
  | method name call => exact h j i

section InStep

def Instance.SetAlike (member : String) (x y i j : Instance) : Prop :=
  ∃ value, i = x.set member value ∧ j = y.set member value

/-- The work is done on both sides, fails in the same way, or is given up at the same member. -/
inductive Halt.Alike (done : Prop) : Option Halt → Option Halt → Prop where
  | finished (h : done) : Alike done none none
  | failed (error : ExecutionError) : Alike done (some (.failed error)) (some (.failed error))
  | interrupted (p q : Pending) (same : p.member = q.member) :
      Alike done (some (.interrupted p)) (some (.interrupted q))

/-- What is asked and called in the trails is the same, they end alike, and those that finish do so on
related instances. -/
structure Trail.InStep (R : Instance → Instance → Prop) (a b : Trail) : Prop where
  outward : a.events.filter Event.isOutward = b.events.filter Event.isOutward
  surface : a.surface = b.surface
  ends : Halt.Alike (R a.inst b.inst) a.halt b.halt

end InStep

theorem Source.fetchEvents_eq (source : Source) {x y : Instance} (h : x.typeName = y.typeName) :
    source.fetchEvents x = source.fetchEvents y := by
  cases source with
  | property name => rfl
  | method name call => simp only [fetchEvents, h]

namespace Scope
variable (scope : Scope) (x y : Instance) (surface : Surface) (member title : String)
  (runId : String)

theorem askText_inStep (type : FieldType) (secret : Bool) (search : SearchOptions)
    (culture : Option String) :
    (scope.askText x surface member title type secret search culture).InStep
      (Instance.SetAlike member x y)
      ({ scope with runId }.askText y surface member title type secret search culture) := by
  simp only [askText]
  cases surface.await with
  | mk reply rest =>
    cases reply with
    | none => exact ⟨rfl, rfl, .interrupted _ _ rfl⟩
    | some reply =>
      dsimp only
      split
      · exact ⟨rfl, rfl, .failed _⟩
      · split
        · exact ⟨rfl, rfl, .failed _⟩
        · exact ⟨rfl, rfl, .finished ⟨_, rfl, rfl⟩⟩

theorem askSelect_inStep {source : Source} (hFetch : source.fetch y = source.fetch x)
    (hType : x.typeName = y.typeName) (converter : Option Converter) (search : SearchOptions)
    (culture : Option String) :
    (scope.askSelect x surface member title source converter search culture).InStep
      (Instance.SetAlike member x y)
      ({ scope with runId }.askSelect y surface member title source converter search culture) := by
  simp only [askSelect, hFetch, source.fetchEvents_eq hType]
  split
  · exact ⟨rfl, rfl, .failed _⟩
  · exact ⟨rfl, rfl, .failed _⟩
  · cases surface.await with
    | mk reply rest =>
      cases reply with
      | none => exact ⟨rfl, rfl, .interrupted _ _ rfl⟩
      | some reply =>
        dsimp only
        split
        · exact ⟨rfl, rfl, .failed _⟩
        · split
          · exact ⟨rfl, rfl, .finished ⟨_, rfl, rfl⟩⟩
          · exact ⟨rfl, rfl, .failed _⟩

end Scope

theorem Trail.InStep.nest {a b : Trail} (h : a.InStep Eq b) (member : String) (x y : Instance) :
    (a.nest member x).InStep (Instance.SetAlike member x y) (b.nest member y) := by
  obtain ⟨eventsA, surfaceA, instA, completedA, haltA⟩ := a
  obtain ⟨eventsB, surfaceB, instB, completedB, haltB⟩ := b
  obtain ⟨hOutward, hSurface, hEnds⟩ := h
  cases hEnds with
  | finished related =>
    cases related
    exact ⟨hOutward, hSurface, .finished ⟨_, rfl, rfl⟩⟩
  | failed error => exact ⟨hOutward, hSurface, .failed error⟩
  | interrupted p q same => exact ⟨hOutward, hSurface, .interrupted _ _ rfl⟩

section Nested
variable {plan : Plan} {path : String} {before after : Option Json}

theorem PlanOf.AltersHeld.nestedInstance_error
    (h : plan.AltersHeld Instance.Overwritten before after) {error : ExecutionError}
    (hError : plan.nestedInstance path before = .error error) :
    plan.nestedInstance path after = .error error := by
  cases h with
  | same => exact hError
  | entered starts form => cases (nestedInstance_of_held starts path).symm.trans hError

theorem PlanOf.typeName_of_held {held : Option Json} {start : Instance}
    (h : plan.heldInstance? held = some start) : start.typeName = plan.typeName := by
  unfold heldInstance? at h
  split at h
  · cases h
    rfl
  · split at h <;> cases h
    rfl
  · split at h <;> cases h
    rfl
  · cases h

theorem PlanOf.AltersHeld.nestedInstance_ok
    (h : plan.AltersHeld Instance.Overwritten before after) {child : Instance}
    (hChild : plan.nestedInstance path before = .ok child) :
    ∃ other, plan.nestedInstance path after = .ok other ∧
      Operation.Alters Instance.Overwritten plan.operations child other := by
  cases h with
  | same => exact ⟨child, hChild, Operation.alters_refl _ child⟩
  | @entered _ _ start final starts form =>
    cases (heldInstance_of_nestedInstance hChild).symm.trans starts
    have hType : final.typeName = plan.typeName :=
      form.form.typeName_eq.trans (typeName_of_held starts)
    refine ⟨final, ?_, form⟩
    simp only [nestedInstance, Instance.toValue, ← hType]

end Nested

section Overwriting

theorem Instance.Overwritten.eq_of_nil {i j : Instance} (h : Overwritten [] i j) : j = i := by
  cases h with
  | refl => rfl
  | set value hName _ => cases hName

theorem Instance.Overwritten.assigned {member : String} {names : List String} {i j : Instance}
    (h : Overwritten (member :: names) i j) (value : Json) :
    Overwritten names (i.set member value) (j.set member value) := by
  induction h with
  | refl => exact .refl
  | @set j name w hName _ ih =>
    by_cases hSame : name = member
    · rw [hSame, j.set_set]
      exact ih
    · have hOther : name ∈ names := (List.mem_cons.mp hName).resolve_left hSame
      rw [j.set_comm w value hSame]
      exact .set w hOther ih

theorem Operation.Alters.assigned {op : Operation} {rest : List Operation} {x y : Instance}
    (h : Alters Instance.Overwritten (op :: rest) x y) (value : Json) :
    Alters Instance.Overwritten rest (x.set op.member value) (y.set op.member value) := by
  refine .intro (h.form.assigned value) fun name plan hOp => ?_
  by_cases hSame : name = op.member
  · rw [hSame, Instance.get?_set_self, Instance.get?_set_self]
    exact .same plan _
  · rw [Instance.get?_set_of_ne _ _ hSame, Instance.get?_set_of_ne _ _ hSame]
    exact h.held (List.mem_cons_of_mem op hOp)

end Overwriting

theorem Trail.InStep.finished {R : Instance → Instance → Prop} {a b : Trail} (h : a.InStep R b)
    (hHalt : a.halt = none) : b.halt = none ∧ R a.inst b.inst := by
  have hEnds := h.ends
  rw [hHalt] at hEnds
  generalize b.halt = other at hEnds
  cases hEnds with
  | finished related => exact ⟨rfl, related⟩

theorem Trail.InStep.halted {R : Instance → Instance → Prop} {a b : Trail} (h : a.InStep R b)
    {halt : Halt} (hHalt : a.halt = some halt) (S : Instance → Instance → Prop) :
    ∃ other, b.halt = some other ∧ Halt.Alike (S a.inst b.inst) a.halt b.halt := by
  have hEnds := h.ends
  rw [hHalt] at hEnds ⊢
  generalize b.halt = other at hEnds
  cases hEnds with
  | failed error => exact ⟨_, rfl, .failed error⟩
  | interrupted p q same => exact ⟨_, rfl, .interrupted p q same⟩

theorem Operation.run_inStep :
    (∀ (op : Operation) (scope : Scope) (x : Instance) (surface : Surface) (ops : List Operation)
        (y : Instance) (runId : String), op ∈ ops → AllSteady ops → op.Orderly →
          Alters Instance.Overwritten ops x y →
            (op.run scope x surface).InStep (Instance.SetAlike op.member x y)
              (op.run { scope with runId } y surface)) ∧
      ∀ (ops : List Operation) (scope : Scope) (x : Instance) (surface : Surface) (y : Instance)
        (runId : String), AllSteady ops → (∀ op ∈ ops, op.Orderly) →
          Alters Instance.Overwritten ops x y →
            (runAll ops scope x surface).InStep Eq (runAll ops { scope with runId } y surface) := by
  apply run_induction
  case work =>
    intro op scope x surface hWork ops y runId hIn hSteady hOrderly hAlters
    cases op with
    | askText member title type secret search culture =>
      exact scope.askText_inStep x y surface member title runId type secret search culture
    | askSelect member title source converter search culture =>
      have hSource := hSteady.1 member title source converter search culture hIn
      have hFetch := hSource.fetch_eq hAlters.form.sameOutside
      have hType := hAlters.form.typeName_eq.symm
      exact scope.askSelect_inStep x y surface member title runId hFetch hType converter search culture
    | runStep member isAsync status body => cases hOrderly.1
    | recurse member plan => cases hWork
  case refused =>
    intro member plan scope x surface error hChild ops y runId hIn hSteady hOrderly hAlters
    have hRefused : (Operation.recurse member plan).run { scope with runId } y surface =
        .fail [] surface y error :=
      run_recurse_error ((hAlters.held hIn).nestedInstance_error hChild)
    rw [run_recurse_error hChild, hRefused]
    exact ⟨rfl, rfl, .failed error⟩
  case nested =>
    intro member plan scope x surface child hChild ih ops y runId hIn hSteady hOrderly hAlters
    obtain ⟨other, hOther, hForm⟩ := (hAlters.held hIn).nestedInstance_ok hChild
    have hEntered : (Operation.recurse member plan).run { scope with runId } y surface =
        (runAll plan.operations { scope.enter (joinPath scope.path member) plan.culture with runId }
          other surface).nest member y := run_recurse_ok hOther
    have hInner := (hOrderly.2 member plan rfl).operations.2
    rw [run_recurse_ok hChild, hEntered]
    exact (ih other runId (hSteady.2 member plan hIn).operations hInner hForm).nest member x y
  case finished =>
    intro scope x surface y runId hSteady hOrderly hAlters
    rw [runAll_nil, runAll_nil]
    exact ⟨rfl, rfl, .finished hAlters.form.eq_of_nil.symm⟩
  case cancelled =>
    intro op rest scope x surface hCancelled y runId hSteady hOrderly hAlters
    rw [runAll_cancelled hCancelled, runAll_cancelled hCancelled]
    exact ⟨rfl, rfl, .failed _⟩
  case halted =>
    intro op rest scope x surface halt hCancelled hHalt ih y runId hSteady hOrderly hAlters
    have hFirst := hOrderly op List.mem_cons_self
    have hStep := ih (op :: rest) y runId List.mem_cons_self hSteady hFirst hAlters
    obtain ⟨other, hOther, hEnds⟩ := hStep.halted hHalt Eq
    rw [runAll_halted hCancelled hHalt, runAll_halted hCancelled hOther]
    exact ⟨hStep.outward, hStep.surface, hEnds⟩
  case continued =>
    intro op rest scope x surface hCancelled hHalt ih ihRest y runId hSteady hOrderly hAlters
    obtain ⟨hFirst, hRest⟩ := List.forall_mem_cons.mp hOrderly
    have hStep := ih (op :: rest) y runId List.mem_cons_self hSteady hFirst hAlters
    obtain ⟨hOther, value, hX, hY⟩ := hStep.finished hHalt
    have hAlters' := hAlters.assigned value
    rw [← hX, ← hY] at hAlters'
    have hLater := ihRest _ runId hSteady.tail hRest hAlters'
    rw [runAll_continued hCancelled hHalt, runAll_continued hCancelled hOther]
    dsimp only
    rw [hStep.surface] at hLater ⊢
    refine ⟨?_, hLater.surface, hLater.ends⟩
    have hStarts (s : Scope) : (op.startEvent s).isOutward = false := rfl
    simp only [List.cons_append, List.filter_cons, List.filter_append, hStarts, Bool.false_eq_true,
      if_false, hStep.outward, hLater.outward]

section Runs

theorem PlanOf.run_alike {plan : Plan} {idA idB : String} {culture : Option String}
    {x y : Instance} {surface : Surface}
    (h : (plan.trail idA culture x surface).InStep Eq (plan.trail idB culture y surface)) :
    (∃ final, (plan.run idA culture x surface).result = .ok final ∧
        (plan.run idB culture y surface).result = .ok final) ∨
      ∃ a b, (plan.run idA culture x surface).result = .error a ∧
        (plan.run idB culture y surface).result = .error b ∧ a.error = b.error := by
  have hEnds := h.ends
  rw [run_result, run_result, Trail.failure?, Trail.failure?]
  generalize (plan.trail idA culture x surface).halt = haltA at hEnds
  generalize (plan.trail idB culture y surface).halt = haltB at hEnds
  cases hEnds with
  | finished related => exact .inl ⟨_, rfl, by rw [related]⟩
  | failed error => exact .inr ⟨_, _, rfl, rfl, rfl⟩
  | interrupted p q same => exact .inr ⟨_, _, rfl, rfl, by rw [same]⟩

/-- If a run of a compiled plan without steps fails, without being cancelled, and no selection depends
on what is asked for, then a run on what it handed back does what a run from the start does: it makes
the same requests and calls, and completes on the same instance or fails with the same error. -/
theorem Catalog.retry_as_fresh {c : Catalog} {limit : Nat} {t : String} {plan : Plan}
    (hCompiled : (c.compile limit t).result = .ok plan) (hStepless : plan.Stepless)
    (hSteady : plan.Steady) (inst : Instance) (firstAnswers answers : Surface)
    (firstId retryId freshId : String) (firstCulture culture : Option String)
    (hCalm : (plan.run firstId firstCulture inst firstAnswers).surface.cancelled = false)
    {failure : RunFailure}
    (hFailed : (plan.run firstId firstCulture inst firstAnswers).result = .error failure) :
    let fresh := plan.run freshId culture inst answers
    let retry := plan.run retryId culture failure.reached answers
    retry.events.filter Event.isOutward = fresh.events.filter Event.isOutward ∧
      retry.surface = fresh.surface ∧
      ((∃ final, fresh.result = .ok final ∧ retry.result = .ok final) ∨
        ∃ a b, fresh.result = .error a ∧ retry.result = .error b ∧ a.error = b.error) := by
  intro fresh retry
  obtain ⟨hNodup, hOrderly⟩ := (PlanOf.orderly_of_compile hCompiled hStepless).operations
  have hReached : failure.reached = (plan.trail firstId firstCulture inst firstAnswers).inst := by
    rw [← (PlanOf.run_of_not_interrupted (PlanOf.not_interrupted hCalm)).1, RunResult.reached, hFailed]
  have hAlters : Operation.Alters Instance.Overwritten plan.operations inst failure.reached := by
    rw [hReached]
    exact Operation.run_alters.2 plan.operations _ inst firstAnswers hNodup hOrderly
  have hStep : (plan.trail freshId culture inst answers).InStep Eq
      (plan.trail retryId culture failure.reached answers) :=
    Operation.run_inStep.2 plan.operations ⟨freshId, "", plan.culture <|> culture⟩ inst answers
      failure.reached retryId hSteady.operations hOrderly hAlters
  refine ⟨?_, ?_, PlanOf.run_alike hStep⟩
  · rw [PlanOf.outward_run, PlanOf.outward_run, hStep.outward]
  · rw [PlanOf.run_surface, PlanOf.run_surface, hStep.surface]

end Runs

namespace Sample

theorem paymentPlan_steady : paymentPlan.Steady := by
  rw [PlanOf.Steady, PlanOf.forall_holds_iff]
  constructor
  · intro member title source converter search culture hOp
    rcases List.mem_cons.mp hOp with hAmount | hOp
    · cases hAmount
      simp [Source.Steady, paymentPlan, Operation.member]
    · rcases List.mem_cons.mp hOp with hCurrency | hOp
      · cases hCurrency
        exact fun i j => rfl
      · cases List.mem_singleton.mp hOp
  · intro member inner hOp
    obtain ⟨-, rfl⟩ : member = "payee" ∧ inner = payeePlan := by simpa [paymentPlan] using hOp
    rw [PlanOf.forall_holds_iff]
    simp [payeePlan]

theorem payment_retried :
    let first := paymentPlan.run "1" none ⟨"Payment", amounts⟩
      ⟨[chosen 1, chosen 0, text "old"], .cancelled, false⟩
    let answers : Surface := ⟨[chosen 0, chosen 1, text "36"], .cancelled, false⟩
    let fresh := paymentPlan.run "2" none ⟨"Payment", amounts⟩ answers
    ∃ failure, first.result = .error failure ∧ failure.reached.get? "payee" = some (.obj []) ∧
      let retry := paymentPlan.run "3" none failure.reached answers
      retry.events.filter Event.isOutward = fresh.events.filter Event.isOutward ∧
        ∃ final, fresh.result = .ok final ∧ retry.result = .ok final := by
  intro first answers fresh
  have hCompiled : (payments.compile 16 "Payment").result = .ok paymentPlan := by cbv
  obtain ⟨failure, hFailure, hPayee⟩ : ∃ failure, first.result = .error failure ∧
      failure.reached.get? "payee" = some (.obj []) := ⟨_, rfl, rfl⟩
  obtain ⟨hOutward, -, hResults⟩ := Catalog.retry_as_fresh hCompiled paymentPlan_stepless
    paymentPlan_steady ⟨"Payment", amounts⟩ _ answers "1" "3" "2" none none rfl hFailure
  obtain ⟨final, hFresh⟩ : ∃ final, fresh.result = .ok final := ⟨_, rfl⟩
  refine ⟨failure, hFailure, hPayee, hOutward, ?_⟩
  rcases hResults with hCompleted | ⟨a, b, hA, -⟩
  · exact hCompleted
  · cases hFresh.symm.trans hA

end Sample
end FormFlow
