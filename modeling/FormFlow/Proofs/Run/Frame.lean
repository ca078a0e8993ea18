import FormFlow.Proofs.Run.Nested
import FormFlow.Proofs.Types.Runs
/-!
# What a run touches

In a plan without steps each operation assigns its own member and no other one.
So a run changes an instance only by assigning the members that are asked for,
and the same holds of the object of each nested form. A form that fails does so
at one of its operations: the members before it hold what was assigned to them,
those behind it what they held at first. So does its own if it is a prompt or
nests a form that cannot be entered. A form that was entered has failed in the
same way, and its member holds the object as far as it got.
-/
namespace FormFlow

section Specification

inductive Instance.Overwritten (names : List String) (i : Instance) : Instance → Prop
  | refl : Overwritten names i i
  | set {j : Instance} {name : String} (value : Json) (h : name ∈ names)
      (before : Overwritten names i j) : Overwritten names i (j.set name value)

/-- The instances have the same fields but for members of the given names. -/
def Instance.SameOutside (names : List String) (i j : Instance) : Prop :=
  ∀ name, name ∉ names → j.get? name = i.get? name

mutual
/-- The instances are related, given the members of the operations, and so are the objects that nested
forms hold in them. -/
inductive Operation.Alters (R : List String → Instance → Instance → Prop) :
    List Operation → Instance → Instance → Prop
  | intro {ops : List Operation} {before after : Instance}
      (form : R (ops.map Operation.member) before after)
      (held : ∀ member plan, .recurse member plan ∈ ops →
        PlanOf.AltersHeld R plan (before.get? member) (after.get? member)) :
      Operation.Alters R ops before after

/-- The value of a nested form is the same, or the form was entered and its object is related to the
instance that the form starts on. -/
inductive PlanOf.AltersHeld (R : List String → Instance → Instance → Prop) :
    Plan → Option Json → Option Json → Prop
  | same (plan : Plan) (held : Option Json) : PlanOf.AltersHeld R plan held held
  | entered {plan : Plan} {before : Option Json} {start final : Instance}
      (starts : plan.heldInstance? before = some start)
      (form : Operation.Alters R plan.operations start final) :
      PlanOf.AltersHeld R plan before (some final.toValue)
end

def Operation.isPrompt : Operation → Bool
  | .askText .. | .askSelect .. => true
  | .runStep .. | .recurse .. => false

/-- A run of the operations of a form, of the root form or of one nested in it. -/
structure FormRun where
  operations : List Operation
  scope : Scope
  start : Instance
  surface : Surface

namespace FormRun

/-- The run of the first operations. -/
def reach (r : FormRun) (before : List Operation) : Trail :=
  Operation.runAll before r.scope r.start r.surface

/-- The run of an operation on what those before it leave. -/
def step (r : FormRun) (before : List Operation) (op : Operation) : Trail :=
  op.run r.scope (r.reach before).inst (r.reach before).surface

/-- The run of a nested form on what the operations before it leave. -/
def nested (r : FormRun) (before : List Operation) (member : String) (plan : Plan)
    (start : Instance) : FormRun :=
  ⟨plan.operations, r.scope.enter (joinPath r.scope.path member) plan.culture, start,
    (r.reach before).surface⟩

/-- The members before an operation hold the values that were assigned to them, and those behind it
what they held at first. -/
structure Around (r : FormRun) (before after : List Operation) (final : Instance) : Prop where
  earlier : ∀ first op rest, before = first ++ op :: rest → (r.step first op).halt = none ∧
    ∃ value, (r.step first op).inst = (r.reach first).inst.set op.member value ∧
      final.get? op.member = some value
  later : ∀ op ∈ after, final.get? op.member = r.start.get? op.member

/-- The form fails at one of its operations, and leaves the others as it should. A prompt and a nested
form that cannot be entered leave their members alone, and a form that was entered fails in this way. -/
inductive Fails (error : ExecutionError) : FormRun → Instance → Prop
  | prompt {r : FormRun} {before after : List Operation} {op : Operation} {final : Instance}
      (place : r.operations = before ++ op :: after)
      (failed : (r.step before op).halt = some (.failed error))
      (around : r.Around before after final)
      (asks : op.isPrompt = true)
      (same : final.get? op.member = r.start.get? op.member) : Fails error r final
  | refused {r : FormRun} {before after : List Operation} {member : String} {plan : Plan}
      {final : Instance}
      (place : r.operations = before ++ .recurse member plan :: after)
      (failed : (r.step before (.recurse member plan)).halt = some (.failed error))
      (around : r.Around before after final)
      (refusal : plan.nestedInstance (joinPath r.scope.path member) (r.start.get? member) =
        .error error)
      (same : final.get? member = r.start.get? member) : Fails error r final
  | entered {r : FormRun} {before after : List Operation} {member : String} {plan : Plan}
      {start reached final : Instance}
      (place : r.operations = before ++ .recurse member plan :: after)
      (failed : (r.step before (.recurse member plan)).halt = some (.failed error))
      (around : r.Around before after final)
      (starts : plan.heldInstance? (r.start.get? member) = some start)
      (stored : final.get? member = some reached.toValue)
      (form : Fails error (r.nested before member plan start) reached) : Fails error r final

end FormRun

def PlanOf.formRun (plan : Plan) (runId : String) (culture : Option String) (inst : Instance)
    (surface : Surface) : FormRun :=
  ⟨plan.operations, ⟨runId, "", plan.culture <|> culture⟩, inst, surface⟩

/-- In the plan and in each one nested in it, no operation is a step and all have members of their
own. -/
def PlanOf.Orderly (plan : Plan) : Prop := ∀ q, plan.Holds q →
  (q.operations.map Operation.member).Nodup ∧ ∀ op ∈ q.operations, op.isStep = false

def Operation.Orderly (op : Operation) : Prop :=
  op.isStep = false ∧ ∀ member inner, op = .recurse member inner → inner.Orderly

end Specification

theorem PlanOf.orderly_of_compile {c : Catalog} {limit : Nat} {t : String} {plan : Plan}
    (hCompiled : (c.compile limit t).result = .ok plan) (hStepless : plan.Stepless) :
    plan.Orderly := by
  intro q hHolds
  obtain ⟨d, nested, -, hPlan⟩ := Catalog.isPlan_of_compile hCompiled q hHolds
  exact ⟨hPlan.distinctMembers, hStepless q hHolds⟩

theorem PlanOf.Orderly.operations {plan : Plan} (h : plan.Orderly) :
    (plan.operations.map Operation.member).Nodup ∧ ∀ op ∈ plan.operations, op.Orderly := by
  obtain ⟨hNodup, hOperations⟩ := h plan (.self plan)
  exact ⟨hNodup, fun op hOp => ⟨hOperations op hOp, PlanOf.forall_holds_nested h hOp⟩⟩

namespace Instance.Overwritten
variable {names : List String} {i j k : Instance}

theorem of_set {name : String} (value : Json) (h : name ∈ names) :
    Overwritten names i (i.set name value) := .set value h .refl

theorem trans (hFirst : Overwritten names i j) (hLater : Overwritten names j k) :
    Overwritten names i k := by
  induction hLater with
  | refl => exact hFirst
  | set value h _ ih => exact .set value h ih

theorem mono {more : List String} (h : Overwritten names i j) (hSubset : names ⊆ more) :
    Overwritten more i j := by
  induction h with
  | refl => exact .refl
  | set value h _ ih => exact .set value (hSubset h) ih

theorem sameOutside (h : Overwritten names i j) : SameOutside names i j := by
  intro name hName
  induction h with
  | refl => rfl
  | @set j' other value hOther _ ih =>
    have hNe : name ≠ other := fun hEq => hName (hEq ▸ hOther)
    rw [get?_set_of_ne _ _ hNe, ih]

theorem typeName_eq (h : Overwritten names i j) : j.typeName = i.typeName := by
  induction h with
  | refl => rfl
  | set value _ _ ih => exact ih

end Instance.Overwritten

section Relations
variable {R R' : List String → Instance → Instance → Prop}

mutual
theorem Operation.Alters.imp (h : ∀ names i j, R names i j → R' names i j) {ops : List Operation}
    {before after : Instance} : Operation.Alters R ops before after →
      Operation.Alters R' ops before after
  | .intro form held => .intro (h _ _ _ form) fun member plan hOp => (held member plan hOp).imp h

theorem PlanOf.AltersHeld.imp (h : ∀ names i j, R names i j → R' names i j) {plan : Plan}
    {before after : Option Json} : plan.AltersHeld R before after → plan.AltersHeld R' before after
  | .same plan held => .same plan held
  | .entered starts form => .entered starts (form.imp h)
end

theorem Operation.Alters.form {ops : List Operation} {before after : Instance}
    (h : Operation.Alters R ops before after) : R (ops.map Operation.member) before after := by
  cases h with
  | intro form held => exact form

theorem Operation.Alters.held {ops : List Operation} {before after : Instance}
    (h : Operation.Alters R ops before after) {member : String} {plan : Plan}
    (hOp : .recurse member plan ∈ ops) :
    plan.AltersHeld R (before.get? member) (after.get? member) := by
  cases h with
  | intro form held => exact held member plan hOp

end Relations

theorem PlanOf.heldInstance_of_nestedInstance {plan : Plan} {path : String} {held : Option Json}
    {child : Instance} (h : plan.nestedInstance path held = .ok child) :
    plan.heldInstance? held = some child := by
  cases hHeld : plan.heldInstance? held with
  | none =>
    obtain ⟨error, hError⟩ := nestedInstance_of_not_held hHeld path
    cases hError.symm.trans h
  | some other =>
    cases (nestedInstance_of_held hHeld path).symm.trans h
    rfl

theorem Trail.nest_inst {inner : Trail} {member : String} {inst : Instance} :
    (inner.nest member inst).inst = inst ∨
      (inner.nest member inst).inst = inst.set member inner.inst.toValue := by
  unfold nest
  split
  · exact .inr rfl
  · exact .inr rfl
  · exact .inl rfl

namespace Trail.OfPrompt
variable {path member : String} {inst : Instance} {t : Trail}

theorem overwritten (h : t.OfPrompt path member inst) :
    Instance.Overwritten [member] inst t.inst := by
  cases h with
  | assigned events surface value => exact .of_set value (List.mem_singleton_self _)
  | failed events surface error atPath notCancelled => exact .refl
  | interrupted events surface noticed => exact .refl

theorem inst_of_failed (h : t.OfPrompt path member inst) {error : ExecutionError}
    (hHalt : t.halt = some (.failed error)) : t.inst = inst := by
  cases h with
  | assigned events surface value => cases hHalt
  | failed events surface error atPath notCancelled => rfl
  | interrupted events surface noticed => cases hHalt

theorem inst_of_finished (h : t.OfPrompt path member inst) (hHalt : t.halt = none) :
    ∃ value, t.inst = inst.set member value := by
  cases h with
  | assigned events surface value => exact ⟨value, rfl⟩
  | failed events surface error atPath notCancelled => cases hHalt
  | interrupted events surface noticed => cases hHalt

end Trail.OfPrompt

namespace Operation
variable {op : Operation} {scope : Scope} {inst : Instance} {surface : Surface}

theorem run_finished_set (hStep : op.isStep = false)
    (hHalt : (op.run scope inst surface).halt = none) :
    ∃ value, (op.run scope inst surface).inst = inst.set op.member value := by
  cases op with
  | recurse member plan =>
    cases hChild : plan.nestedInstance (joinPath scope.path member) (inst.get? member) with
    | error error =>
      rw [run_recurse_error hChild] at hHalt
      cases hHalt
    | ok child =>
      rw [run_recurse_ok hChild] at hHalt ⊢
      exact ⟨_, (Trail.nest_finished hHalt).2⟩
  | _ => exact (work_ofPrompt hStep rfl scope inst surface).inst_of_finished hHalt

theorem alters_refl (ops : List Operation) (inst : Instance) :
    Alters Instance.Overwritten ops inst inst :=
  .intro .refl fun _ plan _ => .same plan _

theorem Alters.cons {rest : List Operation} {i j k : Instance} (hNew : op.member ∉ rest.map member)
    (hFirst : Alters Instance.Overwritten [op] i j) (hLater : Alters Instance.Overwritten rest j k) :
    Alters Instance.Overwritten (op :: rest) i k := by
  refine .intro ?_ fun name plan hOp => ?_
  · have hHead : [op.member] ⊆ (op :: rest).map member := by simp
    have hTail : rest.map member ⊆ (op :: rest).map member := List.subset_cons_self _ _
    exact (hFirst.form.mono hHead).trans (hLater.form.mono hTail)
  · rcases List.mem_cons.mp hOp with rfl | hIn
    · have hKept : k.get? name = j.get? name := hLater.form.sameOutside name hNew
      rw [hKept]
      exact hFirst.held (List.mem_singleton_self _)
    · have hOther : name ∉ [op.member] := by
        rintro hEq
        rw [List.mem_singleton] at hEq
        exact hNew (hEq ▸ List.mem_map_of_mem hIn)
      have hKept : j.get? name = i.get? name := hFirst.form.sameOutside name hOther
      rw [← hKept]
      exact hLater.held hIn

theorem run_alters :
    (∀ (op : Operation) (scope : Scope) (inst : Instance) (surface : Surface), op.Orderly →
      Alters Instance.Overwritten [op] inst (op.run scope inst surface).inst) ∧
    ∀ (ops : List Operation) (scope : Scope) (inst : Instance) (surface : Surface),
      (ops.map member).Nodup → (∀ op ∈ ops, op.Orderly) →
        Alters Instance.Overwritten ops inst (runAll ops scope inst surface).inst := by
  apply run_induction
  case work =>
    intro op scope inst surface hWork hOrderly
    have hPrompt := work_ofPrompt hOrderly.1 hWork scope inst surface
    refine .intro hPrompt.overwritten fun member plan hOp => ?_
    rw [List.mem_singleton] at hOp
    subst hOp
    cases hWork
  case refused =>
    intro member plan scope inst surface error hChild _
    rw [run_recurse_error hChild]
    exact alters_refl _ inst
  case nested =>
    intro member plan scope inst surface child hChild ih hOrderly
    obtain ⟨hNodup, hNested⟩ := (hOrderly.2 member plan rfl).operations
    rw [run_recurse_ok hChild]
    rcases Trail.nest_inst with hInst | hInst
    · rw [hInst]
      exact alters_refl _ inst
    · rw [hInst]
      refine .intro (.of_set _ (List.mem_singleton_self _)) fun name plan' hOp => ?_
      cases List.mem_singleton.mp hOp
      rw [Instance.get?_set_self]
      exact .entered (PlanOf.heldInstance_of_nestedInstance hChild) (ih hNodup hNested)
  case finished =>
    intro scope inst surface _ _
    rw [runAll_nil]
    exact alters_refl [] inst
  case cancelled =>
    intro op rest scope inst surface hCancelled _ _
    rw [runAll_cancelled hCancelled]
    exact alters_refl _ inst
  case halted =>
    intro op rest scope inst surface halt hCancelled hHalt ih hNodup hOrderly
    rw [runAll_halted hCancelled hHalt]
    exact .cons (List.nodup_cons.mp hNodup).1 (ih (hOrderly op List.mem_cons_self))
      (alters_refl rest _)
  case continued =>
    intro op rest scope inst surface hCancelled hHalt ih ihRest hNodup hOrderly
    obtain ⟨hNew, hNodup⟩ := List.nodup_cons.mp hNodup
    obtain ⟨hFirst, hRest⟩ := List.forall_mem_cons.mp hOrderly
    rw [runAll_continued hCancelled hHalt]
    exact .cons hNew (ih hFirst) (ihRest hNodup hRest)

end Operation

section Failures

theorem FormRun.reach_finished {r : FormRun} {first rest : List Operation} {op : Operation}
    (h : (r.reach (first ++ op :: rest)).halt = none) :
    (r.step first op).halt = none ∧ (r.reach (first ++ op :: rest)).inst =
      (Operation.runAll rest r.scope (r.step first op).inst (r.step first op).surface).inst := by
  cases hFirst : (r.reach first).halt with
  | some halt =>
    simp only [reach] at h hFirst
    rw [Operation.runAll_append_halted hFirst, hFirst] at h
    cases h
  | none =>
    simp only [reach] at h hFirst ⊢
    rw [Operation.runAll_append_finished hFirst] at h ⊢
    obtain ⟨hDone, later, rfl, -, hInst⟩ := Operation.runAll_completed h
    exact ⟨hDone, hInst⟩

section Place
variable {r : FormRun} (hNodup : (r.operations.map Operation.member).Nodup)
  (hSteps : ∀ op ∈ r.operations, op.isStep = false)
include hNodup hSteps

theorem FormRun.reach_get? {before behind : List Operation} (hPlace : r.operations = before ++ behind)
    {op : Operation} (hOp : op ∈ behind) :
    (r.reach before).inst.get? op.member = r.start.get? op.member := by
  rw [hPlace] at hNodup hSteps
  rw [List.map_append, List.nodup_append] at hNodup
  refine Operation.runAll_get?_of_ne (List.forall_mem_append.mp hSteps).1 (fun o ho => ?_) _ _
  exact hNodup.2.2 _ (List.mem_map_of_mem ho) _ (List.mem_map_of_mem hOp)

theorem FormRun.around {before after : List Operation} {op : Operation}
    (hPlace : r.operations = before ++ op :: after) (hReached : (r.reach before).halt = none) :
    r.Around before after (r.step before op).inst := by
  have hReach : ∀ o ∈ after, (r.reach before).inst.get? o.member = r.start.get? o.member :=
    fun o ho => reach_get? hNodup hSteps hPlace (List.mem_cons_of_mem op ho)
  rw [hPlace] at hNodup hSteps
  obtain ⟨hStepsBefore, hStepsBehind⟩ := List.forall_mem_append.mp hSteps
  have hStep := hStepsBehind op List.mem_cons_self
  rw [List.map_append, List.map_cons, List.nodup_append, List.nodup_cons] at hNodup
  obtain ⟨hBefore, ⟨hNew, -⟩, hApart⟩ := hNodup
  refine ⟨?_, fun o ho => ?_⟩
  · rintro first o rest rfl
    obtain ⟨hDone, hInst⟩ := reach_finished hReached
    obtain ⟨hStepO, hStepsRest⟩ := List.forall_mem_cons.mp (List.forall_mem_append.mp hStepsBefore).2
    obtain ⟨value, hValue⟩ := Operation.run_finished_set hStepO hDone
    have hOwn : o.member ≠ op.member :=
      hApart _ (List.mem_map_of_mem (by simp)) _ List.mem_cons_self
    have hOthers : ∀ p ∈ rest, p.member ≠ o.member := by
      rw [List.map_append, List.map_cons, List.nodup_append, List.nodup_cons] at hBefore
      intro p hp hEq
      exact hBefore.2.1.1 (hEq ▸ List.mem_map_of_mem hp)
    refine ⟨hDone, value, hValue, ?_⟩
    calc (r.step (first ++ o :: rest) op).inst.get? o.member
      _ = (r.reach (first ++ o :: rest)).inst.get? o.member := Operation.run_get?_of_ne hStep hOwn
      _ = (r.step first o).inst.get? o.member := by
        rw [hInst, Operation.runAll_get?_of_ne hStepsRest hOthers]
      _ = some value := by
        rw [step, hValue, Instance.get?_set_self]
  · have hNe : o.member ≠ op.member := fun hEq => hNew (hEq ▸ List.mem_map_of_mem ho)
    calc (r.step before op).inst.get? o.member
      _ = (r.reach before).inst.get? o.member := Operation.run_get?_of_ne hStep hNe
      _ = r.start.get? o.member := hReach o ho

end Place

theorem FormRun.exists_failed {r : FormRun} {error : ExecutionError}
    (hCalm : (r.reach r.operations).surface.cancelled = false)
    (hHalt : (r.reach r.operations).halt = some (.failed error)) :
    ∃ before op after, r.operations = before ++ op :: after ∧ (r.reach before).halt = none ∧
      (r.step before op).halt = some (.failed error) ∧
        (r.step before op).surface.cancelled = false ∧
          (r.reach r.operations).inst = (r.step before op).inst := by
  obtain ⟨before, op, after, hPlace, _, rfl, hReached, hFailed, hInst, hSurface⟩ :=
    Operation.runAll_failed hCalm hHalt
  exact ⟨before, op, after, hPlace, hReached, hFailed, hSurface ▸ hCalm, hInst⟩

theorem FormRun.fails {plan : Plan} (hOrderly : plan.Orderly) {r : FormRun} {error : ExecutionError}
    (hForm : r.operations = plan.operations)
    (hCalm : (r.reach r.operations).surface.cancelled = false)
    (hHalt : (r.reach r.operations).halt = some (.failed error)) :
    r.Fails error (r.reach r.operations).inst := by
  induction plan using Operation.plan_induction generalizing r with
  | step plan ih =>
    obtain ⟨hNodup, hOperations⟩ := hOrderly.operations
    rw [← hForm] at hNodup hOperations ih
    have hSteps : ∀ op ∈ r.operations, op.isStep = false := fun op hOp => (hOperations op hOp).1
    obtain ⟨before, op, after, hPlace, hReached, hFailed, hCalm, hInst⟩ := exists_failed hCalm hHalt
    have hAround := around hNodup hSteps hPlace hReached
    have hStart := reach_get? hNodup hSteps hPlace List.mem_cons_self
    have hMem : op ∈ r.operations := by
      rw [hPlace]
      exact List.mem_append_right before List.mem_cons_self
    rw [hInst]
    cases op with
    | recurse member inner =>
      cases hChild : inner.nestedInstance (joinPath r.scope.path member)
          ((r.reach before).inst.get? member) with
      | error refusal =>
        have hStep : r.step before (.recurse member inner) =
            .fail [] (r.reach before).surface (r.reach before).inst refusal :=
          Operation.run_recurse_error hChild
        obtain rfl : refusal = error := by
          rw [hStep] at hFailed
          cases hFailed
          rfl
        have hRefusal : inner.nestedInstance (joinPath r.scope.path member) (r.start.get? member) =
            .error refusal := hStart ▸ hChild
        refine .refused hPlace hFailed hAround hRefusal ?_
        rw [hStep]
        exact hStart
      | ok start =>
        let form := r.nested before member inner start
        have hStep : r.step before (.recurse member inner) =
            (form.reach form.operations).nest member (r.reach before).inst :=
          Operation.run_recurse_ok hChild
        rw [hStep, Trail.nest_surface] at hCalm
        have hEnd : (form.reach form.operations).halt = some (.failed error) := by
          rw [hStep] at hFailed
          exact Trail.nest_failed.mp hFailed
        have hGoesOn : ∀ pending, (form.reach form.operations).halt ≠ some (.interrupted pending) := by
          rw [hEnd]
          rintro pending ⟨⟩
        have hStored : (r.step before (.recurse member inner)).inst.get? member =
            some (form.reach form.operations).inst.toValue := by
          rw [hStep, (Trail.nest_of_not_interrupted hGoesOn member _).1, Instance.get?_set_self]
        have hStarts : inner.heldInstance? (r.start.get? member) = some start :=
          hStart ▸ PlanOf.heldInstance_of_nestedInstance hChild
        have hInner : inner.Orderly := (hOperations _ hMem).2 member inner rfl
        exact .entered hPlace hFailed hAround hStarts hStored (ih member inner hMem hInner rfl hCalm hEnd)
    | runStep => cases hSteps _ hMem
    | _ =>
      refine .prompt hPlace hFailed hAround rfl ?_
      have hPrompt := Operation.work_ofPrompt (hSteps _ hMem) rfl r.scope (r.reach before).inst
        (r.reach before).surface
      rw [step, hPrompt.inst_of_failed hFailed]
      exact hStart

/-- A run of a compiled plan without steps that is not cancelled changes the members that are asked for
and nothing else, at any depth. If it fails at an operation of a form, the members asked for before
hold what was assigned to them and those behind what they held at first. So does the failing one,
unless it nests a form that was entered; what that form got to is kept then, and is of this kind. -/
theorem Catalog.run_alters_prompted {c : Catalog} {limit : Nat} {t : String} {plan : Plan}
    (hCompiled : (c.compile limit t).result = .ok plan) (hStepless : plan.Stepless) (runId : String)
    (culture : Option String) (inst : Instance) (surface : Surface)
    (hCalm : (plan.run runId culture inst surface).surface.cancelled = false) :
    let ran := plan.run runId culture inst surface
    Operation.Alters Instance.SameOutside plan.operations inst ran.reached ∧
      ∀ failure, ran.result = .error failure →
        (plan.formRun runId culture inst surface).Fails failure.error failure.reached := by
  intro ran
  have hOrderly := PlanOf.orderly_of_compile hCompiled hStepless
  obtain ⟨hNodup, hOperations⟩ := hOrderly.operations
  obtain ⟨hReached, hHalt⟩ := PlanOf.run_of_not_interrupted (PlanOf.not_interrupted hCalm)
  constructor
  · have hAlters := Operation.run_alters.2 plan.operations ⟨runId, "", plan.culture <|> culture⟩ inst
      surface hNodup hOperations
    have hSame := hAlters.imp fun names i j => Instance.Overwritten.sameOutside
    exact hReached ▸ hSame
  · intro failure hFailure
    have hFailure : (plan.run runId culture inst surface).result = .error failure := hFailure
    rw [hFailure] at hHalt
    have hInst : failure.reached = (plan.trail runId culture inst surface).inst := by
      rw [← hReached, RunResult.reached, hFailure]
    rw [PlanOf.run_surface] at hCalm
    rw [hInst]
    exact FormRun.fails (r := plan.formRun runId culture inst surface) hOrderly rfl hCalm hHalt

end Failures

namespace Sample

def deliveries : Catalog :=
  let line (name : String) (type : FieldType) : MemberDeclaration :=
    { name, shape := .property type, tags := [.textPrompt {}] }
  .ofDeclarations [
    { name := "Delivery"
      members := [line "note" .text,
        { name := "parcel", shape := .property (.form "Parcel"), tags := [.nestedForm] },
        line "remark" .text] },
    { name := "Parcel", members := [line "weight" .integer, line "label" .text] }]

def parcelPlan : Plan :=
  ⟨"Parcel", none, .default, [], [
    .askText "weight" "weight" .integer false {} none, .askText "label" "label" .text false {} none]⟩

def deliveryPlan : Plan :=
  ⟨"Delivery", none, .default, [], [
    .askText "note" "note" .text false {} none, .recurse "parcel" parcelPlan,
    .askText "remark" "remark" .text false {} none]⟩

/-- A delivery that was filled in before, with a color of the parcel that is not asked for. -/
def delivery : Instance :=
  ⟨"Delivery", [("note", .str "Knock"), ("parcel", .obj [("color", .str "red"), ("label", .str "A7")]),
    ("remark", .str "None"), ("sender", .str "Ada")]⟩

def weighed : Instance :=
  ⟨"Delivery", [("note", .str "Ring twice"),
    ("parcel", .obj [("color", .str "red"), ("label", .str "A7"), ("weight", .int 12)]),
    ("remark", .str "None"), ("sender", .str "Ada")]⟩

def noteAndWeight : Surface := ⟨[text "Ring twice", text " 12 "], .io "no more answers", false⟩

theorem deliveryPlan_stepless : deliveryPlan.Stepless := by
  have hParcel : ∀ q, parcelPlan.Holds q → ∀ op ∈ q.operations, op.isStep = false := by
    rw [PlanOf.forall_holds_iff]
    simp [parcelPlan, Operation.isStep]
  rw [PlanOf.Stepless, PlanOf.forall_holds_iff]
  refine ⟨by simp [deliveryPlan, Operation.isStep], fun member inner hOp => ?_⟩
  obtain ⟨-, rfl⟩ : member = "parcel" ∧ inner = parcelPlan := by simpa [deliveryPlan] using hOp
  exact hParcel

theorem delivery_reweighed :
    let ran := deliveryPlan.run "1" none delivery noteAndWeight
    Operation.Alters Instance.SameOutside deliveryPlan.operations delivery ran.reached ∧
      ∃ failure, ran.result = .error failure ∧ failure.error.path = "parcel.label" ∧
        failure.reached = weighed ∧
        (deliveryPlan.formRun "1" none delivery noteAndWeight).Fails failure.error failure.reached := by
  intro ran
  have hCompiled : (deliveries.compile 16 "Delivery").result = .ok deliveryPlan := by cbv
  obtain ⟨hAlters, hFails⟩ := Catalog.run_alters_prompted hCompiled deliveryPlan_stepless "1" none
    delivery noteAndWeight rfl
  obtain ⟨failure, hFailure, hPath, hReached⟩ : ∃ failure, ran.result = .error failure ∧
      failure.error.path = "parcel.label" ∧ failure.reached = weighed := ⟨_, rfl, rfl, rfl⟩
  exact ⟨hAlters, failure, hFailure, hPath, hReached, hFails failure hFailure⟩

end Sample
end FormFlow
