import FormFlow.Proofs.Compilation.WellFormed
import FormFlow.Proofs.Run.Selection
/-!
# Runs of well-formed plans

A plan that comes from a catalog asks for texts as scalars only, so no answer is
refused because of the type that it is read as. And since the operations of a
form have members of their own, no prompt and no nested form overwrites what an
operation before it has assigned: only a step can do that.
-/
namespace FormFlow

section Specification

/-- What the work ends in if it is resumed whenever it has suspended. -/
def Progress.ending? {σ ρ : Type} : Progress σ ρ → Option ρ
  | .finished _ _ result => some result
  | .suspended _ _ next => next.ending?
  | .stalled _ => none

/-- A request can get that error from the surface itself. -/
inductive Surface.Brings (s : Surface) (cause : PromptError) : Prop
  | exhausted (runsOut : s.exhausted = cause)
  | answered {answer : Answer} {reply : Reply} (listed : answer ∈ s.answers)
      (ends : answer.ending? = some reply)
      (refuses : reply.text = .error cause ∨ reply.selection = .error cause)

/-- An operation that is refused an answer as an invalid input is so by the surface, or the answer
cannot be read as a value of a scalar type. -/
structure Trail.Honest (t : Trail) (surface : Surface) : Prop where
  brings : ∀ cause, t.surface.Brings cause → surface.Brings cause
  refused : ∀ path reason, t.halt = some (.failed (.prompt path (.invalidInput reason))) →
    surface.Brings (.invalidInput reason) ∨ ∃ type answer cause, type.isScalar = true ∧
      coerce type answer = .error cause ∧ reason = cause.message

def Operation.readsScalar : Operation → Bool
  | .askText _ _ type _ _ _ => type.isScalar
  | _ => true

def PlanOf.Readable (plan : Plan) : Prop :=
  ∀ q, plan.Holds q → ∀ op ∈ q.operations, op.readsScalar = true

def Operation.Readable (op : Operation) : Prop :=
  op.readsScalar = true ∧ ∀ member inner, op = .recurse member inner → inner.Readable

/-- What an operation of the form has assigned stays when a later one is a prompt or a nested form, and
is handed back if there are no others behind it. -/
structure FormRun.Preserves (r : FormRun) : Prop where
  later : ∀ before op between later after,
    r.operations = before ++ op :: (between ++ later :: after) → later.isStep = false →
      (r.reach (before ++ op :: (between ++ [later]))).inst.get? op.member =
        (r.reach (before ++ op :: between)).inst.get? op.member
  handedBack : ∀ before op after, r.operations = before ++ op :: after →
    (∀ other ∈ after, other.isStep = false) → (r.reach (before ++ [op])).halt = none →
      r.trail.kept.get? op.member = (r.reach (before ++ [op])).inst.get? op.member

end Specification

section Coercions
variable {type : FieldType} {answer : String} {cause : CoercionError}

theorem coerce_ne_notScalar (hScalar : type.isScalar = true) (other : FieldType) :
    coerce type answer ≠ .error (.notScalar other) := by
  cases type with
  | list element => cases hScalar
  | form name => cases hScalar
  | text => rintro ⟨⟩
  | integer =>
    simp only [coerce]
    split <;> rintro ⟨⟩
  | decimal =>
    simp only [coerce]
    repeat' split
    all_goals rintro ⟨⟩
  | boolean =>
    simp only [coerce]
    split <;> rintro ⟨⟩

theorem message_ne_notScalar (h : ∀ other, cause ≠ .notScalar other) (other : FieldType) :
    cause.message ≠ (CoercionError.notScalar other).message := by
  intro hSame
  have hHead := congrArg (fun s => s.toList.head?) hSame
  cases cause with
  | notScalar type => exact h type rfl
  | _ => simp [CoercionError.message, String.toList_append, toString] at hHead

end Coercions

section Surfaces
variable {s : Surface} {cause : PromptError} {reply : Reply}

theorem Progress.ending?_of_settle {σ ρ : Type} {work : Progress σ ρ} {result : ρ} :
    ∀ {cancelled : Bool}, (work.settle cancelled).result = some result →
      work.ending? = some result := by
  induction work with
  | finished cancels state result => exact fun h => h
  | stalled state =>
    intro cancelled h
    cases h
  | suspended cancels state next ih =>
    intro cancelled h
    simp only [settle] at h
    split at h
    · cases h
    · exact ih h

theorem Surface.brings_of_await {later : Surface} (hAwait : s.await = (some reply, later))
    (hRefuses : reply.text = .error cause ∨ reply.selection = .error cause) : s.Brings cause := by
  obtain ⟨answers, exhausted, cancelled⟩ := s
  have hSettled := congrArg Prod.fst hAwait
  cases answers with
  | nil =>
    obtain rfl : (⟨.error exhausted, .error exhausted⟩ : Reply) = reply := Option.some.inj hSettled
    rcases hRefuses with hText | hSelection
    · exact .exhausted (Except.error.inj hText)
    · exact .exhausted (Except.error.inj hSelection)
  | cons answer rest =>
    exact .answered List.mem_cons_self (Progress.ending?_of_settle hSettled) hRefuses

theorem Surface.Brings.of_await (h : s.await.2.Brings cause) : s.Brings cause := by
  obtain ⟨answers, exhausted, cancelled⟩ := s
  cases answers with
  | nil =>
    cases h with
    | exhausted runsOut => exact .exhausted runsOut
    | answered listed => cases listed
  | cons answer rest =>
    cases h with
    | exhausted runsOut => exact .exhausted runsOut
    | answered listed ends refuses => exact .answered (List.mem_cons_of_mem _ listed) ends refuses

end Surfaces

section Readings

namespace Trail.Honest
variable {surface later : Surface} {inst : Instance} {events : List Event}
  (hBrings : ∀ cause, later.Brings cause → surface.Brings cause)
include hBrings

theorem done : (Trail.done events later inst).Honest surface := by
  refine ⟨hBrings, ?_⟩
  rintro path reason ⟨⟩

theorem interrupt {pending : Pending} :
    (Trail.interrupt events later inst pending).Honest surface := by
  refine ⟨hBrings, ?_⟩
  rintro path reason ⟨⟩

theorem fail {error : ExecutionError} (h : ∀ path reason, error ≠ .prompt path (.invalidInput reason)) :
    (Trail.fail events later inst error).Honest surface := by
  refine ⟨hBrings, ?_⟩
  rintro path reason ⟨⟩
  exact absurd rfl (h path reason)

end Trail.Honest

namespace Scope
variable {scope : Scope} {inst : Instance} {surface : Surface} {member title : String}
  {type : FieldType} {secret : Bool} {search : SearchOptions} {culture : Option String}

theorem askText_honest (hScalar : type.isScalar = true) :
    (scope.askText inst surface member title type secret search culture).Honest surface := by
  simp only [askText]
  split
  · rename_i later hAwait
    exact .interrupt fun cause h => .of_await (hAwait ▸ h)
  · rename_i reply later hAwait
    have hBrings : ∀ cause, later.Brings cause → surface.Brings cause :=
      fun cause h => .of_await (hAwait ▸ h)
    split
    · rename_i cause hText
      refine ⟨hBrings, fun path reason hHalt => .inl ?_⟩
      cases hHalt
      exact Surface.brings_of_await hAwait (.inl hText)
    · rename_i answer hText
      split
      · rename_i cause hCoerced
        refine ⟨hBrings, fun path reason hHalt => .inr ?_⟩
        cases hHalt
        exact ⟨type, answer, cause, hScalar, hCoerced, rfl⟩
      · exact .done hBrings

theorem askSelect_honest {source : Source} {converter : Option Converter} :
    (scope.askSelect inst surface member title source converter search culture).Honest surface := by
  simp only [askSelect]
  split
  · apply Trail.Honest.fail fun cause h => h
    rintro path reason ⟨⟩
  · apply Trail.Honest.fail fun cause h => h
    rintro path reason ⟨⟩
  · split
    · rename_i later hAwait
      exact .interrupt fun cause h => .of_await (hAwait ▸ h)
    · rename_i reply later hAwait
      have hBrings : ∀ cause, later.Brings cause → surface.Brings cause :=
        fun cause h => .of_await (hAwait ▸ h)
      split
      · rename_i cause hSelection
        refine ⟨hBrings, fun path reason hHalt => .inl ?_⟩
        cases hHalt
        exact Surface.brings_of_await hAwait (.inr hSelection)
      · split
        · exact .done hBrings
        · apply Trail.Honest.fail hBrings
          rintro path reason ⟨⟩

theorem runStep_honest {status : StepOptions} {body : StepBody} :
    (scope.runStep inst surface member status body).Honest surface := by
  have hSame : ∀ cancelled cause, ({ surface with cancelled } : Surface).Brings cause →
      surface.Brings cause := by
    intro cancelled cause h
    cases h with
    | exhausted runsOut => exact .exhausted runsOut
    | answered listed ends refuses => exact .answered listed ends refuses
  cases body with
  | sync run =>
    simp only [runStep]
    split
    · exact .done (hSame _)
    · apply Trail.Honest.fail (hSame _)
      rintro path reason ⟨⟩
  | async run =>
    simp only [runStep]
    split
    · exact .interrupt (hSame _)
    · exact .done (hSame _)
    · apply Trail.Honest.fail (hSame _)
      rintro path reason ⟨⟩

end Scope

theorem PlanOf.Readable.operations {plan : Plan} (h : plan.Readable) :
    ∀ op ∈ plan.operations, op.Readable :=
  fun op hOp => ⟨h plan (.self plan) op hOp, PlanOf.forall_holds_nested h hOp⟩

/-- Along a run the surface only loses answers, so what it brings in the end it brought at first. -/
theorem Operation.run_honest :
    (∀ (op : Operation) (scope : Scope) (inst : Instance) (surface : Surface), op.Readable →
      (op.run scope inst surface).Honest surface) ∧
    ∀ (ops : List Operation) (scope : Scope) (inst : Instance) (surface : Surface),
      (∀ op ∈ ops, op.Readable) → (runAll ops scope inst surface).Honest surface := by
  apply run_induction
  case work =>
    intro op scope inst surface hWork hReadable
    cases op with
    | askText member title type secret search culture =>
      simp only [run]
      exact Scope.askText_honest hReadable.1
    | askSelect member title source converter search culture =>
      simp only [run]
      exact Scope.askSelect_honest
    | runStep member isAsync status body =>
      simp only [run]
      exact Scope.runStep_honest
    | recurse member plan => cases hWork
  case refused =>
    intro member plan scope inst surface error hChild _
    rw [run_recurse_error hChild]
    apply Trail.Honest.fail fun cause h => h
    rintro path reason rfl
    simp only [PlanOf.nestedInstance] at hChild
    repeat' split at hChild
    all_goals cases hChild
  case nested =>
    intro member plan scope inst surface child hChild ih hReadable
    obtain ⟨hBrings, hRefused⟩ := ih (hReadable.2 member plan rfl).operations
    rw [run_recurse_ok hChild]
    refine ⟨fun cause h => hBrings cause ?_, fun path reason hHalt => hRefused path reason ?_⟩
    · rwa [Trail.nest_surface] at h
    · exact Trail.nest_failed.mp hHalt
  case finished =>
    intro scope inst surface _
    rw [runAll_nil]
    refine ⟨fun cause h => h, ?_⟩
    rintro path reason ⟨⟩
  case cancelled =>
    intro op rest scope inst surface hCancelled _
    rw [runAll_cancelled hCancelled]
    apply Trail.Honest.fail fun cause h => h
    rintro path reason ⟨⟩
  case halted =>
    intro op rest scope inst surface halt hCancelled hHalt ih hReadable
    rw [runAll_halted hCancelled hHalt]
    obtain ⟨hBrings, hRefused⟩ := ih (hReadable op List.mem_cons_self)
    exact ⟨hBrings, hRefused⟩
  case continued =>
    intro op rest scope inst surface hCancelled hHalt ih ihRest hReadable
    rw [runAll_continued hCancelled hHalt]
    have hFirst := ih (hReadable op List.mem_cons_self)
    have hRest := ihRest fun other hOther => hReadable other (List.mem_cons_of_mem op hOther)
    refine ⟨fun cause h => hFirst.brings cause (hRest.brings cause h), fun path reason hEnd => ?_⟩
    exact (hRest.refused path reason hEnd).imp_left (hFirst.brings _)

end Readings

section Assignments

theorem Pending.get?_keep_of_ne {pending : Pending} {name : String} (h : name ≠ pending.member)
    (inst : Instance) : (pending.keep inst).get? name = inst.get? name := by
  cases pending with
  | work member => rfl
  | form member child inner => exact inst.get?_set_of_ne _ h

namespace FormRun
variable {r : FormRun}

theorem reach_append_get? {first rest : List Operation} {name : String}
    (hSteps : ∀ op ∈ rest, op.isStep = false) (hOther : ∀ op ∈ rest, op.member ≠ name) :
    (r.reach (first ++ rest)).inst.get? name = (r.reach first).inst.get? name := by
  unfold reach
  cases hFirst : (Operation.runAll first r.scope r.start r.surface).halt with
  | some halt => rw [Operation.runAll_append_halted hFirst]
  | none =>
    rw [Operation.runAll_append_finished hFirst]
    exact Operation.runAll_get?_of_ne hSteps hOther _ _

theorem reach_append_kept {first rest : List Operation} {name : String}
    (hSteps : ∀ op ∈ rest, op.isStep = false) (hOther : ∀ op ∈ rest, op.member ≠ name)
    (hDone : (r.reach first).halt = none) :
    (r.reach (first ++ rest)).kept.get? name = (r.reach first).inst.get? name := by
  rw [← reach_append_get? hSteps hOther, Trail.kept]
  split
  · rename_i pending hHalt
    unfold reach at hDone hHalt
    rw [Operation.runAll_append_finished hDone] at hHalt
    obtain ⟨op, hOp, hMember⟩ := Operation.mem_of_interrupted hHalt
    exact Pending.get?_keep_of_ne (hMember ▸ (hOther op hOp).symm) _
  · rfl

theorem preserves_of_nodup (hNodup : (r.operations.map Operation.member).Nodup) : r.Preserves := by
  have hApart : ∀ {before op rest}, r.operations = before ++ op :: rest →
      ∀ other ∈ rest, other.member ≠ op.member := by
    intro before op rest hPlace other hOther hEq
    rw [hPlace, List.map_append, List.map_cons, List.nodup_append, List.nodup_cons] at hNodup
    exact hNodup.2.1.1 (hEq ▸ List.mem_map_of_mem hOther)
  constructor
  · intro before op between later after hPlace hStep
    have hSplit : before ++ op :: (between ++ [later]) = (before ++ op :: between) ++ [later] := by simp
    rw [hSplit]
    apply reach_append_get?
    · exact List.forall_mem_singleton.mpr hStep
    · exact List.forall_mem_singleton.mpr (hApart hPlace later (by simp))
  · intro before op after hPlace hSteps hDone
    have hSplit : r.operations = (before ++ [op]) ++ after := by simp [hPlace]
    rw [trail, hSplit]
    exact reach_append_kept hSteps (hApart hPlace) hDone

theorem Within.exists_held {plan : Plan} {root : FormRun} {names : List String}
    (h : root.Within names r) (hRoot : root.operations = plan.operations) :
    ∃ q, plan.Holds q ∧ r.operations = q.operations := by
  induction h with
  | root => exact ⟨plan, .self plan, hRoot⟩
  | @nested names r before after member inner start outer reached starts ih =>
    obtain ⟨q, hHolds, hForm⟩ := ih
    have hOp : .recurse member inner ∈ q.operations := by
      rw [← hForm, reached.place]
      exact List.mem_append_right _ List.mem_cons_self
    exact ⟨inner, hHolds.trans (.nested hOp (.self inner)), rfl⟩

end FormRun
end Assignments

theorem PlanOf.failed_of_result {plan : Plan} {runId : String} {culture : Option String}
    {inst : Instance} {surface : Surface} {failure : RunFailure}
    (h : (plan.run runId culture inst surface).result = .error failure)
    (hGoesOn : ∀ path, failure.error ≠ .cancelled path) :
    (plan.trail runId culture inst surface).halt = some (.failed failure.error) := by
  rw [run_result, Trail.failure?] at h
  cases hHalt : (plan.trail runId culture inst surface).halt with
  | none =>
    rw [hHalt] at h
    cases h
  | some halt =>
    rw [hHalt] at h
    cases halt with
    | failed error =>
      cases h
      rfl
    | interrupted pending =>
      cases h
      exact absurd rfl (hGoesOn _)

theorem Declaration.Supports.readsScalar {d : Declaration} {table : BindingTable} {model : Model}
    {bindings : ResolvedBindings} {op : Operation} (h : d.Supports table model bindings op) :
    op.readsScalar = true := by
  cases h with
  | text scalar => exact scalar
  | _ => rfl

/-- Every plan in the plan of a type is well formed. So no answer in any of its runs is refused because
of the type it is read as, and what a prompt or a nested form has assigned is not overwritten by
another one of its form. -/
theorem Catalog.compiled_well_formed {c : Catalog} {limit : Nat} {t : String} {plan : Plan}
    (hCompiled : (c.compile limit t).result = .ok plan) :
    (∀ q, plan.Holds q → q.WellFormed c) ∧
    ∀ runId culture inst surface,
      let root := plan.formRun runId culture inst surface
      let ran := plan.run runId culture inst surface
      (∀ failure path other, ran.result = .error failure →
        failure.error = .prompt path (.invalidInput (CoercionError.notScalar other).message) →
          surface.Brings (.invalidInput (CoercionError.notScalar other).message)) ∧
      (∀ names r, root.Within names r → r.Preserves ∧
        ∀ before member title type secret search own after,
          r.Reaches before (.askText member title type secret search own) after →
            ∀ answer other, coerce type answer ≠ .error (.notScalar other)) ∧
      ran.reached = root.trail.kept := by
  have hWellFormed : ∀ q, plan.Holds q → q.WellFormed c :=
    fun q hHolds => wellFormed_of_compile (compile_held hHolds hCompiled)
  have hReadable : plan.Readable := by
    intro q hHolds op hOp
    obtain ⟨-, d, model, bindings, -, -, -, hSupported⟩ := hWellFormed q hHolds
    exact (hSupported op hOp).readsScalar
  refine ⟨hWellFormed, fun runId culture inst surface => ⟨?_, fun names r hWithin => ?_, ?_⟩⟩
  · intro failure path other hFailure hPrompt
    have hHonest : (plan.trail runId culture inst surface).Honest surface :=
      Operation.run_honest.2 plan.operations _ inst surface hReadable.operations
    have hHalt : (plan.trail runId culture inst surface).halt = some (.failed failure.error) := by
      apply PlanOf.failed_of_result hFailure
      rw [hPrompt]
      rintro cancelled ⟨⟩
    rw [hPrompt] at hHalt
    refine (hHonest.refused path _ hHalt).resolve_right ?_
    rintro ⟨type, answer, cause, hScalar, hCoerced, hMessage⟩
    refine message_ne_notScalar (fun wrong hCause => ?_) other hMessage.symm
    exact coerce_ne_notScalar hScalar wrong (hCause ▸ hCoerced)
  · obtain ⟨q, hHolds, hForm⟩ := hWithin.exists_held rfl
    constructor
    · apply FormRun.preserves_of_nodup
      rw [hForm]
      exact (hWellFormed q hHolds).distinct
    · intro before member title type secret search own after hReached answer other
      have hOp : .askText member title type secret search own ∈ q.operations := by
        rw [← hForm, hReached.place]
        exact List.mem_append_right _ List.mem_cons_self
      exact coerce_ne_notScalar (hReadable q hHolds _ hOp) other
  · exact PlanOf.run_reached plan runId culture inst surface

namespace Sample

theorem delivery_well_formed :
    let ran := deliveryPlan.run "1" none delivery noteAndWeight
    (deliveries.compile 16 "Delivery").result = .ok deliveryPlan ∧
      deliveryPlan.WellFormed deliveries ∧ parcelPlan.WellFormed deliveries ∧
      ran.reached.get? "note" = some (.str "Ring twice") ∧
      ∀ failure path other, ran.result = .error failure →
        failure.error ≠ .prompt path (.invalidInput (CoercionError.notScalar other).message) := by
  intro ran
  have hCompiled : (deliveries.compile 16 "Delivery").result = .ok deliveryPlan := by cbv
  have hNested : .recurse "parcel" parcelPlan ∈ deliveryPlan.operations :=
    List.mem_cons_of_mem _ List.mem_cons_self
  have hParcel : deliveryPlan.Holds parcelPlan := .nested hNested (.self _)
  obtain ⟨hWellFormed, hRuns⟩ := Catalog.compiled_well_formed hCompiled
  obtain ⟨hRefused, hForms, hReached⟩ := hRuns "1" none delivery noteAndWeight
  refine ⟨hCompiled, hWellFormed _ (.self _), hWellFormed _ hParcel, ?_, ?_⟩
  · have hRoot := (hForms [] _ .root).1
    have hKept := hRoot.handedBack [] _ _ rfl (by decide) rfl
    rw [hReached]
    exact hKept
  · intro failure path other hFailure hPrompt
    cases hRefused failure path other hFailure hPrompt with
    | exhausted runsOut => cases runsOut
    | @answered answer reply listed ends refuses =>
      have hAnswers : answer = text "Ring twice" ∨ answer = text " 12 " := by
        simpa [noteAndWeight] using listed
      rcases hAnswers with rfl | rfl
      all_goals
        cases ends
        rcases refuses with ⟨⟨⟩⟩ | ⟨⟨⟩⟩

end Sample
end FormFlow
