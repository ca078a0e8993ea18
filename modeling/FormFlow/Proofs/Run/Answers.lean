import FormFlow.Proofs.Run.Course
import FormFlow.Proofs.Run.Position
/-!
# The answers that a run keeps

The ledger of a run lists the values that its prompts have assigned, each at its
full nested position, as long as no later operation overwrites or removes it.
All of them stand in the live instance: the one in which every form in progress
is stored where it is nested. A run that ends hands back that instance, except
when it gives up work two or more levels deep: of the form on the second level,
and so of all below it, it then hands back what stood there before.
-/
namespace FormFlow

abbrev Ledger := List String → Json → Prop

namespace Ledger

def empty : Ledger := fun _ _ => False

def assign (l : Ledger) (member : String) (value : Json) : Ledger := fun pos v =>
  (pos = [member] ∧ v = value) ∨ (pos.head? ≠ some member ∧ l pos v)

def untouched (l : Ledger) (after : Instance) : Ledger := fun pos v =>
  l pos v ∧ after.at? pos = some v

def below (l : Ledger) (member : String) : Ledger := fun pos v => pos ≠ [] ∧ l (member :: pos) v

/-- The entries with those inside the value of a member replaced. -/
def nest (l : Ledger) (member : String) (inner : Ledger) : Ledger
  | [], _ => False
  | m :: rest, v => if m = member then inner rest v else l (m :: rest) v

@[simp] theorem nest_self (l inner : Ledger) (member : String) (rest : List String) (v : Json) :
    l.nest member inner (member :: rest) v ↔ inner rest v := by simp [nest]

theorem nest_of_ne (l inner : Ledger) {member other : String} (rest : List String) (v : Json)
    (h : other ≠ member) : l.nest member inner (other :: rest) v ↔ l (other :: rest) v := by
  simp [nest, h]

/-- A prompt adds the value that it has assigned, if it finishes. -/
def prompted (l : Ledger) (member : String) (t : Trail) : Ledger :=
  match t.halt, t.inst.get? member with
  | none, some value => l.assign member value
  | _, _ => l

def Stands (l : Ledger) (i : Instance) : Prop := ∀ pos v, l pos v → i.at? pos = some v

theorem stands_empty (i : Instance) : empty.Stands i := fun _ _ h => h.elim

theorem stands_untouched (l : Ledger) (i : Instance) : (l.untouched i).Stands i := fun _ _ h => h.2

theorem Stands.assign {l : Ledger} {i : Instance} (h : l.Stands i) (member : String) (value : Json) :
    (l.assign member value).Stands (i.set member value) := by
  rintro pos v (⟨rfl, rfl⟩ | ⟨hHead, hEntry⟩)
  · exact i.at?_set_self member v []
  · have hValue := h pos v hEntry
    cases pos with
    | nil => exact hValue
    | cons other rest =>
      rw [i.at?_set_of_ne value rest fun hEq => hHead (congrArg some hEq)]
      exact hValue

theorem Stands.nest {l inner : Ledger} {i child : Instance} (h : l.Stands i)
    (hInner : inner.Stands child) (member : String) :
    (l.nest member inner).Stands (i.set member child.toValue) := by
  intro pos v hEntry
  cases pos with
  | nil => cases hEntry
  | cons other rest =>
    by_cases hEq : other = member
    · subst hEq
      have hValue := hInner rest v ((nest_self ..).mp hEntry)
      have hRest : rest ≠ [] := by
        rintro rfl
        cases hValue
      rw [i.at?_set_self, child.toValue_at? hRest, hValue]
    · rw [i.at?_set_of_ne _ rest hEq]
      exact h _ _ ((nest_of_ne _ _ _ _ hEq).mp hEntry)

theorem Stands.below {l : Ledger} {i child : Instance} {plan : Plan} {path member : String}
    (h : l.Stands i) (hChild : plan.nestedInstance path (i.get? member) = .ok child) :
    (l.below member).Stands child := by
  rintro pos v ⟨hPos, hEntry⟩
  have hValue := h _ _ hEntry
  rw [i.at?_cons] at hValue
  obtain ⟨value, hHeld, hValue⟩ := Option.bind_eq_some_iff.mp hValue
  obtain ⟨next, rest, rfl⟩ := List.exists_cons_of_ne_nil hPos
  rw [hHeld] at hChild
  cases value with
  | obj fields =>
    cases hChild
    exact hValue
  | _ => cases hValue

end Ledger

/-- The instance with every form in progress stored where it is nested. -/
def Pending.live (inst : Instance) : Pending → Instance
  | .work _ => inst
  | .form member child inner => inst.set member (inner.live child).toValue

def Trail.live (t : Trail) : Instance :=
  match t.halt with
  | some (.interrupted pending) => pending.live t.inst
  | _ => t.inst

theorem Trail.live_of_halt_none {t : Trail} (h : t.halt = none) : t.live = t.inst := by
  simp [live, h]

theorem Trail.live_nest (inner : Trail) (member : String) (inst : Instance) :
    (inner.nest member inst).live = inst.set member inner.live.toValue := by
  unfold Trail.nest
  split <;> simp [Trail.live, Trail.done, Trail.fail, Trail.interrupt, Pending.live, *]

theorem Ledger.Stands.prompted {l : Ledger} {path member : String} {inst : Instance} {t : Trail}
    (h : l.Stands inst) (hPrompt : t.OfPrompt path member inst) :
    (l.prompted member t).Stands t.live := by
  cases hPrompt with
  | assigned events surface value =>
    simp only [Ledger.prompted, Trail.done, Instance.get?_set_self]
    exact h.assign member value
  | failed events surface error atPath notCancelled => exact h
  | interrupted events surface noticed => exact h

namespace Operation

mutual
def ledger (op : Operation) (scope : Scope) (inst : Instance) (surface : Surface) (l : Ledger) :
    Ledger :=
  match op with
  | .askText member title type secret search culture =>
    l.prompted member (scope.askText inst surface member title type secret search culture)
  | .askSelect member title source converter search culture =>
    l.prompted member (scope.askSelect inst surface member title source converter search culture)
  | .runStep member _ status body => l.untouched (scope.runStep inst surface member status body).inst
  | .recurse member ⟨typeName, culture, strategy, dependencies, operations⟩ =>
    let path := joinPath scope.path member
    match PlanOf.nestedInstance ⟨typeName, culture, strategy, dependencies, operations⟩ path
        (inst.get? member) with
    | .error _ => l
    | .ok child =>
      l.nest member (ledgerAll operations (scope.enter path culture) child surface (l.below member))

def ledgerAll (ops : List Operation) (scope : Scope) (inst : Instance) (surface : Surface)
    (l : Ledger) : Ledger :=
  match ops with
  | [] => l
  | op :: rest =>
    if surface.cancelled then l
    else
      let first := op.run scope inst surface
      match first.halt with
      | some _ => op.ledger scope inst surface l
      | none => ledgerAll rest scope first.inst first.surface (op.ledger scope inst surface l)
end

section Equations
variable {scope : Scope} {inst : Instance} {surface : Surface} {l : Ledger}

theorem ledger_recurse_error {member : String} {plan : Plan} {error : ExecutionError}
    (h : plan.nestedInstance (joinPath scope.path member) (inst.get? member) = .error error) :
    (Operation.recurse member plan).ledger scope inst surface l = l := by
  cases plan
  simp only [ledger, h]

theorem ledger_recurse_ok {member : String} {plan : Plan} {child : Instance}
    (h : plan.nestedInstance (joinPath scope.path member) (inst.get? member) = .ok child) :
    (Operation.recurse member plan).ledger scope inst surface l =
      l.nest member (ledgerAll plan.operations (scope.enter (joinPath scope.path member) plan.culture)
        child surface (l.below member)) := by
  cases plan
  simp only [ledger, h]

variable {op : Operation} {rest : List Operation}

theorem ledgerAll_cancelled (h : surface.cancelled = true) :
    ledgerAll (op :: rest) scope inst surface l = l := by
  simp only [ledgerAll, h, if_true]

theorem ledgerAll_halted {halt : Halt} (h : surface.cancelled = false)
    (hHalt : (op.run scope inst surface).halt = some halt) :
    ledgerAll (op :: rest) scope inst surface l = op.ledger scope inst surface l := by
  simp only [ledgerAll, h, hHalt, Bool.false_eq_true, if_false]

theorem ledgerAll_continued (h : surface.cancelled = false)
    (hHalt : (op.run scope inst surface).halt = none) :
    ledgerAll (op :: rest) scope inst surface l =
      ledgerAll rest scope (op.run scope inst surface).inst (op.run scope inst surface).surface
        (op.ledger scope inst surface l) := by
  simp only [ledgerAll, h, hHalt, Bool.false_eq_true, if_false]

end Equations

theorem work_live {op : Operation} (hWork : op.isWork = true) (scope : Scope) (inst : Instance)
    (surface : Surface) :
    (op.run scope inst surface).live = (op.run scope inst surface).inst := by
  have hHalt := work_halt hWork scope inst surface
  unfold Trail.live
  cases hEnd : (op.run scope inst surface).halt with
  | none => rfl
  | some halt =>
    rw [hEnd] at hHalt
    cases hHalt with
    | failed error atPath notCancelled => rfl
    | interrupted noticed => rfl

theorem work_ledger_stands {op : Operation} (hWork : op.isWork = true) (scope : Scope)
    (inst : Instance) (surface : Surface) {l : Ledger} (h : l.Stands inst) :
    (op.ledger scope inst surface l).Stands (op.run scope inst surface).live := by
  cases op with
  | askText member title type secret search culture =>
    simp only [ledger, run]
    exact h.prompted (scope.askText_ofPrompt ..)
  | askSelect member title source converter search culture =>
    simp only [ledger, run]
    exact h.prompted (scope.askSelect_ofPrompt ..)
  | runStep member isAsync status body =>
    rw [work_live hWork]
    simp only [ledger, run]
    exact Ledger.stands_untouched _ _
  | recurse member plan => cases hWork

/-- Whatever the ledger records stands in the live instance. -/
theorem ledger_stands :
    (∀ (op : Operation) (scope : Scope) (inst : Instance) (surface : Surface) (l : Ledger),
      l.Stands inst → (op.ledger scope inst surface l).Stands (op.run scope inst surface).live) ∧
    ∀ (ops : List Operation) (scope : Scope) (inst : Instance) (surface : Surface) (l : Ledger),
      l.Stands inst → (ledgerAll ops scope inst surface l).Stands (runAll ops scope inst surface).live := by
  apply run_induction
  case work =>
    intro op scope inst surface hWork l h
    exact work_ledger_stands hWork scope inst surface h
  case refused =>
    intro member plan scope inst surface error hChild l h
    rw [run_recurse_error hChild, ledger_recurse_error hChild]
    exact h
  case nested =>
    intro member plan scope inst surface child hChild ih l h
    rw [run_recurse_ok hChild, ledger_recurse_ok hChild, Trail.live_nest]
    exact h.nest (ih _ (h.below hChild)) member
  case finished =>
    intro scope inst surface l h
    simpa [ledgerAll, Trail.live] using h
  case cancelled =>
    intro op rest scope inst surface hCancelled l h
    rw [runAll_cancelled hCancelled, ledgerAll_cancelled hCancelled]
    exact h
  case halted =>
    intro op rest scope inst surface halt hCancelled hHalt ih l h
    rw [runAll_halted hCancelled hHalt, ledgerAll_halted hCancelled hHalt]
    exact ih l h
  case continued =>
    intro op rest scope inst surface hCancelled hHalt ih ihRest l h
    rw [runAll_continued hCancelled hHalt, ledgerAll_continued hCancelled hHalt]
    apply ihRest
    have hLive := ih l h
    rwa [Trail.live_of_halt_none hHalt] at hLive

theorem ledger_pending {op : Operation} {scope : Scope} {inst : Instance} {surface : Surface}
    {l : Ledger} (h : l.Stands inst) {member : String} {child : Instance} {inner : Pending}
    (hHalt : (op.run scope inst surface).halt = some (.interrupted (.form member child inner)))
    (v : Json) : ¬ op.ledger scope inst surface l [member] v := by
  intro hEntry
  by_cases hWork : op.isWork = true
  · have hEnd := work_halt hWork scope inst surface
    rw [hHalt] at hEnd
    cases hEnd
  · obtain ⟨form, plan, rfl⟩ : ∃ form plan, op = .recurse form plan := by
      cases op with
      | recurse form plan => exact ⟨form, plan, rfl⟩
      | _ => exact absurd rfl hWork
    cases hChild : plan.nestedInstance (joinPath scope.path form) (inst.get? form) with
    | error error =>
      rw [run_recurse_error hChild] at hHalt
      cases hHalt
    | ok start =>
      rw [run_recurse_ok hChild] at hHalt
      rw [ledger_recurse_ok hChild] at hEntry
      obtain ⟨lower, -, hPending⟩ := Trail.nest_interrupted.mp hHalt
      cases hPending
      have hInner := (Ledger.nest_self ..).mp hEntry
      have hValue := ledger_stands.2 _ _ _ _ _ (h.below hChild) _ _ hInner
      cases hValue

theorem ledgerAll_pending {member : String} {child : Instance} {inner : Pending} (v : Json)
    (ops : List Operation) : ∀ (scope : Scope) (inst : Instance) (surface : Surface) (l : Ledger),
      l.Stands inst →
      (runAll ops scope inst surface).halt = some (.interrupted (.form member child inner)) →
      ¬ ledgerAll ops scope inst surface l [member] v := by
  induction ops with
  | nil =>
    intro scope inst surface l h hHalt
    simp at hHalt
  | cons op rest ih =>
    intro scope inst surface l h hHalt
    cases hCancelled : surface.cancelled with
    | true =>
      rw [runAll_cancelled hCancelled] at hHalt
      cases hHalt
    | false =>
      cases hEnd : (op.run scope inst surface).halt with
      | some halt =>
        rw [runAll_halted hCancelled hEnd] at hHalt
        rw [ledgerAll_halted hCancelled hEnd]
        exact ledger_pending h hHalt v
      | none =>
        rw [runAll_continued hCancelled hEnd] at hHalt
        rw [ledgerAll_continued hCancelled hEnd]
        apply ih _ _ _ _ _ hHalt
        have hLive := ledger_stands.1 op scope inst surface l h
        rwa [Trail.live_of_halt_none hEnd] at hLive

end Operation

/-- Of work given up two or more levels deep, the live instance and what is kept differ only inside
the member of the form on the second level. -/
theorem Pending.at?_keep (i outer inner : Instance) (m₁ m₂ : String) (lower : Pending)
    {pos : List String} (hMember : pos ≠ [m₁]) (hOutside : ¬ [m₁, m₂] <+: pos) :
    (keep i (.form m₁ outer (.form m₂ inner lower))).at? pos =
      (live i (.form m₁ outer (.form m₂ inner lower))).at? pos := by
  unfold keep live live
  match pos with
  | [] => rfl
  | [m] =>
    have hFirst : m ≠ m₁ := fun hEq => hMember (congrArg ([·]) hEq)
    rw [Instance.at?_set_of_ne _ _ _ hFirst, Instance.at?_set_of_ne _ _ _ hFirst]
  | m :: n :: rest =>
    by_cases hFirst : m = m₁
    · subst hFirst
      have hSecond : n ≠ m₂ := by
        rintro rfl
        exact hOutside ⟨rest, rfl⟩
      simp only [Instance.at?_set_self, Instance.toValue_at? _ (List.cons_ne_nil n rest)]
      rw [Instance.at?_set_of_ne _ _ _ hSecond]
    · rw [Instance.at?_set_of_ne _ _ _ hFirst, Instance.at?_set_of_ne _ _ _ hFirst]

section Runs
variable (plan : Plan) (runId : String) (culture : Option String) (inst : Instance)
  (surface : Surface)

/-- The values that prompts of a run have assigned and that nothing later has overwritten or
removed, at their full positions. -/
def PlanOf.answers : Ledger :=
  Operation.ledgerAll plan.operations ⟨runId, "", plan.culture <|> culture⟩ inst surface .empty

theorem PlanOf.answers_live :
    (plan.answers runId culture inst surface).Stands (plan.trail runId culture inst surface).live :=
  Operation.ledger_stands.2 _ _ _ _ _ (Ledger.stands_empty inst)

/-- A run keeps all answers exactly if, of the work it gives up two or more levels deep, each answer
collected in the form on the second level stood there already when that form began. -/
theorem PlanOf.run_keeps_answers_iff :
    (plan.answers runId culture inst surface).Stands (plan.run runId culture inst surface).reached ↔
      ∀ m₁ outer m₂ inner lower,
        (plan.trail runId culture inst surface).halt =
          some (.interrupted (.form m₁ outer (.form m₂ inner lower))) →
        ∀ pos v, plan.answers runId culture inst surface (m₁ :: m₂ :: pos) v →
          outer.at? (m₂ :: pos) = some v := by
  rw [run_reached]
  constructor
  · intro hKept m₁ outer m₂ inner lower hHalt pos v hEntry
    have hValue := hKept _ _ hEntry
    simp only [Trail.kept, hHalt, Pending.keep] at hValue
    rwa [Instance.at?_set_self, outer.toValue_at? (List.cons_ne_nil _ _)] at hValue
  · intro hDeep pos v hEntry
    have hLive := plan.answers_live runId culture inst surface pos v hEntry
    cases hHalt : (plan.trail runId culture inst surface).halt with
    | none =>
      simp only [Trail.live, Trail.kept, hHalt] at hLive ⊢
      exact hLive
    | some halt =>
      simp only [Trail.live, Trail.kept, hHalt] at hLive ⊢
      match halt with
      | .failed error => exact hLive
      | .interrupted (.work member) => exact hLive
      | .interrupted (.form m₁ outer (.work member)) => exact hLive
      | .interrupted (.form m₁ outer (.form m₂ inner lower)) =>
        by_cases hInside : [m₁, m₂] <+: pos
        · obtain ⟨rest, rfl⟩ := hInside
          simp only [Pending.keep, List.cons_append, List.nil_append] at hEntry ⊢
          rw [Instance.at?_set_self, outer.toValue_at? (List.cons_ne_nil _ _)]
          exact hDeep m₁ outer m₂ inner lower hHalt rest v hEntry
        · have hMember : pos ≠ [m₁] := by
            rintro rfl
            exact Operation.ledgerAll_pending v _ _ _ _ _ (Ledger.stands_empty inst) hHalt hEntry
          rw [Pending.at?_keep _ _ _ _ _ _ hMember hInside]
          exact hLive

end Runs

/-- The street of an order's customer is answered before the run is cancelled, and lost. -/
theorem Sample.order_loses_street :
    (orderForms.compile 16 "Order").result = .ok orderPlan ∧
      orderPlan.answers "1" none (.new "Order") oneAnswer ["customer", "address", "street"]
        (.str "Elm Street 5") ∧
      ∃ failure, (orderPlan.run "1" none (.new "Order") oneAnswer).result = .error failure ∧
        failure.error = .cancelled "customer" ∧
        failure.reached.at? ["customer", "address", "street"] = none := by
  have hCompiled : (orderForms.compile 16 "Order").result = .ok orderPlan := by cbv
  exact ⟨hCompiled, .inl ⟨rfl, rfl⟩, _, rfl, rfl, rfl⟩

end FormFlow
