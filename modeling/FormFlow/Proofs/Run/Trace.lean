import FormFlow.Plan.Summary
import FormFlow.Proofs.Run.Course
/-!
# The trace of a run

The operations that a run starts, in order, are the first rows of the plan's
summary. A run that stops because it is cancelled stands at one of two places:
at the last operation that it started, if work is suspended there, or else at the
next row of the summary. The failure names that place exactly if no work is
suspended below the root form.
-/
namespace FormFlow

def Trail.startedPaths (t : Trail) : List String := t.events.filterMap Event.startedPath?

namespace Pending

def members : Pending → List String
  | .work member => [member]
  | .form member _ inner => member :: inner.members

def path (base : String) (pending : Pending) : String := pending.members.foldl joinPath base

theorem members_eq_cons (pending : Pending) :
    ∃ rest, pending.members = pending.member :: rest := by
  cases pending with
  | work member => exact ⟨[], rfl⟩
  | form member inst inner => exact ⟨inner.members, rfl⟩

end Pending

/-- How the operations of a form end, given the paths that were started and those that were not:
a cancelled form stands before the first one not started, suspended work is that of the last one
started. -/
inductive Halt.EndsAt (base : String) (started later : List String) : Option Halt → Prop where
  | finished (h : later = []) : EndsAt base started later none
  | cancelled (path : String) (h : later.head? = some path) :
      EndsAt base started later (some (.failed (.cancelled path)))
  | failed (error : ExecutionError) (h : ∀ path, error ≠ .cancelled path) :
      EndsAt base started later (some (.failed error))
  | interrupted (pending : Pending) (h : started.getLast? = some (pending.path base)) :
      EndsAt base started later (some (.interrupted pending))

namespace Halt

theorem EndsAt.append_later {base : String} {started later : List String} {halt : Halt}
    (h : EndsAt base started later (some halt)) (more : List String) :
    EndsAt base started (later ++ more) (some halt) := by
  cases h with
  | cancelled path hHead => exact .cancelled path (by rw [List.head?_append, hHead]; rfl)
  | failed error hNot => exact .failed error hNot
  | interrupted pending hLast => exact .interrupted pending hLast

theorem EndsAt.append_started {base : String} {started later : List String} {halt : Option Halt}
    (h : EndsAt base started later halt) (before : List String) :
    EndsAt base (before ++ started) later halt := by
  cases h with
  | finished hLater => exact .finished hLater
  | cancelled path hHead => exact .cancelled path hHead
  | failed error hNot => exact .failed error hNot
  | interrupted pending hLast =>
    exact .interrupted pending (by rw [List.getLast?_append, hLast]; rfl)

theorem OfWork.endsAt {base member : String} {token : Bool} {halt : Option Halt}
    (h : OfWork (joinPath base member) member token halt) :
    EndsAt base [joinPath base member] [] halt := by
  cases h with
  | finished => exact .finished rfl
  | failed error atPath notCancelled => exact .failed error notCancelled
  | interrupted noticed => exact .interrupted (.work member) rfl

end Halt

theorem Event.startedPath?_of_preparesWork {e : Event} (h : e.preparesWork = true) :
    e.startedPath? = none := by
  cases e with
  | logged entry => cases h
  | _ => rfl

theorem Event.startedPath?_of_opensWork {e : Event} (h : e.opensWork = true) :
    e.startedPath? = none := by
  cases e with
  | logged entry => cases h
  | _ => rfl

theorem Trail.OfWork.startedPaths {surface : Surface} {t : Trail} (h : t.OfWork surface) :
    t.startedPaths = [] := by
  refine List.filterMap_eq_nil_iff.mpr fun e he => ?_
  cases h with
  | unopened prepared same => exact Event.startedPath?_of_preparesWork (prepared e he)
  | opened before opening after events prepared opens ended =>
    rw [events, List.mem_append, List.mem_cons] at he
    rcases he with hBefore | rfl | hAfter
    · exact Event.startedPath?_of_preparesWork (prepared e hBefore)
    · exact Event.startedPath?_of_opensWork opens
    · obtain ⟨ok, rfl⟩ := ended e hAfter
      rfl

namespace Operation

theorem startedPaths_nest (inner : Trail) (member : String) (inst : Instance) :
    (inner.nest member inst).startedPaths = inner.startedPaths := by
  rw [Trail.startedPaths, Trail.nest_events]
  rfl

theorem startedPath?_startEvent (op : Operation) (scope : Scope) :
    (op.startEvent scope).startedPath? = some (joinPath scope.path op.member) := rfl

section Started
variable {op : Operation} {rest : List Operation} {scope : Scope} {inst : Instance}
  {surface : Surface}

theorem startedPaths_halted {halt : Halt} (h : surface.cancelled = false)
    (hHalt : (op.run scope inst surface).halt = some halt) :
    (runAll (op :: rest) scope inst surface).startedPaths =
      joinPath scope.path op.member :: (op.run scope inst surface).startedPaths := by
  rw [runAll_halted h hHalt]
  rfl

theorem startedPaths_continued (h : surface.cancelled = false)
    (hHalt : (op.run scope inst surface).halt = none) :
    (runAll (op :: rest) scope inst surface).startedPaths =
      joinPath scope.path op.member :: ((op.run scope inst surface).startedPaths ++
        (runAll rest scope (op.run scope inst surface).inst
          (op.run scope inst surface).surface).startedPaths) := by
  rw [runAll_continued h hHalt]
  simp only [Trail.startedPaths, List.cons_append, List.filterMap_cons, startedPath?_startEvent,
    List.filterMap_append]

end Started

theorem summaryRows_of_work {op : Operation} (h : op.isWork = true) (base : String) (depth : Nat) :
    (op.summaryRows base depth).map SummaryRow.path = [joinPath base op.member] := by
  cases op with
  | recurse member plan => cases h
  | _ => simp only [summaryRows, List.map_cons, List.map_nil, member]

theorem summaryRows_recurse (member : String) (plan : Plan) (base : String) (depth : Nat) :
    ((recurse member plan).summaryRows base depth).map SummaryRow.path =
      joinPath base member ::
        (allSummaryRows (joinPath base member) (depth + 1) plan.operations).map SummaryRow.path := by
  cases plan
  simp only [summaryRows, List.map_cons]

theorem allSummaryRows_cons (op : Operation) (rest : List Operation) (base : String) (depth : Nat) :
    (allSummaryRows base depth (op :: rest)).map SummaryRow.path =
      (op.summaryRows base depth).map SummaryRow.path ++
        (allSummaryRows base depth rest).map SummaryRow.path := by
  simp only [allSummaryRows, List.map_append]

theorem summaryRows_head? (op : Operation) (base : String) (depth : Nat) :
    ((op.summaryRows base depth).map SummaryRow.path).head? = some (joinPath base op.member) := by
  cases op with
  | recurse member plan => rw [summaryRows_recurse]; rfl
  | _ => simp only [summaryRows, List.map_cons, List.head?_cons, member]

end Operation

theorem PlanOf.nestedInstance_not_cancelled {plan : Plan} {path : String} {held : Option Json}
    {error : ExecutionError} (h : plan.nestedInstance path held = .error error) :
    ∀ p, error ≠ .cancelled p := by
  rintro p rfl
  unfold nestedInstance at h
  split at h
  · cases h
  · split at h <;> cases h
  · split at h <;> cases h
  · cases h

/-- The trail starts the operations with these paths one after another, behind those already
started, and ends as the ones it does not get to allow. -/
def Trail.Follows (t : Trail) (base : String) (before paths : List String) : Prop :=
  ∃ later, paths = before ++ t.startedPaths ++ later ∧
    Halt.EndsAt base (before ++ t.startedPaths) later t.halt

namespace Operation

theorem follows_of_work {op : Operation} (h : op.isWork = true) (scope : Scope) (inst : Instance)
    (surface : Surface) :
    (op.run scope inst surface).Follows scope.path [joinPath scope.path op.member]
      [joinPath scope.path op.member] := by
  refine ⟨[], ?_, ?_⟩
  · rw [(work_trail h scope inst surface).startedPaths]
    rfl
  · rw [(work_trail h scope inst surface).startedPaths]
    exact (work_halt h scope inst surface).endsAt

theorem follows_of_nest {inner : Trail} {base member : String} {paths : List String}
    (h : inner.Follows (joinPath base member) [] paths) (inst : Instance) :
    (inner.nest member inst).Follows base [joinPath base member] (joinPath base member :: paths) := by
  obtain ⟨later, rfl, hEnd⟩ := h
  refine ⟨later, by rw [startedPaths_nest]; rfl, ?_⟩
  rw [startedPaths_nest]
  have hEnd := hEnd.append_started [joinPath base member]
  unfold Trail.nest
  split
  · rename_i hHalt
    rw [hHalt] at hEnd
    cases hEnd with
    | finished hLater => exact .finished hLater
  · rename_i error hHalt
    rw [hHalt] at hEnd
    cases hEnd with
    | cancelled path hHead => exact .cancelled path hHead
    | failed error hNot => exact .failed error hNot
  · rename_i pending hHalt
    rw [hHalt] at hEnd
    cases hEnd with
    | interrupted pending hLast => exact .interrupted (.form member inner.inst pending) hLast

theorem run_follows :
    (∀ (op : Operation) (scope : Scope) (inst : Instance) (surface : Surface) (depth : Nat),
      (op.run scope inst surface).Follows scope.path [joinPath scope.path op.member]
        ((op.summaryRows scope.path depth).map SummaryRow.path)) ∧
    ∀ (ops : List Operation) (scope : Scope) (inst : Instance) (surface : Surface) (depth : Nat),
      (runAll ops scope inst surface).Follows scope.path []
        ((allSummaryRows scope.path depth ops).map SummaryRow.path) := by
  apply run_induction
  case work =>
    intro op scope inst surface hWork depth
    rw [summaryRows_of_work hWork]
    exact follows_of_work hWork scope inst surface
  case refused =>
    intro member plan scope inst surface error hChild depth
    rw [run_recurse_error hChild, summaryRows_recurse]
    exact ⟨_, rfl, .failed error (PlanOf.nestedInstance_not_cancelled hChild)⟩
  case nested =>
    intro member plan scope inst surface child hChild ih depth
    rw [run_recurse_ok hChild, summaryRows_recurse]
    exact follows_of_nest (ih (depth + 1)) inst
  case finished =>
    intro scope inst surface depth
    simp only [runAll_nil, allSummaryRows]
    exact ⟨[], rfl, .finished rfl⟩
  case cancelled =>
    intro op rest scope inst surface hCancelled depth
    rw [runAll_cancelled hCancelled]
    refine ⟨(allSummaryRows scope.path depth (op :: rest)).map SummaryRow.path, rfl, .cancelled _ ?_⟩
    rw [allSummaryRows_cons, List.head?_append, summaryRows_head?]
    rfl
  case halted =>
    intro op rest scope inst surface halt hCancelled hHalt ih depth
    obtain ⟨later, hPaths, hEnd⟩ := ih depth
    rw [runAll_halted hCancelled hHalt, allSummaryRows_cons, hPaths]
    rw [hHalt] at hEnd
    refine ⟨later ++ (allSummaryRows scope.path depth rest).map SummaryRow.path, ?_, ?_⟩
    · simp [Trail.startedPaths, startedPath?_startEvent]
    · rw [hHalt]
      exact hEnd.append_later _
  case continued =>
    intro op rest scope inst surface hCancelled hHalt ih ihRest depth
    obtain ⟨later, hPaths, hEnd⟩ := ih depth
    obtain ⟨more, hRest, hEndRest⟩ := ihRest depth
    rw [hHalt] at hEnd
    cases hEnd with
    | finished hLater =>
      subst hLater
      rw [runAll_continued hCancelled hHalt, allSummaryRows_cons, hPaths, hRest]
      refine ⟨more, ?_, ?_⟩
      · simp [Trail.startedPaths, startedPath?_startEvent]
      · have hEnd := hEndRest.append_started
          (joinPath scope.path op.member :: (op.run scope inst surface).startedPaths)
        simpa [Trail.startedPaths, startedPath?_startEvent] using hEnd

end Operation

theorem length_foldl_joinPath {base : String} (h : base ≠ "") (members : List String) :
    base.length + members.length ≤ (members.foldl joinPath base).length := by
  induction members generalizing base with
  | nil => exact Nat.le_refl _
  | cons member rest ih =>
    have hLength : (base ++ "." ++ member).length = base.length + 1 + member.length := by
      rw [String.length_append, String.length_append]
      rfl
    have hLonger : base ++ "." ++ member ≠ "" := by
      intro hEmpty
      rw [hEmpty, String.length_empty] at hLength
      omega
    rw [List.foldl_cons, joinPath_of_ne h, List.length_cons]
    have := ih hLonger
    omega

theorem foldl_joinPath_empty {members : List String} :
    members.foldl joinPath "" = "" ↔ ∀ m ∈ members, m = "" := by
  induction members with
  | nil => simp
  | cons member rest ih =>
    rw [List.foldl_cons, joinPath_empty, List.forall_mem_cons]
    by_cases hMember : member = ""
    · rw [hMember, ih]
      simp
    · have hLonger := length_foldl_joinPath hMember rest
      have hPositive : 0 < member.length := by
        rw [Nat.pos_iff_ne_zero]
        exact fun hZero => hMember (String.length_eq_zero_iff.mp hZero)
      constructor
      · intro hEmpty
        rw [hEmpty, String.length_empty] at hLonger
        omega
      · exact fun hAll => absurd hAll.1 hMember

theorem Pending.path_eq_member_iff (pending : Pending) :
    pending.path "" = pending.member ↔
      pending.members.length = 1 ∨ ∀ m ∈ pending.members, m = "" := by
  obtain ⟨rest, hMembers⟩ := pending.members_eq_cons
  rw [Pending.path, hMembers, List.foldl_cons, joinPath_empty, List.length_cons]
  by_cases hMember : pending.member = ""
  · rw [hMember, foldl_joinPath_empty, List.forall_mem_cons]
    constructor
    · exact fun hAll => .inr ⟨rfl, hAll⟩
    · rintro (hLength | hAll)
      · rw [List.eq_nil_of_length_eq_zero (Nat.succ.inj hLength)]
        simp
      · exact hAll.2
  · constructor
    · intro hSame
      have hLonger := length_foldl_joinPath hMember rest
      rw [hSame] at hLonger
      exact .inl (by omega)
    · rintro (hLength | hAll)
      · rw [List.eq_nil_of_length_eq_zero (Nat.succ.inj hLength)]
        rfl
      · exact absurd (hAll _ (List.mem_cons_self)) hMember

section Runs
variable (plan : Plan) (runId : String) (culture : Option String) (inst : Instance)
  (surface : Surface)

/-- The operation at which a cancelled run stands: the last one started if work is suspended, and
otherwise the next one to start. -/
def PlanOf.standsAt : Option String :=
  let t := plan.trail runId culture inst surface
  match t.halt with
  | some (.interrupted _) => t.startedPaths.getLast?
  | _ => (plan.summary.map SummaryRow.path)[t.startedPaths.length]?

theorem PlanOf.startedPaths_run :
    (plan.run runId culture inst surface).events.filterMap Event.startedPath? =
      (plan.trail runId culture inst surface).startedPaths := by
  simp only [run]
  split
  all_goals
    rw [List.cons_append, List.filterMap_cons_none rfl, List.filterMap_append]
    exact List.append_nil _

theorem PlanOf.trail_follows :
    (plan.trail runId culture inst surface).Follows "" [] (plan.summary.map SummaryRow.path) :=
  Operation.run_follows.2 _ _ _ _ 0

theorem PlanOf.standsAt_of_interrupted {pending : Pending}
    (h : (plan.trail runId culture inst surface).halt = some (.interrupted pending)) :
    plan.standsAt runId culture inst surface = some (pending.path "") := by
  obtain ⟨later, hPaths, hEnd⟩ := plan.trail_follows runId culture inst surface
  rw [h] at hEnd
  cases hEnd with
  | interrupted pending hLast =>
    simp only [standsAt, h]
    exact hLast

theorem PlanOf.standsAt_of_failed {path : String}
    (h : (plan.trail runId culture inst surface).halt = some (.failed (.cancelled path))) :
    plan.standsAt runId culture inst surface = some path := by
  obtain ⟨later, hPaths, hEnd⟩ := plan.trail_follows runId culture inst surface
  rw [h] at hEnd
  cases hEnd with
  | cancelled path hHead =>
    simp only [standsAt, h, hPaths, List.nil_append]
    rw [List.getElem?_append_right (Nat.le_refl _), Nat.sub_self, ← List.head?_eq_getElem?]
    exact hHead
  | failed error hNot => exact absurd rfl (hNot path)

/-- A cancelled run names the operation at which it stands exactly if no work is suspended in a
nested form. -/
theorem PlanOf.run_names_place_iff {failure : RunFailure} {path : String}
    (hResult : (plan.run runId culture inst surface).result = .error failure)
    (hError : failure.error = .cancelled path) :
    plan.standsAt runId culture inst surface = some path ↔
      ∀ pending, (plan.trail runId culture inst surface).halt = some (.interrupted pending) →
        pending.members.length = 1 ∨ ∀ m ∈ pending.members, m = "" := by
  rw [run_result, Trail.failure?] at hResult
  cases hHalt : (plan.trail runId culture inst surface).halt with
  | none =>
    rw [hHalt] at hResult
    cases hResult
  | some halt =>
    rw [hHalt] at hResult
    cases halt with
    | failed error =>
      cases hResult
      subst hError
      rw [standsAt_of_failed _ _ _ _ _ hHalt]
      constructor
      · intro _ pending hPending
        cases hPending
      · exact fun _ => rfl
    | interrupted pending =>
      cases hResult
      cases hError
      rw [standsAt_of_interrupted _ _ _ _ _ hHalt, Option.some_inj, Pending.path_eq_member_iff]
      constructor
      · rintro h _ ⟨⟩
        exact h
      · exact fun h => h pending rfl

end Runs

theorem Sample.address_names_city :
    ∃ failure, (addressPlan.run "1" none (.new "Address") oneAnswer).result = .error failure ∧
      failure.error = .cancelled "city" ∧
      (addressPlan.standsAt "1" none (.new "Address") oneAnswer = some "city" ↔
        ∀ pending, (addressPlan.trail "1" none (.new "Address") oneAnswer).halt =
            some (.interrupted pending) →
          pending.members.length = 1 ∨ ∀ m ∈ pending.members, m = "") :=
  ⟨_, rfl, rfl, addressPlan.run_names_place_iff "1" none (.new "Address") oneAnswer rfl rfl⟩

/-- A customer's run names the address as a whole when a line of it is awaited. -/
theorem Sample.customer_names_address :
    (orderForms.compile 16 "Customer").result = .ok customerPlan ∧
      (∃ failure, (customerPlan.run "1" none (.new "Customer") oneAnswer).result = .error failure ∧
        failure.error = .cancelled "address") ∧
      customerPlan.standsAt "1" none (.new "Customer") oneAnswer = some "address.city" := by
  have hCompiled : (orderForms.compile 16 "Customer").result = .ok customerPlan := by cbv
  exact ⟨hCompiled, ⟨_, rfl, rfl⟩, rfl⟩

end FormFlow
