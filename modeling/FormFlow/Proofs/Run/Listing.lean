import FormFlow.Proofs.Run.Nested
import FormFlow.Proofs.Run.Trace
/-!
# The operations that a run starts

The listing of a plan holds the operations behind the rows of its summary. A run
whose token is not cancelled starts the first of them, in that order: all of them
if it completes. If it fails it has started at least one, and the last one is
the one that the failure names, by its own path or, for a nested form that
cannot be constructed, by that of the dependency it lacks.
-/
namespace FormFlow

section Listing

structure Listed where
  path : String
  depth : Nat
  operation : Operation

def Listed.row (l : Listed) : SummaryRow :=
  ⟨l.path, l.operation.label, l.depth, l.operation.detail⟩

mutual
def Operation.listing (base : String) (depth : Nat) : Operation → List Listed
  | .askText member title type secret search culture =>
    [⟨joinPath base member, depth, .askText member title type secret search culture⟩]
  | .askSelect member title source converter search culture =>
    [⟨joinPath base member, depth, .askSelect member title source converter search culture⟩]
  | .runStep member isAsync status body =>
    [⟨joinPath base member, depth, .runStep member isAsync status body⟩]
  | .recurse member ⟨typeName, culture, strategy, dependencies, operations⟩ =>
    ⟨joinPath base member, depth,
      .recurse member ⟨typeName, culture, strategy, dependencies, operations⟩⟩
      :: Operation.listingAll (joinPath base member) (depth + 1) operations

def Operation.listingAll (base : String) (depth : Nat) : List Operation → List Listed
  | [] => []
  | op :: rest => Operation.listing base depth op ++ Operation.listingAll base depth rest
end

/-- The operations of a plan and of the plans nested in it, each before those that it nests. -/
def PlanOf.listing (plan : Plan) : List Listed := Operation.listingAll "" 0 plan.operations

/-- The failure is one of the operation at the path. A form that is not there and lacks a dependency
is named by its first dependency, every other failure by the path itself. -/
def ExecutionError.Names (path : String) (op : Operation) : ExecutionError → Prop
  | .missingDependency missing => ∃ member plan dep, op = .recurse member plan ∧
      plan.dependencies.head? = some dep ∧ missing = joinPath path dep.name
  | error => error.path = path

end Listing

namespace Operation

theorem listing_of_work {op : Operation} (h : op.isWork = true) (base : String) (depth : Nat) :
    op.listing base depth = [⟨joinPath base op.member, depth, op⟩] := by
  cases op with
  | recurse member plan => cases h
  | _ => simp only [listing, member]

theorem listing_recurse (member : String) (plan : Plan) (base : String) (depth : Nat) :
    (recurse member plan).listing base depth =
      ⟨joinPath base member, depth, recurse member plan⟩ ::
        listingAll (joinPath base member) (depth + 1) plan.operations := by
  cases plan
  simp only [listing]

theorem summaryRows_eq_listing :
    (∀ (op : Operation) (base : String) (depth : Nat),
      op.summaryRows base depth = (op.listing base depth).map Listed.row) ∧
    ∀ (ops : List Operation) (base : String) (depth : Nat),
      allSummaryRows base depth ops = (listingAll base depth ops).map Listed.row := by
  apply nesting_induction
  case work =>
    intro op hWork base depth
    rw [listing_of_work hWork]
    cases op with
    | recurse member plan => cases hWork
    | _ => simp only [summaryRows, List.map_cons, List.map_nil, Listed.row, label, member]
  case nested =>
    intro member plan ih base depth
    cases plan
    simp only [summaryRows, listing, List.map_cons, Listed.row, label, ih]
  case nil =>
    intro base depth
    simp only [allSummaryRows, listingAll, List.map_nil]
  case cons =>
    intro op rest ih ihRest base depth
    simp only [allSummaryRows, listingAll, List.map_append, ih, ihRest]

theorem work_names {op : Operation} (h : op.isWork = true) {scope : Scope} {inst : Instance}
    {surface : Surface} {error : ExecutionError}
    (hHalt : (op.run scope inst surface).halt = some (.failed error)) :
    error.Names (joinPath scope.path op.member) op := by
  cases op with
  | askText member title type secret search culture =>
    simp only [run, Scope.askText] at hHalt
    repeat' split at hHalt
    all_goals cases hHalt
    all_goals rfl
  | askSelect member title source converter search culture =>
    simp only [run, Scope.askSelect] at hHalt
    repeat' split at hHalt
    all_goals cases hHalt
    all_goals rfl
  | runStep member isAsync status body =>
    simp only [run, Scope.runStep] at hHalt
    repeat' split at hHalt
    all_goals cases hHalt
    all_goals rfl
  | recurse member plan => cases h

end Operation

theorem PlanOf.nestedInstance_names {plan : Plan} {path member : String} {held : Option Json}
    {error : ExecutionError} (h : plan.nestedInstance path held = .error error) :
    error.Names path (.recurse member plan) := by
  have hFirst {dep : Dependency} (hMissing : plan.missingDependency? [] = some dep) :
      plan.dependencies.head? = some dep := by
    rw [missingDependency?] at hMissing
    cases hDependencies : plan.dependencies with
    | nil => simp [hDependencies] at hMissing
    | cons first rest => simpa [hDependencies] using hMissing
  unfold nestedInstance at h
  split at h
  · cases h
  · split at h <;> cases h
    rename_i dep hMissing
    exact ⟨member, plan, dep, rfl, hFirst hMissing, rfl⟩
  · split at h <;> cases h
    rename_i dep hMissing
    exact ⟨member, plan, dep, rfl, hFirst hMissing, rfl⟩
  · cases h
    rfl

namespace Operation

section Started
variable {op : Operation} {rest : List Operation} {scope : Scope} {inst : Instance}
  {surface : Surface}

theorem listing_length_of_finished (h : (op.run scope inst surface).halt = none) (depth : Nat) :
    (op.listing scope.path depth).length = (op.run scope inst surface).startedPaths.length + 1 := by
  obtain ⟨later, hPaths, hEnd⟩ := run_follows.1 op scope inst surface depth
  rw [h] at hEnd
  cases hEnd with
  | finished hLater =>
    subst hLater
    have hLength := congrArg List.length hPaths
    rw [summaryRows_eq_listing.1] at hLength
    simpa [Nat.add_comm] using hLength

end Started

theorem run_names_last :
    (∀ (op : Operation) (scope : Scope) (inst : Instance) (surface : Surface) (depth : Nat)
      (error : ExecutionError), (op.run scope inst surface).surface.cancelled = false →
      (op.run scope inst surface).halt = some (.failed error) →
      ∃ last, (op.listing scope.path depth)[(op.run scope inst surface).startedPaths.length]? =
          some last ∧ error.Names last.path last.operation) ∧
    ∀ (ops : List Operation) (scope : Scope) (inst : Instance) (surface : Surface) (depth : Nat)
      (error : ExecutionError), (runAll ops scope inst surface).surface.cancelled = false →
      (runAll ops scope inst surface).halt = some (.failed error) →
      ∃ n last, (runAll ops scope inst surface).startedPaths.length = n + 1 ∧
        (listingAll scope.path depth ops)[n]? = some last ∧
          error.Names last.path last.operation := by
  apply run_induction
  case work =>
    intro op scope inst surface hWork depth error _ hHalt
    rw [(work_trail hWork scope inst surface).startedPaths, listing_of_work hWork]
    exact ⟨_, rfl, work_names hWork hHalt⟩
  case refused =>
    intro member plan scope inst surface error hChild depth error' _ hHalt
    rw [run_recurse_error hChild] at hHalt ⊢
    cases hHalt
    rw [listing_recurse]
    exact ⟨_, rfl, PlanOf.nestedInstance_names hChild⟩
  case nested =>
    intro member plan scope inst surface child hChild ih depth error hCalm hHalt
    rw [run_recurse_ok hChild, Trail.nest_surface] at hCalm
    rw [run_recurse_ok hChild] at hHalt ⊢
    rw [startedPaths_nest, listing_recurse]
    obtain ⟨n, last, hLength, hLast, hNames⟩ := ih (depth + 1) error hCalm (Trail.nest_failed.mp hHalt)
    refine ⟨last, ?_, hNames⟩
    rw [hLength, List.getElem?_cons_succ]
    exact hLast
  case finished =>
    intro scope inst surface depth error _ hHalt
    rw [runAll_nil] at hHalt
    cases hHalt
  case cancelled =>
    intro op rest scope inst surface hCancelled depth error hCalm hHalt
    rw [runAll_cancelled hCancelled] at hCalm
    cases hCancelled.symm.trans hCalm
  case halted =>
    intro op rest scope inst surface halt hCancelled hHalt ih depth error hCalm hEnd
    rw [startedPaths_halted hCancelled hHalt]
    rw [runAll_halted hCancelled hHalt] at hCalm hEnd
    obtain ⟨last, hLast, hNames⟩ := ih depth error hCalm hEnd
    refine ⟨_, last, List.length_cons, ?_, hNames⟩
    simp only [listingAll]
    rw [List.getElem?_append_left (List.getElem?_eq_some_iff.mp hLast).1]
    exact hLast
  case continued =>
    intro op rest scope inst surface hCancelled hHalt ih ihRest depth error hCalm hEnd
    rw [startedPaths_continued hCancelled hHalt]
    rw [runAll_continued hCancelled hHalt] at hCalm hEnd
    obtain ⟨n, last, hLength, hLast, hNames⟩ := ihRest depth error hCalm hEnd
    -- The rows of an operation that is done lie behind, so the last one started is among the rest.
    have hFirst := listing_length_of_finished hHalt depth
    refine ⟨(op.listing scope.path depth).length + n, last, ?_, ?_, hNames⟩
    · rw [List.length_cons, List.length_append, hLength, hFirst]
      omega
    · simp only [listingAll]
      rw [List.getElem?_append_right (Nat.le_add_right _ _), Nat.add_sub_cancel_left]
      exact hLast

end Operation

section Runs
variable (plan : Plan) (runId : String) (culture : Option String) (inst : Instance)
  (surface : Surface)

theorem PlanOf.summary_eq_listing : plan.summary = plan.listing.map Listed.row :=
  Operation.summaryRows_eq_listing.2 plan.operations "" 0

/-- The operations that a run starts without being cancelled are the first ones of the listing, in
order: all of them if it completes. If it fails, there is a last one, and the failure is that of this
one. -/
theorem PlanOf.run_starts_listing
    (hCalm : (plan.run runId culture inst surface).surface.cancelled = false) :
    let ran := plan.run runId culture inst surface
    let started := ran.events.filterMap Event.startedPath?
    plan.summary = plan.listing.map Listed.row ∧
      started <+: plan.summary.map SummaryRow.path ∧
      (∀ final, ran.result = .ok final → started = plan.summary.map SummaryRow.path) ∧
      ∀ failure, ran.result = .error failure →
        ∃ last, started.getLast? = some last.path ∧
          plan.listing[started.length - 1]? = some last ∧
          failure.error.Names last.path last.operation := by
  intro ran started
  have hStarted : started = (plan.trail runId culture inst surface).startedPaths :=
    plan.startedPaths_run runId culture inst surface
  have hRows := plan.summary_eq_listing
  obtain ⟨later, hPaths, hEnd⟩ := plan.trail_follows runId culture inst surface
  rw [List.nil_append, ← hStarted] at hPaths hEnd
  obtain ⟨-, hHalt⟩ := PlanOf.run_of_not_interrupted (PlanOf.not_interrupted hCalm)
  refine ⟨hRows, ⟨later, hPaths.symm⟩, fun final hFinal => ?_, fun failure hFailure => ?_⟩
  · have hFinal : (plan.run runId culture inst surface).result = .ok final := hFinal
    rw [hHalt, hFinal] at hEnd
    cases hEnd with
    | finished hLater => rw [hPaths, hLater, List.append_nil]
  · have hFailure : (plan.run runId culture inst surface).result = .error failure := hFailure
    rw [hFailure] at hHalt
    rw [run_surface] at hCalm
    obtain ⟨n, last, hLength, hLast, hNames⟩ :=
      Operation.run_names_last.2 _ _ _ _ 0 failure.error hCalm hHalt
    have hLength : started.length = n + 1 := (congrArg List.length hStarted).trans hLength
    have hLast : plan.listing[n]? = some last := hLast
    have hIndex : started.length - 1 = n := by omega
    refine ⟨last, ?_, by rwa [hIndex], hNames⟩
    calc started.getLast?
      _ = started[n]? := by rw [List.getLast?_eq_getElem?, hIndex]
      _ = (plan.summary.map SummaryRow.path)[n]? := by
        rw [hPaths, List.getElem?_append_left (by omega)]
      _ = some last.path := by
        rw [hRows, List.map_map, List.getElem?_map, hLast]
        rfl

end Runs

namespace Sample

/-- A stay needs a host who is given a badge, which a trip has no place for. -/
def tripPlan : Plan :=
  ⟨"Trip", none, .default, [], [
    .askText "purpose" "purpose" .text false {} none,
    .recurse "stay" ⟨"Stay", none, .default, [], [
      .askText "town" "town" .text false {} none,
      .recurse "host" ⟨"Host", none, .default, [⟨"badge", some .text⟩], [
        .askText "room" "room" .text false {} none]⟩]⟩,
    .askText "note" "note" .text false {} none]⟩

theorem trip_names_badge :
    let ran := tripPlan.run "1" none (.new "Trip") twoAnswers
    let started := ran.events.filterMap Event.startedPath?
    started = ["purpose", "stay", "stay.town", "stay.host"] ∧
      started <+: tripPlan.summary.map SummaryRow.path ∧
      ∃ failure, ran.result = .error failure ∧
        failure.error = .missingDependency "stay.host.badge" ∧
        ∃ last, started.getLast? = some last.path ∧
          tripPlan.listing[started.length - 1]? = some last ∧
          failure.error.Names last.path last.operation := by
  intro ran started
  have hFailed : ∃ failure, ran.result = .error failure ∧
      failure.error = .missingDependency "stay.host.badge" := ⟨_, rfl, rfl⟩
  obtain ⟨failure, hFailure, hError⟩ := hFailed
  obtain ⟨-, hPrefix, -, hLast⟩ :=
    tripPlan.run_starts_listing "1" none (.new "Trip") twoAnswers rfl
  exact ⟨rfl, hPrefix, failure, hFailure, hError, hLast failure hFailure⟩

end Sample
end FormFlow
