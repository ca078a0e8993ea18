import FormFlow.Proofs.Run.Moments
/-!
# What follows cancellation

Once the token of a run is cancelled no operation starts any more, at any depth,
nothing is asked for, shown or called, and the run does not complete if an
operation of its plan has been left. An operation asks for, shows and calls
everything before the work that may cancel the token is over, and a form looks at
the token before each of its operations.
-/
namespace FormFlow

/-- The event starts an operation, or is something that an operation asks for, shows or calls. -/
def Event.begins : Event → Bool
  | .textAsked _ | .selectionAsked _ | .statusShown _ | .sourceCalled _ _ | .converterCalled _ _
  | .stepCalled _ _ _ _ | .logged (.operationStarted _ _ _) => true
  | .statusEnded _ | .logged _ => false

theorem Event.startedPath?_of_begins {e : Event} (h : e.begins = false) : e.startedPath? = none := by
  cases e with
  | logged entry =>
    cases entry with
    | operationStarted path operation runId => cases h
    | _ => rfl
  | _ => rfl

namespace Moment

/-- Once the token is cancelled, whatever is observed begins nothing. -/
def Quiet (moments : List Moment) : Prop :=
  moments.Pairwise fun m n => m = .cancelled → ∃ e, n = .observed e ∧ e.begins = false

theorem quiet_observed (events : List Event) : Quiet (events.map observed) := by
  refine List.pairwise_map.mpr (List.pairwise_of_forall fun e f h => ?_)
  cases h

theorem quiet_token (b : Bool) : Quiet (token b) := by
  cases b <;> simp [Quiet, token]

theorem Quiet.cons {moments : List Moment} (h : Quiet moments) (e : Event) :
    Quiet (.observed e :: moments) := by
  refine List.pairwise_cons.mpr ⟨fun m _ hCancelled => ?_, h⟩
  cases hCancelled

theorem Quiet.append {first later : List Moment} (hFirst : Quiet first) (hLater : Quiet later)
    (h : .cancelled ∈ first → ∀ m ∈ later, ∃ e, m = .observed e ∧ e.begins = false) :
    Quiet (first ++ later) := by
  refine List.pairwise_append.mpr ⟨hFirst, hLater, fun m hm n hn hCancelled => ?_⟩
  exact h (hCancelled ▸ hm) n hn

theorem Quiet.after {before after : List Moment} (h : Quiet (before ++ .cancelled :: after)) :
    ∀ m ∈ after, ∃ e, m = .observed e ∧ e.begins = false := by
  intro m hm
  exact (List.pairwise_cons.mp (List.pairwise_append.mp h).2.1).1 m hm rfl

end Moment

theorem Trail.OfWork.quiet_moments {surface : Surface} {t : Trail} (h : t.OfWork surface) :
    Moment.Quiet t.moments := by
  rcases h.moments_eq with ⟨hMoments, -⟩ | ⟨before, e, after, hMoments, hEnded⟩
  · rw [hMoments]
    exact Moment.quiet_observed t.events
  · have hOpened := (Moment.quiet_token t.surface.cancelled).cons e
    have hNot := Moment.not_mem_observed before
    rw [hMoments]
    refine ((Moment.quiet_observed before).append hOpened fun hMem => absurd hMem hNot).append
      (Moment.quiet_observed after) fun _ m hm => ?_
    obtain ⟨f, hf, rfl⟩ := List.mem_map.mp hm
    obtain ⟨ok, rfl⟩ := hEnded f hf
    exact ⟨_, rfl, rfl⟩

namespace Operation

theorem quiet_moments :
    (∀ (op : Operation) (scope : Scope) (inst : Instance) (surface : Surface),
      surface.cancelled = false → Moment.Quiet (op.moments scope inst surface)) ∧
    ∀ (ops : List Operation) (scope : Scope) (inst : Instance) (surface : Surface),
      Moment.Quiet (momentsAll ops scope inst surface) := by
  apply run_induction
  case work =>
    intro op scope inst surface hWork _
    rw [moments_of_work hWork]
    exact (work_trail hWork scope inst surface).quiet_moments
  case refused =>
    intro member plan scope inst surface error hChild _
    rw [moments_recurse_error hChild]
    exact .nil
  case nested =>
    intro member plan scope inst surface child hChild ih _
    rw [moments_recurse_ok hChild]
    exact ih
  case finished =>
    intro scope inst surface
    simp only [momentsAll]
    exact .nil
  case cancelled =>
    intro op rest scope inst surface hCancelled
    rw [momentsAll_cancelled _ hCancelled]
    exact .nil
  case halted =>
    intro op rest scope inst surface halt hCancelled hHalt ih
    rw [momentsAll_halted hCancelled hHalt]
    exact (ih hCancelled).cons _
  case continued =>
    intro op rest scope inst surface hCancelled hHalt ih ihRest
    rw [momentsAll_continued hCancelled hHalt]
    refine ((ih hCancelled).cons _).append ihRest fun hMem m hm => ?_
    have hToken : (op.run scope inst surface).surface.cancelled = true := by
      refine (cancelled_mem_moments.1 op scope inst surface hCancelled).mp ?_
      simpa using hMem
    rw [momentsAll_cancelled _ hToken] at hm
    cases hm

end Operation

section Runs
variable (plan : Plan) (runId : String) (culture : Option String) (inst : Instance)
  (surface : Surface)

theorem PlanOf.begins_endEvent (t : Trail) : (plan.endEvent runId t).begins = false := by
  unfold endEvent
  split <;> rfl

theorem PlanOf.quiet_moments : Moment.Quiet (plan.moments runId culture inst surface) := by
  have hOperations := Operation.quiet_moments.2 plan.operations
    ⟨runId, "", plan.culture <|> culture⟩ inst surface
  have hEnd : ∀ m ∈ [Moment.observed (plan.endEvent runId (plan.trail runId culture inst surface))],
      ∃ e, m = .observed e ∧ e.begins = false := by
    intro m hm
    exact ⟨_, List.mem_singleton.mp hm, plan.begins_endEvent runId _⟩
  have hBegun := (hOperations.cons (.logged (.runStarted plan.typeName plan.operations.length runId)))
  refine ((Moment.quiet_token _).append hBegun fun hMem m hm => ?_).append
    (List.pairwise_singleton _ _) fun _ => hEnd
  have hToken := Moment.mem_token.mp hMem
  rw [Operation.momentsAll_cancelled _ hToken] at hm
  exact ⟨_, List.mem_singleton.mp hm, rfl⟩

theorem PlanOf.started_moments :
    (plan.moments runId culture inst surface).filterMap Moment.startedPath? =
      (plan.trail runId culture inst surface).startedPaths := by
  have hEvents := congrArg (List.filterMap Event.startedPath?)
    (plan.events_moments runId culture inst surface)
  rw [List.filterMap_filterMap] at hEvents
  calc (plan.moments runId culture inst surface).filterMap Moment.startedPath?
    _ = (plan.run runId culture inst surface).events.filterMap Event.startedPath? := hEvents
    _ = (plan.trail runId culture inst surface).startedPaths :=
      plan.startedPaths_run runId culture inst surface

theorem Moment.started_quiet {after : List Moment}
    (h : ∀ m ∈ after, ∃ e, m = .observed e ∧ e.begins = false) :
    after.filterMap startedPath? = [] := by
  refine List.filterMap_eq_nil_iff.mpr fun m hm => ?_
  obtain ⟨e, rfl, hBegins⟩ := h m hm
  exact Event.startedPath?_of_begins hBegins

theorem PlanOf.error_of_not_finished {halt : Halt}
    (h : (plan.trail runId culture inst surface).halt = some halt) :
    ∃ failure, (plan.run runId culture inst surface).result = .error failure := by
  rw [run_result]
  cases halt with
  | failed error =>
    simp only [Trail.failure?, h]
    exact ⟨_, rfl⟩
  | interrupted pending =>
    simp only [Trail.failure?, h]
    exact ⟨_, rfl⟩

/-- The moments of a run are its events and, if its token is cancelled, the cancellation, before the run
or behind an event that has just opened work. Whatever is observed from then on begins nothing; the
operations started by then are the first ones of the summary, and if they are not all of them the run
fails. -/
theorem PlanOf.nothing_begins_once_cancelled :
    (plan.moments runId culture inst surface).filterMap Moment.event? =
        (plan.run runId culture inst surface).events ∧
      (.cancelled ∈ plan.moments runId culture inst surface ↔
        (plan.run runId culture inst surface).surface.cancelled = true) ∧
      ∀ before after, plan.moments runId culture inst surface = before ++ .cancelled :: after →
        (before = [] ∧ surface.cancelled = true ∨
          ∃ e, before.getLast? = some (.observed e) ∧ e.opensWork = true) ∧
        (∀ m ∈ after, ∃ e, m = .observed e ∧ e.begins = false) ∧
          ∃ left, plan.summary.map SummaryRow.path = before.filterMap Moment.startedPath? ++ left ∧
            (left ≠ [] → ∃ failure,
              (plan.run runId culture inst surface).result = .error failure) := by
  refine ⟨plan.events_moments runId culture inst surface,
    plan.cancelled_mem_moments runId culture inst surface, fun before after hSplit => ?_⟩
  have hQuiet := plan.quiet_moments runId culture inst surface
  rw [hSplit] at hQuiet
  have hAfter := hQuiet.after
  have hStarted := plan.started_moments runId culture inst surface
  rw [hSplit, List.filterMap_append, List.filterMap_cons_none rfl, Moment.started_quiet hAfter,
    List.append_nil] at hStarted
  obtain ⟨left, hPaths, hEnd⟩ := plan.trail_follows runId culture inst surface
  refine ⟨plan.cancelled_placed runId culture inst surface hSplit, hAfter, left, ?_, fun hLeft => ?_⟩
  · rw [hPaths, hStarted, List.nil_append]
  · cases hHalt : (plan.trail runId culture inst surface).halt with
    | some halt => exact plan.error_of_not_finished runId culture inst surface hHalt
    | none =>
      rw [hHalt] at hEnd
      cases hEnd with
      | finished hNone => exact absurd hNone hLeft

end Runs

namespace Sample

/-- Leaving cancels the token from inside the step, which goes on and succeeds. -/
def visitPlan : Plan :=
  ⟨"Visit", none, .default, [], [
    .recurse "guest" ⟨"Guest", none, .default, [], [
      .runStep "leave" false {} (.sync fun inst => ⟨inst.set "left" (.bool true), true, .ok ()⟩),
      .askText "reason" "reason" .text false {} none]⟩,
    .askText "note" "note" .text false {} none]⟩

theorem visit_left :
    ∃ before after, visitPlan.moments "1" none (.new "Visit") twoAnswers =
        before ++ .cancelled :: after ∧
      before.filterMap Moment.startedPath? = ["guest", "guest.leave"] ∧
      (∀ m ∈ after, ∃ e, m = .observed e ∧ e.begins = false) ∧
      ∃ failure, (visitPlan.run "1" none (.new "Visit") twoAnswers).result = .error failure := by
  obtain ⟨-, -, hSplits⟩ := visitPlan.nothing_begins_once_cancelled "1" none (.new "Visit") twoAnswers
  obtain ⟨before, after, hSplit, hStarted⟩ :
      ∃ before after, visitPlan.moments "1" none (.new "Visit") twoAnswers =
        before ++ .cancelled :: after ∧
          before.filterMap Moment.startedPath? = ["guest", "guest.leave"] :=
    ⟨[_, _, _, _], [_], rfl, rfl⟩
  obtain ⟨-, hAfter, left, hPaths, hFails⟩ := hSplits before after hSplit
  refine ⟨before, after, hSplit, hStarted, hAfter, hFails ?_⟩
  rintro rfl
  rw [hStarted] at hPaths
  cases congrArg List.length hPaths

end Sample
end FormFlow
