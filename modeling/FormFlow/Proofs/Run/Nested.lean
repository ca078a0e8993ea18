import FormFlow.Proofs.Run.Course
/-!
# Nested runs and standalone runs

A form that is nested at a path runs as it would by itself: with the same
answers it makes the same requests and calls and collects the same values. Only
the paths that it tells differ; each has the path of the form in front. The path
that a surface itself names in a refusal is no path of a form and stays.
-/
namespace FormFlow

theorem joinPath_ne_empty {member : String} (h : member ≠ "") (base : String) :
    joinPath base member ≠ "" := by
  by_cases hBase : base = ""
  · rw [hBase, joinPath_empty]
    exact h
  · rw [joinPath_of_ne hBase]
    intro hEmpty
    have hLength := congrArg String.length hEmpty
    rw [String.length_append, String.length_append, String.length_empty] at hLength
    exact h (String.length_eq_zero_iff.mp (by omega))

theorem joinPath_assoc {q p : String} (hq : q ≠ "") (hp : p ≠ "") (member : String) :
    joinPath (joinPath q p) member = joinPath q (joinPath p member) := by
  rw [joinPath_of_ne (joinPath_ne_empty hp q), joinPath_of_ne hq, joinPath_of_ne hp,
    joinPath_of_ne hq]
  simp only [String.append_assoc]

section Below

def Event.below (q runId : String) : Event → Event
  | .logged (.operationStarted path operation _) =>
    .logged (.operationStarted (joinPath q path) operation runId)
  | event => event

def Event.isRequest : Event → Bool
  | .textAsked _ | .selectionAsked _ => true
  | _ => false

def PromptError.below (q : String) : PromptError → PromptError
  | .noCandidates path => .noCandidates (joinPath q path)
  | cause => cause

/-- The failure with its paths put below a path; the cause of a prompt that was `asked` for comes
from the surface. -/
def ExecutionError.below (q : String) (asked : Bool) : ExecutionError → ExecutionError
  | .prompt path cause => .prompt (joinPath q path) (if asked then cause else cause.below q)
  | .source path cause => .source (joinPath q path) cause
  | .step path cause => .step (joinPath q path) cause
  | .cancelled path => .cancelled (joinPath q path)
  | .missingDependency path => .missingDependency (joinPath q path)
  | .invalidValue path typeName found => .invalidValue (joinPath q path) typeName found

def Halt.below (q : String) (asked : Bool) : Halt → Halt
  | .failed error => .failed (error.below q asked)
  | .interrupted pending => .interrupted pending

def Trail.asked (t : Trail) : Bool := t.events.getLast?.any Event.isRequest

def Trail.below (q runId : String) (t : Trail) : Trail :=
  { t with events := t.events.map (Event.below q runId), halt := t.halt.map (Halt.below q t.asked) }

structure Scope.Below (q : String) (scope lower : Scope) : Prop where
  culture : lower.culture = scope.culture
  path : ∀ member, member ≠ "" →
    joinPath lower.path member = joinPath q (joinPath scope.path member)

end Below

namespace Operation

mutual
/-- The operation and all operations nested in it have members with names. -/
def Named : Operation → Prop
  | .recurse member ⟨_, _, _, _, operations⟩ => member ≠ "" ∧ AllNamed operations
  | .askText member _ _ _ _ _ => member ≠ ""
  | .askSelect member _ _ _ _ _ => member ≠ ""
  | .runStep member _ _ _ => member ≠ ""

def AllNamed : List Operation → Prop
  | [] => True
  | op :: rest => op.Named ∧ AllNamed rest
end

theorem Named.member_ne {op : Operation} (h : op.Named) : op.member ≠ "" := by
  cases op with
  | recurse member plan =>
    cases plan
    exact h.1
  | _ => exact h

theorem Named.operations {member : String} {plan : Plan} (h : (recurse member plan).Named) :
    AllNamed plan.operations := by
  cases plan
  exact h.2

end Operation

namespace Scope.Below
variable {q : String} {scope lower : Scope}

theorem root (q ownId runId : String) (culture : Option String) :
    Scope.Below q ⟨ownId, "", culture⟩ ⟨runId, q, culture⟩ :=
  ⟨rfl, fun member _ => by rw [joinPath_empty]⟩

theorem enter (h : Scope.Below q scope lower) (hq : q ≠ "") {member : String} (hm : member ≠ "")
    (culture : Option String) :
    Scope.Below q (scope.enter (joinPath scope.path member) culture)
      (lower.enter (joinPath lower.path member) culture) where
  culture := by simp only [Scope.enter, h.culture]
  path other _ := by
    simp only [Scope.enter]
    rw [h.path member hm]
    exact joinPath_assoc hq (joinPath_ne_empty hm _) other

end Scope.Below

namespace Trail
variable {q runId : String} {events : List Event} (surface : Surface) (inst : Instance)

theorem below_done (h : events.map (Event.below q runId) = events) :
    (done events surface inst).below q runId = done events surface inst := by
  simp only [below, done, h, Option.map_none]

theorem below_interrupt (h : events.map (Event.below q runId) = events) (pending : Pending) :
    (interrupt events surface inst pending).below q runId = interrupt events surface inst pending := by
  simp only [below, interrupt, h, Option.map_some, Halt.below]

theorem below_fail (h : events.map (Event.below q runId) = events) (error : ExecutionError) :
    (fail events surface inst error).below q runId =
      fail events surface inst (error.below q (events.getLast?.any Event.isRequest)) := by
  simp only [below, fail, h, asked, Option.map_some, Halt.below]

end Trail

theorem Source.map_below_fetchEvents (q runId : String) (source : Source) (inst : Instance) :
    (source.fetchEvents inst).map (Event.below q runId) = source.fetchEvents inst := by
  cases source <;> rfl

theorem Source.not_asked_fetchEvents (source : Source) (inst : Instance) :
    (source.fetchEvents inst).getLast?.any Event.isRequest = false := by
  cases source <;> rfl

theorem map_below_renderEvents (q runId : String) (converter : Option Converter)
    (candidates : List Json) :
    (renderEvents converter candidates).map (Event.below q runId) = renderEvents converter candidates := by
  cases converter with
  | none => rfl
  | some converter => simp [renderEvents, Function.comp_def, Event.below]

namespace Scope.Below
variable {q : String} {scope lower : Scope} (h : Scope.Below q scope lower) (inst : Instance)
  (surface : Surface) {member : String} (hm : member ≠ "")
include h hm

theorem askText (title : String) (type : FieldType) (secret : Bool) (search : SearchOptions)
    (culture : Option String) :
    lower.askText inst surface member title type secret search culture =
      (scope.askText inst surface member title type secret search culture).below q lower.runId := by
  simp only [Scope.askText, h.path member hm, h.culture]
  repeat' split
  all_goals rfl

theorem askSelect (title : String) (source : Source) (converter : Option Converter)
    (search : SearchOptions) (culture : Option String) :
    lower.askSelect inst surface member title source converter search culture =
      (scope.askSelect inst surface member title source converter search culture).below q lower.runId := by
  have hFetched := source.map_below_fetchEvents q lower.runId inst
  have hEvents (candidates : List Json) (request : SelectRequest) :
      (source.fetchEvents inst ++ renderEvents converter candidates ++
          [Event.selectionAsked request]).map (Event.below q lower.runId) =
        source.fetchEvents inst ++ renderEvents converter candidates ++
          [Event.selectionAsked request] := by
    rw [List.map_append, List.map_append, hFetched, map_below_renderEvents]
    rfl
  have hAsked (candidates : List Json) (request : SelectRequest) :
      (source.fetchEvents inst ++ renderEvents converter candidates ++
        [Event.selectionAsked request]).getLast?.any Event.isRequest = true := by
    rw [List.getLast?_append]
    rfl
  simp only [Scope.askSelect, h.path member hm, h.culture]
  split
  · rw [Trail.below_fail _ _ hFetched]
    rfl
  · rw [Trail.below_fail _ _ hFetched, source.not_asked_fetchEvents]
    rfl
  · split
    · exact (Trail.below_interrupt _ _ (hEvents _ _) _).symm
    · split
      · rw [Trail.below_fail _ _ (hEvents _ _), hAsked]
        rfl
      · split
        · exact (Trail.below_done _ _ (hEvents _ _)).symm
        · rw [Trail.below_fail _ _ (hEvents _ _), hAsked]
          rfl

theorem runStep (status : StepOptions) (body : StepBody) :
    lower.runStep inst surface member status body =
      (scope.runStep inst surface member status body).below q lower.runId := by
  simp only [Scope.runStep, h.path member hm]
  repeat' split
  all_goals rfl

end Scope.Below

namespace Operation

end Operation

namespace Trail

end Trail

namespace Operation
variable {q : String}

end Operation

section Standalone

def Event.isOutward (event : Event) : Bool := event.logEvent?.isNone

theorem PlanOf.outward_run (plan : Plan) (runId : String) (culture : Option String)
    (inst : Instance) (surface : Surface) :
    (plan.run runId culture inst surface).events.filter Event.isOutward =
      (plan.trail runId culture inst surface).events.filter Event.isOutward := by
  simp only [run]
  split <;> simp [Event.isOutward, Event.logEvent?]

theorem Trail.nest_of_not_interrupted {inner : Trail}
    (h : ∀ pending, inner.halt ≠ some (.interrupted pending)) (member : String) (inst : Instance) :
    (inner.nest member inst).inst = inst.set member inner.inst.toValue ∧
      (inner.nest member inst).halt = inner.halt := by
  unfold nest
  split
  · rename_i hHalt
    exact ⟨rfl, hHalt.symm⟩
  · rename_i error hHalt
    exact ⟨rfl, hHalt.symm⟩
  · rename_i pending hHalt
    exact absurd hHalt (h pending)

theorem PlanOf.not_interrupted {plan : Plan} {runId : String} {culture : Option String}
    {inst : Instance} {surface : Surface}
    (h : (plan.run runId culture inst surface).surface.cancelled = false) :
    ∀ pending, (plan.trail runId culture inst surface).halt ≠ some (.interrupted pending) := by
  intro pending hHalt
  have hCancelled := Operation.cancelled_of_interrupted.2 _ _ _ _ pending hHalt
  rw [← PlanOf.trail, ← PlanOf.run_surface, h] at hCancelled
  cases hCancelled

theorem PlanOf.run_of_not_interrupted {plan : Plan} {runId : String} {culture : Option String}
    {inst : Instance} {surface : Surface}
    (h : ∀ pending, (plan.trail runId culture inst surface).halt ≠ some (.interrupted pending)) :
    (plan.run runId culture inst surface).reached = (plan.trail runId culture inst surface).inst ∧
      (plan.trail runId culture inst surface).halt =
        match (plan.run runId culture inst surface).result with
        | .ok _ => none
        | .error failure => some (.failed failure.error) := by
  rw [run_reached, run_result, Trail.kept, Trail.failure?]
  cases hHalt : (plan.trail runId culture inst surface).halt with
  | none => exact ⟨rfl, rfl⟩
  | some halt =>
    cases halt with
    | failed error => exact ⟨rfl, rfl⟩
    | interrupted pending => exact absurd hHalt (h pending)

/-- The instance that a nested form runs on: the object in its member or, if nothing is there, a
fresh one of a form without dependencies. -/
def PlanOf.heldInstance? (plan : Plan) : Option Json → Option Instance
  | some (.obj fields) => some ⟨plan.typeName, fields⟩
  | none | some .null => if plan.dependencies.isEmpty then some (.new plan.typeName) else none
  | some _ => none

theorem PlanOf.missingDependency?_nil (plan : Plan) :
    plan.missingDependency? [] = plan.dependencies.head? := by
  unfold missingDependency?
  cases plan.dependencies with
  | nil => rfl
  | cons dep rest => simp

theorem PlanOf.nestedInstance_of_held {plan : Plan} {held : Option Json} {child : Instance}
    (h : plan.heldInstance? held = some child) (path : String) :
    plan.nestedInstance path held = .ok child := by
  unfold heldInstance? at h
  split at h
  · cases h
    rfl
  · split at h <;> cases h
    rename_i hNone
    simp only [nestedInstance, missingDependency?_nil, List.isEmpty_iff.mp hNone, List.head?_nil]
  · split at h <;> cases h
    rename_i hNone
    simp only [nestedInstance, missingDependency?_nil, List.isEmpty_iff.mp hNone, List.head?_nil]
  · cases h

theorem PlanOf.nestedInstance_of_not_held {plan : Plan} {held : Option Json}
    (h : plan.heldInstance? held = none) (path : String) :
    ∃ error, plan.nestedInstance path held = .error error := by
  unfold heldInstance? at h
  split at h
  · cases h
  · split at h
    · cases h
    · rename_i hSome
      obtain ⟨dep, rest, hDependencies⟩ := List.exists_cons_of_ne_nil (mt List.isEmpty_iff.mpr hSome)
      simp only [nestedInstance, missingDependency?_nil, hDependencies, List.head?_cons]
      exact ⟨_, rfl⟩
  · split at h
    · cases h
    · rename_i hSome
      obtain ⟨dep, rest, hDependencies⟩ := List.exists_cons_of_ne_nil (mt List.isEmpty_iff.mpr hSome)
      simp only [nestedInstance, missingDependency?_nil, hDependencies, List.head?_cons]
      exact ⟨_, rfl⟩
  · rename_i value hNotObject hNotNull
    cases value with
    | obj fields => exact absurd rfl (hNotObject fields)
    | null => exact absurd rfl hNotNull
    | _ => exact ⟨_, rfl⟩

end Standalone

end FormFlow
