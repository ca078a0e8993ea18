import FormFlow.Run.Error
import FormFlow.Plan.Basic
import FormFlow.Coercion
/-!
# Execution

The operations of a plan run one after another on a live instance; the first
failure ends the run. Cancellation is looked at before every operation and
whenever work that has suspended is about to be resumed. In the latter case all
work in progress is given up at once, by the root form: the operation of the
root form that was in progress is the one named, and of its nested form only the
values that stand in that form itself are kept.
-/
namespace FormFlow

structure Scope where
  runId : String
  path : String
  culture : Option String

/-- Work that was suspended when cancellation was noticed: the member of the operation in progress
and, if it nests a form, how far that form had got and the work in progress there. -/
inductive Pending where
  | work (member : String)
  | form (member : String) (inst : Instance) (inner : Pending)

namespace Pending

def member : Pending → String
  | .work member => member
  | .form member _ _ => member

/-- What a root form keeps when it gives up its work: its own values, and in the member of a nested
form the values of that form itself. -/
def keep (inst : Instance) : Pending → Instance
  | .work _ => inst
  | .form member child _ => inst.set member child.toValue

end Pending

inductive Halt where
  | failed (error : ExecutionError)
  | interrupted (pending : Pending)

structure Trail where
  events : List Event
  surface : Surface
  inst : Instance
  completed : Nat
  halt : Option Halt

namespace Trail

def done (events : List Event) (surface : Surface) (inst : Instance) : Trail :=
  ⟨events, surface, inst, 1, none⟩

def fail (events : List Event) (surface : Surface) (inst : Instance) (error : ExecutionError) :
    Trail := ⟨events, surface, inst, 0, some (.failed error)⟩

def interrupt (events : List Event) (surface : Surface) (inst : Instance) (pending : Pending) :
    Trail := ⟨events, surface, inst, 0, some (.interrupted pending)⟩

end Trail

def Surface.await (surface : Surface) : Option Reply × Surface :=
  let (answer, rest) := surface.next
  let settled := answer.settle surface.cancelled
  (settled.result, { rest with cancelled := settled.cancelled })

def Scope.askText (scope : Scope) (inst : Instance) (surface : Surface) (member title : String)
    (type : FieldType) (secret : Bool) (search : SearchOptions) (culture : Option String) : Trail :=
  let path := joinPath scope.path member
  let request : TextRequest :=
    ⟨title, secret, search.enabled, search.placeholder, culture <|> scope.culture⟩
  let events := [Event.textAsked request]
  match surface.await with
  | (none, surface) => .interrupt events surface inst (.work member)
  | (some reply, surface) =>
    match reply.text with
    | .error cause => .fail events surface inst (.prompt path cause)
    | .ok answer =>
      match coerce type answer with
      | .error cause => .fail events surface inst (.prompt path (.invalidInput cause.message))
      | .ok value => .done events surface (inst.set member value)

def Source.fetchEvents (source : Source) (inst : Instance) : List Event :=
  match source with
  | .property _ => []
  | .method name _ => [.sourceCalled name inst.typeName]

def renderEvents (converter : Option Converter) (candidates : List Json) : List Event :=
  match converter with
  | some converter => candidates.map fun value => .converterCalled converter.name value
  | none => []

def renderLabel (converter : Option Converter) (candidate : Json) : String :=
  match converter with
  | some converter => converter.render candidate
  | none => candidate.display

def Scope.askSelect (scope : Scope) (inst : Instance) (surface : Surface) (member title : String)
    (source : Source) (converter : Option Converter) (search : SearchOptions)
    (culture : Option String) : Trail :=
  let path := joinPath scope.path member
  let fetched := source.fetchEvents inst
  match source.fetch inst with
  | .error cause => .fail fetched surface inst (.source path cause)
  | .ok [] => .fail fetched surface inst (.prompt path (.noCandidates path))
  | .ok candidates =>
    let request : SelectRequest :=
      ⟨title, candidates.map (renderLabel converter), search.enabled, search.placeholder,
        culture <|> scope.culture⟩
    let events := fetched ++ renderEvents converter candidates ++ [.selectionAsked request]
    match surface.await with
    | (none, surface) => .interrupt events surface inst (.work member)
    | (some reply, surface) =>
      match reply.selection with
      | .error cause => .fail events surface inst (.prompt path cause)
      | .ok index =>
        match candidates[index]? with
        | some chosen => .done events surface (inst.set member chosen)
        | none =>
          .fail events surface inst (.prompt path (.invalidSelection index candidates.length))

/-- Runs a step. The call of an asynchronous callable and the first poll of its work count as one
moment, once the status is shown. -/
def Scope.runStep (scope : Scope) (inst : Instance) (surface : Surface) (member : String)
    (status : StepOptions) (body : StepBody) : Trail :=
  let path := joinPath scope.path member
  let called := Event.stepCalled member body.isAsync inst.typeName inst.fields
  match body with
  | .sync run =>
    let outcome := run inst
    let surface := surface.cancelIf outcome.cancels
    match outcome.result with
    | .ok () => .done [called] surface outcome.inst
    | .error cause => .fail [called] surface outcome.inst (.step path cause)
  | .async run =>
    let settled := (run inst).settle surface.cancelled
    let surface := { surface with cancelled := settled.cancelled }
    let shown := if status.useStatus then [.statusShown (status.statusText.getD member)] else []
    let ended (ok : Bool) : List Event := if status.useStatus then [.statusEnded ok] else []
    match settled.result with
    | none => .interrupt (shown ++ [called]) surface settled.state (.work member)
    | some (.ok ()) => .done (shown ++ [called] ++ ended true) surface settled.state
    | some (.error cause) =>
      .fail (shown ++ [called] ++ ended false) surface settled.state (.step path cause)

def PlanOf.construct (plan : Plan) (supplied : Fields) : Except ExecutionError Instance :=
  match plan.missingDependency? supplied with
  | some dep => .error (.missingDependency dep.name)
  | none => .ok ⟨plan.typeName, supplied⟩

/-- The instance that a nested form runs on: the object in its member, or a fresh one. -/
def PlanOf.nestedInstance (plan : Plan) (path : String) (held : Option Json) :
    Except ExecutionError Instance :=
  match held with
  | some (.obj fields) => .ok ⟨plan.typeName, fields⟩
  | none | some .null =>
    match plan.missingDependency? [] with
    | some dep => .error (.missingDependency (joinPath path dep.name))
    | none => .ok (.new plan.typeName)
  | some other => .error (.invalidValue path plan.typeName other)

def Scope.enter (scope : Scope) (path : String) (culture : Option String) : Scope :=
  { scope with path := path, culture := culture <|> scope.culture }

/-- The trail of a nested form as one of the operation that nests it: the values collected in the
form are stored in the member, unless the work of the operation is given up. -/
def Trail.nest (inner : Trail) (member : String) (inst : Instance) : Trail :=
  let stored := inst.set member inner.inst.toValue
  match inner.halt with
  | none => .done inner.events inner.surface stored
  | some (.failed error) => .fail inner.events inner.surface stored error
  | some (.interrupted pending) =>
    .interrupt inner.events inner.surface inst (.form member inner.inst pending)

mutual
def Operation.run (op : Operation) (scope : Scope) (inst : Instance) (surface : Surface) : Trail :=
  match op with
  | .askText member title type secret search culture =>
    scope.askText inst surface member title type secret search culture
  | .askSelect member title source converter search culture =>
    scope.askSelect inst surface member title source converter search culture
  | .runStep member _ status body => scope.runStep inst surface member status body
  | .recurse member ⟨typeName, culture, strategy, dependencies, operations⟩ =>
    let path := joinPath scope.path member
    match PlanOf.nestedInstance ⟨typeName, culture, strategy, dependencies, operations⟩ path
        (inst.get? member) with
    | .error error => .fail [] surface inst error
    | .ok child =>
      (Operation.runAll operations (scope.enter path culture) child surface).nest member inst

def Operation.runAll (ops : List Operation) (scope : Scope) (inst : Instance) (surface : Surface) :
    Trail :=
  match ops with
  | [] => ⟨[], surface, inst, 0, none⟩
  | op :: rest =>
    let path := joinPath scope.path op.member
    if surface.cancelled then .fail [] surface inst (.cancelled path)
    else
      let started := Event.logged (.operationStarted path op.label scope.runId)
      let first := op.run scope inst surface
      match first.halt with
      | some halt => { first with events := started :: first.events, halt := some halt }
      | none =>
        let later := Operation.runAll rest scope first.inst first.surface
        { later with
          events := started :: first.events ++ later.events
          completed := first.completed + later.completed }
end

structure RunResult where
  events : List Event
  surface : Surface
  result : Except RunFailure Instance

def PlanOf.trail (plan : Plan) (runId : String) (defaultCulture : Option String) (inst : Instance)
    (surface : Surface) : Trail :=
  Operation.runAll plan.operations ⟨runId, "", plan.culture <|> defaultCulture⟩ inst surface

def Trail.failure? (t : Trail) : Option (ExecutionError × Instance) :=
  match t.halt with
  | none => none
  | some (.failed error) => some (error, t.inst)
  | some (.interrupted pending) => some (.cancelled pending.member, pending.keep t.inst)

/-- Runs a plan on an instance whose dependencies are set. -/
def PlanOf.run (plan : Plan) (runId : String) (defaultCulture : Option String) (inst : Instance)
    (surface : Surface) : RunResult :=
  let trail := plan.trail runId defaultCulture inst surface
  let started := Event.logged (.runStarted plan.typeName plan.operations.length runId)
  match trail.failure? with
  | none =>
    ⟨started :: trail.events ++ [.logged (.runCompleted plan.typeName trail.completed runId)],
      trail.surface, .ok trail.inst⟩
  | some (error, reached) =>
    ⟨started :: trail.events ++ [.logged
        (.runFailed plan.typeName error.path trail.completed error.message runId)],
      trail.surface, .error ⟨runId, plan.typeName, error, reached⟩⟩

end FormFlow
