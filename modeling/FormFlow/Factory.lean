import FormFlow.PlanCache
import FormFlow.Record
import FormFlow.Run.Executor
import FormFlow.Settings
/-!
# Form factories

A factory builds and runs the forms of a catalog on one prompting surface. It
compiles plans on first use, under the settings in force, and keeps them.
-/
namespace FormFlow

inductive FormError where
  | model (error : ModelError)
  | construction (typeName : String) (error : ExecutionError)
  | run (failure : RunFailure)
  | decode (error : RecordError)
  deriving Inhabited

def FormError.message : FormError → String
  | .model error => error.message
  | .construction typeName error => s!"cannot construct form '{typeName}': {error.message}"
  | .run failure => failure.message
  | .decode error => s!"typed form conversion failed: {error.message}"

structure Factory where
  catalog : Catalog
  surface : Surface
  runId : String
  settings : Settings := {}
  cache : PlanCache := {}

/-- The value of a call, what was observed of it, and the factory after it. -/
structure Called (α : Type) where
  events : List Event
  value : α
  factory : Factory

def Called.toTyped (c : Called (Except FormError Instance)) (view : TypedView) :
    Called (Except FormError Json) :=
  { c with value := c.value.bind fun inst => (inst.toTyped view).mapError .decode }

namespace Factory

def withSettings (f : Factory) (settings : Settings) : Factory := { f with settings }

def cancel (f : Factory) : Factory := { f with surface := f.surface.cancel }

def plan (f : Factory) (typeName : String) : Called (Except ModelError Plan) :=
  let (traced, cache) := f.cache.getOrCompile f.catalog f.settings.maxNestingDepth typeName
  ⟨traced.log.map .logged, traced.result.map CachedPlan.plan, { f with cache }⟩

def execute (f : Factory) (plan : Plan) (inst : Instance) : Called (Except FormError Instance) :=
  let ran := plan.run f.runId f.settings.defaultCulture inst f.surface
  ⟨ran.events, ran.result.mapError .run, { f with surface := ran.surface }⟩

def withPlan {α : Type} (f : Factory) (typeName : String)
    (go : Factory → Plan → Called (Except FormError α)) : Called (Except FormError α) :=
  let planned := f.plan typeName
  match planned.value with
  | .error error => ⟨planned.events, .error (.model error), planned.factory⟩
  | .ok plan =>
    let next := go planned.factory plan
    { next with events := planned.events ++ next.events }

def build (f : Factory) (typeName : String) (supplied : Fields) :
    Called (Except FormError Instance) :=
  f.withPlan typeName fun f plan =>
    match plan.construct supplied with
    | .error error => ⟨[], .error (.construction typeName error), f⟩
    | .ok inst => f.execute plan inst

def run (f : Factory) (existing : Instance) : Called (Except FormError Instance) :=
  f.withPlan existing.typeName fun f plan => f.execute plan existing

/-- Goes on only if the plan of the type has no asynchronous operation. -/
def whenSync {α : Type} (f : Factory) (typeName : String)
    (go : Factory → Called (Except FormError α)) : Called (Except FormError α) :=
  f.withPlan typeName fun f plan =>
    if plan.isAsync then ⟨[], .error (.model (.asyncPlanRequiresAsyncRun typeName)), f⟩ else go f

def buildBlocking (f : Factory) (typeName : String) (supplied : Fields) :
    Called (Except FormError Instance) :=
  f.whenSync typeName fun f => f.build typeName supplied

def runBlocking (f : Factory) (existing : Instance) : Called (Except FormError Instance) :=
  f.whenSync existing.typeName fun f => f.run existing

def buildTyped (f : Factory) (view : TypedView) (typeName : String) (supplied : Fields) :
    Called (Except FormError Json) :=
  (f.build typeName supplied).toTyped view

def runTyped (f : Factory) (view : TypedView) (typeName : String) (existing : Json) :
    Called (Except FormError Json) :=
  match Instance.ofTyped typeName existing with
  | .error error => ⟨[], .error (.decode error), f⟩
  | .ok inst => (f.run inst).toTyped view

end Factory
end FormFlow
