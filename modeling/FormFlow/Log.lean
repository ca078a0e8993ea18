import FormFlow.ModelError
import FormFlow.Model.Basic
/-!
# Log entries

What the compilation and the run of forms report, and computations that report
on the way: `Traced` pairs a result, which may be a defect of the form, with
the reports made until then.
-/
namespace FormFlow

inductive LogLevel where
  | trace
  | debug
  | info
  | warn
  deriving DecidableEq, Repr, Inhabited

def LogLevel.render : LogLevel → String
  | .trace => "TRACE"
  | .debug => "DEBUG"
  | .info => "INFO"
  | .warn => "WARN"

inductive LogEvent where
  | bindingReplaced (method : String) (replaced : Flavour)
  | modelExtracted (form : String) (members : Nat)
  | statusIgnored (form member : String)
  | bindingsResolved (form : String) (bound : Nat)
  | constructorResolved (form : String) (strategy : ConstructionStrategy) (dependencies : Nat)
  | planLowered (form : String) (operations dependencies : Nat)
  | planCacheHit (form : String)
  | planCompiled (form : String) (operations : Nat) (isAsync : Bool)
  | runStarted (form : String) (operations : Nat) (runId : String)
  | operationStarted (path operation : String) (runId : String)
  | runCompleted (form : String) (completed : Nat) (runId : String)
  | runFailed (form path : String) (completed : Nat) (error runId : String)
  deriving DecidableEq, Repr, Inhabited

namespace LogEvent

def level : LogEvent → LogLevel
  | .bindingReplaced _ _ | .statusIgnored _ _ | .runFailed _ _ _ _ _ => .warn
  | .runStarted _ _ _ | .runCompleted _ _ _ => .info
  | .planCacheHit _ => .trace
  | .modelExtracted _ _ | .bindingsResolved _ _ | .constructorResolved _ _ _
  | .planLowered _ _ _ | .planCompiled _ _ _ | .operationStarted _ _ _ => .debug

def message : LogEvent → String
  | .bindingReplaced _ _ => "binding registered twice, keeping the latest"
  | .modelExtracted _ _ => "extracted form model"
  | .statusIgnored _ _ => "status indicator ignored on synchronous step"
  | .bindingsResolved _ _ => "resolved member bindings"
  | .constructorResolved _ _ _ => "resolved constructor"
  | .planLowered _ _ _ => "lowered execution plan"
  | .planCacheHit _ => "plan cache hit"
  | .planCompiled _ _ _ => "compiled form plan"
  | .runStarted _ _ _ => "form run started"
  | .operationStarted _ _ _ => "executing operation"
  | .runCompleted _ _ _ => "form run completed"
  | .runFailed _ _ _ _ _ => "form run failed"

def fields : LogEvent → Json
  | .bindingReplaced method replaced =>
    .obj [("method", .str method), ("replaced", .str replaced.render)]
  | .modelExtracted form members => .obj [("form", .str form), ("members", .ofNat members)]
  | .statusIgnored form member => .obj [("form", .str form), ("member", .str member)]
  | .bindingsResolved form bound => .obj [("bound", .ofNat bound), ("form", .str form)]
  | .constructorResolved form strategy dependencies =>
    .obj [("dependencies", .ofNat dependencies), ("form", .str form),
      ("strategy", .str strategy.structural)]
  | .planLowered form operations dependencies =>
    .obj [("dependencies", .ofNat dependencies), ("form", .str form),
      ("operations", .ofNat operations)]
  | .planCacheHit form => .obj [("form", .str form)]
  | .planCompiled form operations isAsync =>
    .obj [("form", .str form), ("is_async", .bool isAsync), ("operations", .ofNat operations)]
  | .runStarted form operations runId =>
    .obj [("form", .str form), ("operations", .ofNat operations), ("run_id", .str runId)]
  | .operationStarted path operation runId =>
    .obj [("member", .str path), ("operation", .str operation), ("run_id", .str runId)]
  | .runCompleted form completed runId =>
    .obj [("completed", .ofNat completed), ("form", .str form), ("run_id", .str runId)]
  | .runFailed form path completed error runId =>
    .obj [("completed", .ofNat completed), ("error", .str error), ("form", .str form),
      ("member", .str path), ("run_id", .str runId)]

end LogEvent

/-- A result beside what was reported on the way to it. -/
structure Traced (α : Type) where
  log : List LogEvent
  result : Except ModelError α

namespace Traced
variable {α β : Type}

def of (log : List LogEvent) (result : Except ModelError α) : Traced α := ⟨log, result⟩

def fail (error : ModelError) : Traced α := ⟨[], .error error⟩

def note (event : LogEvent) : Traced Unit := ⟨[event], .ok ()⟩

def bind (x : Traced α) (f : α → Traced β) : Traced β :=
  match x.result with
  | .ok a => ⟨x.log ++ (f a).log, (f a).result⟩
  | .error e => ⟨x.log, .error e⟩

instance : Monad Traced where
  pure a := ⟨[], .ok a⟩
  bind := bind

@[simp] theorem result_pure (a : α) : (pure a : Traced α).result = .ok a := rfl

@[simp] theorem result_fail (e : ModelError) : (fail e : Traced α).result = .error e := rfl

@[simp] theorem result_note (event : LogEvent) : (note event).result = .ok () := rfl

@[simp] theorem result_of (log : List LogEvent) (r : Except ModelError α) :
    (of log r).result = r := rfl

@[simp] theorem result_bind (x : Traced α) (f : α → Traced β) :
    (x >>= f).result = x.result >>= fun a => (f a).result := by
  obtain ⟨log, result⟩ := x
  cases result <;> rfl

end Traced
end FormFlow
