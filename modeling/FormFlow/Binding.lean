import FormFlow.Instance
import FormFlow.Log
/-!
# Bindings

The callables that a form type names: sources of candidates, converters that
render them, and step bodies. Asynchronous work is given by its course: the
points where it suspends, whether the run's cancellation is requested before
each of them, and the state it works on at each.
-/
namespace FormFlow

/-- The course of work on a state `σ` with a result `ρ`. -/
inductive Progress (σ ρ : Type) where
  /-- Finishes; `cancels` tells whether it requests cancellation before it does. -/
  | finished (cancels : Bool) (state : σ) (result : ρ)
  | suspended (cancels : Bool) (state : σ) (next : Progress σ ρ)
  /-- Requests cancellation and is never resumed. -/
  | stalled (state : σ)

inductive StepError where
  | failed (text : String)
  | source (text : String)
  deriving DecidableEq, Repr, Inhabited

def StepError.kind : StepError → String
  | .failed _ => "Failed"
  | .source _ => "Source"

def StepError.message : StepError → String
  | .failed text => text
  | .source text => text

structure StepOutcome where
  inst : Instance
  cancels : Bool
  result : Except StepError Unit

inductive StepBody where
  | sync (run : Instance → StepOutcome)
  | async (run : Instance → Progress Instance (Except StepError Unit))

def StepBody.isAsync : StepBody → Bool
  | .sync _ => false
  | .async _ => true

inductive Callable where
  | source (call : Instance → Except StepError (List Json))
  | converter (call : Json → String)
  | step (body : StepBody)

def Callable.flavour : Callable → Flavour
  | .source _ => .source
  | .converter _ => .converter
  | .step (.sync _) => .step
  | .step (.async _) => .asyncStep

abbrev BindingTable := Assoc Callable

namespace BindingTable

def register (table : BindingTable) (name : String) (callable : Callable) : BindingTable :=
  Assoc.insert table name callable

def registrationLog (table : BindingTable) (name : String) : List LogEvent :=
  match Assoc.get? table name with
  | some previous => [.bindingReplaced name previous.flavour]
  | none => []

def structural (table : BindingTable) : String :=
  "FormBindings \x7b methods: [" ++ ", ".intercalate ((Assoc.keys table).map Text.quoted) ++ "] \x7d"

end BindingTable
end FormFlow
