import FormFlow.Factory
/-!
# Reports

What a command prints, and the failure that it ends with. A failure is a list of
messages: what failed, then the causes, each the cause of the one before it.
-/
namespace FormFlow

structure Report where
  output : String := ""
  /-- What is printed beside the output, for the reader at the terminal. -/
  notice : String := ""
  failure : List String := []
  deriving DecidableEq, Repr, Inhabited

def textLines (lines : List String) : String := String.join (lines.map (· ++ "\n"))

namespace Report

def ofLines (lines : List String) : Report := { output := textLines lines }

def ofJson (value : Json) : Report := ofLines [value.pretty]

def failed (messages : List String) : Report := { failure := messages }

def failureText (r : Report) : String := ": ".intercalate r.failure

end Report

def ExecutionError.messages (e : ExecutionError) : List String :=
  e.message :: (e.cause?.map Prod.snd).toList

def FormError.messages (e : FormError) : List String :=
  match e with
  | .model _ => [e.message]
  | .construction _ cause => e.message :: cause.messages
  | .run failure => e.message :: failure.error.messages
  | .decode cause => [e.message, cause.message]

def Factory.plans (f : Factory) :
    List String → Called (List (String × Except ModelError Plan))
  | [] => ⟨[], [], f⟩
  | name :: rest =>
    let first := f.plan name
    let others := first.factory.plans rest
    ⟨first.events ++ others.events, (name, first.value) :: others.value, others.factory⟩

end FormFlow
