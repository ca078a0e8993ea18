import FormFlow.Run.Surface
/-!
# Failures of a run

The failure of one operation names the operation by its dotted path from the
root form. A failed run hands back the instance as far as it got.
-/
namespace FormFlow

inductive ExecutionError where
  | prompt (path : String) (cause : PromptError)
  | source (path : String) (cause : StepError)
  | step (path : String) (cause : StepError)
  | cancelled (path : String)
  | missingDependency (path : String)
  | invalidValue (path typeName : String) (found : Json)
  deriving Inhabited

namespace ExecutionError

def path : ExecutionError → String
  | .prompt path _ => path
  | .source path _ => path
  | .step path _ => path
  | .cancelled path => path
  | .missingDependency path => path
  | .invalidValue path _ _ => path

def kind : ExecutionError → String
  | .prompt _ _ => "Prompt"
  | .source _ _ => "Source"
  | .step _ _ => "Step"
  | .cancelled _ => "Cancelled"
  | .missingDependency _ => "MissingDependency"
  | .invalidValue _ _ _ => "InvalidValue"

/-- The run was cancelled by its token or by the user at a prompt. -/
def isCancelled : ExecutionError → Bool
  | .cancelled _ => true
  | .prompt _ .cancelled => true
  | _ => false

def cause? : ExecutionError → Option (String × String)
  | .prompt _ cause => some (cause.kind, cause.message)
  | .source _ cause => some (cause.kind, cause.message)
  | .step _ cause => some (cause.kind, cause.message)
  | _ => none

def message : ExecutionError → String
  | .prompt path cause => s!"prompt for '{path}' failed: {cause.message}"
  | .source path cause => s!"choices source for '{path}' failed: {cause.message}"
  | .step path cause => s!"step '{path}' failed: {cause.message}"
  | .cancelled path => s!"run cancelled at '{path}'"
  | .missingDependency path => s!"required dependency '{path}' is not set"
  | .invalidValue path typeName found =>
    s!"invalid value in '{path}': expected a {typeName} object, found " ++ found.compact

end ExecutionError

structure RunFailure where
  runId : String
  typeName : String
  error : ExecutionError
  reached : Instance
  deriving Inhabited

def RunFailure.message (f : RunFailure) : String :=
  s!"run {f.runId} of form '{f.typeName}' failed: {f.error.message}"

end FormFlow
