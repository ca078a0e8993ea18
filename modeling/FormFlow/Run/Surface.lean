import FormFlow.Binding
/-!
# Prompting surfaces and events

What a run asks for and what it gets: requests for texts and selections, the
answers that are lined up for them, and the token that cancels the run. An
answer can be read either way, takes its course like other asynchronous work,
and is used up by the request that gets it. The events are what can be observed
of a run, in order.
-/
namespace FormFlow

structure TextRequest where
  title : String
  secret : Bool
  searchEnabled : Bool
  placeholder : Option String
  culture : Option String
  deriving DecidableEq, Repr, Inhabited

structure SelectRequest where
  title : String
  labels : List String
  searchEnabled : Bool
  placeholder : Option String
  culture : Option String
  deriving DecidableEq, Repr, Inhabited

inductive PromptError where
  | cancelled
  | noCandidates (path : String)
  | invalidInput (reason : String)
  | invalidSelection (index count : Nat)
  | io (text : String)
  deriving DecidableEq, Repr, Inhabited

namespace PromptError

def kind : PromptError → String
  | .cancelled => "Cancelled"
  | .noCandidates _ => "NoCandidates"
  | .invalidInput _ => "InvalidInput"
  | .invalidSelection _ _ => "InvalidSelection"
  | .io _ => "Io"

def message : PromptError → String
  | .cancelled => "prompt cancelled by user"
  | .noCandidates path => s!"no candidates available for '{path}'"
  | .invalidInput reason => s!"invalid input: {reason}"
  | .invalidSelection index count => s!"selection {index} out of range ({count} candidates)"
  | .io text => s!"terminal I/O error: {text}"

end PromptError

structure Reply where
  text : Except PromptError String
  selection : Except PromptError Nat

abbrev Answer := Progress Unit Reply

/-- The answers that are left, the error of a request that finds none, and the state of the
cancellation token. -/
structure Surface where
  answers : List Answer
  exhausted : PromptError
  cancelled : Bool

namespace Surface

def next (s : Surface) : Answer × Surface :=
  match s.answers with
  | [] => (.finished false () ⟨.error s.exhausted, .error s.exhausted⟩, s)
  | answer :: rest => (answer, { s with answers := rest })

def cancel (s : Surface) : Surface := { s with cancelled := true }

def cancelIf (s : Surface) (cancels : Bool) : Surface :=
  { s with cancelled := s.cancelled || cancels }

end Surface

/-- How work that is raced with cancellation ends: with its result, or interrupted. -/
structure Settled (σ ρ : Type) where
  state : σ
  cancelled : Bool
  result : Option ρ

/-- Drives work to its end. Cancellation is noticed when the work is about to be resumed, and the
state stays as the work left it. -/
def Progress.settle {σ ρ : Type} (cancelled : Bool) : Progress σ ρ → Settled σ ρ
  | .finished cancels state result => ⟨state, cancelled || cancels, some result⟩
  | .suspended cancels state next =>
    if cancelled || cancels then ⟨state, true, none⟩ else next.settle false
  | .stalled state => ⟨state, true, none⟩

inductive Event where
  | textAsked (request : TextRequest)
  | selectionAsked (request : SelectRequest)
  | statusShown (caption : String)
  | statusEnded (ok : Bool)
  | sourceCalled (name typeName : String)
  | converterCalled (name : String) (value : Json)
  | stepCalled (name : String) (isAsync : Bool) (typeName : String) (fields : Fields)
  | logged (entry : LogEvent)
  deriving Inhabited

namespace Event

def logEvent? : Event → Option LogEvent
  | .logged entry => some entry
  | _ => none

def isCall : Event → Bool
  | .sourceCalled _ _ | .converterCalled _ _ | .stepCalled _ _ _ _ => true
  | _ => false

def startedPath? : Event → Option String
  | .logged (.operationStarted path _ _) => some path
  | _ => none

end Event

end FormFlow
