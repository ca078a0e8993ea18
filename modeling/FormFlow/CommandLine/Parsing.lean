import FormFlow.CommandLine.Basic
/-!
# Reading the command line

Arguments are read from the left. The options that hold for every command may
stand before and behind it; what stands behind it wins. An option or an operand
takes effect only when the next one is met or the arguments end, so that a fault
in what follows it may be reported in place of its own.
-/
namespace FormFlow

inductive UsageError where
  | displayHelp
  | displayHelpOnMissingCommand
  | displayVersion (command : Option String)
  | invalidSubcommand
  | missingSubcommand
  | invalidValue
  | unknownArgument
  | missingRequiredArgument
  | argumentConflict
  | tooManyValues
  deriving DecidableEq, Repr, Inhabited

def UsageError.kind : UsageError → String
  | .displayHelp => "DisplayHelp"
  | .displayHelpOnMissingCommand => "DisplayHelpOnMissingArgumentOrSubcommand"
  | .displayVersion _ => "DisplayVersion"
  | .invalidSubcommand => "InvalidSubcommand"
  | .missingSubcommand => "MissingSubcommand"
  | .invalidValue => "InvalidValue"
  | .unknownArgument => "UnknownArgument"
  | .missingRequiredArgument => "MissingRequiredArgument"
  | .argumentConflict => "ArgumentConflict"
  | .tooManyValues => "TooManyValues"

namespace CommandLine

inductive Switch where
  | json
  | quiet
  | verbose
  | otel
  | help
  | version
  deriving DecidableEq, Repr

def Switch.ofLong? : String → Option Switch
  | "json" => some .json
  | "quiet" => some .quiet
  | "verbose" => some .verbose
  | "otel" => some .otel
  | "help" => some .help
  | "version" => some .version
  | _ => none

def Switch.ofShort? : Char → Option Switch
  | 'v' => some .verbose
  | 'h' => some .help
  | 'V' => some .version
  | _ => none

inductive Setting where
  | config
  | assignment
  deriving DecidableEq, Repr

inductive CommandName where
  | list
  | plan
  | check
  | run
  | completions
  deriving DecidableEq, Repr

namespace CommandName

def render : CommandName → String
  | .list => "list"
  | .plan => "plan"
  | .check => "check"
  | .run => "run"
  | .completions => "completions"

def ofText? : String → Option CommandName
  | "list" => some .list
  | "ls" => some .list
  | "plan" => some .plan
  | "check" => some .check
  | "run" => some .run
  | "completions" => some .completions
  | _ => none

def takesOperand : CommandName → Bool
  | .plan | .run | .completions => true
  | .list | .check => false

end CommandName

/-- The options that are known at a place: only a run takes assignments. -/
def Setting.ofLong? (command : Option CommandName) : String → Option Setting
  | "config" => some .config
  | "set" => if command = some .run then some .assignment else none
  | _ => none

structure Given where
  json : Bool := false
  quiet : Bool := false
  verbose : Nat := 0
  otel : Bool := false
  config : Option String := none
  assignments : List String := []
  operand : Option String := none

inductive Pending where
  | setting (setting : Setting) (value : Option String)
  | operand (text : String)

structure State where
  given : Given := {}
  pending : Option Pending := none
  /-- Two dashes were met: all that follows are operands. -/
  escaped : Bool := false
  operandTaken : Bool := false

namespace State
variable (command : Option CommandName)

/-- Stores the value of an option. An assignment may be repeated, and a path is not empty. -/
def store (s : State) (setting : Setting) (value : Option String) : Except UsageError State :=
  match setting, value with
  | _, none => .error .invalidValue
  | .assignment, some v =>
    .ok { s with given := { s.given with assignments := s.given.assignments ++ [v] } }
  | .config, some v =>
    if s.given.config.isSome then .error .argumentConflict
    else if v = "" then .error .invalidValue
    else .ok { s with given := { s.given with config := some v } }

def storeOperand (s : State) (text : String) : Except UsageError State :=
  if command = some .completions ∧ (Shell.ofText? text).isNone then .error .invalidValue
  else .ok { s with given := { s.given with operand := some text } }

def resolve (s : State) : Except UsageError State :=
  let cleared := { s with pending := none }
  match s.pending with
  | none => .ok cleared
  | some (.setting setting value) => cleared.store setting value
  | some (.operand text) => cleared.storeOperand command text

def awaited? (s : State) : Option Setting :=
  match s.pending with
  | some (.setting setting none) => some setting
  | _ => none

def raise (given : Bool) (next : Given) (s : State) : Except UsageError State :=
  if given then .error .argumentConflict else .ok { s with given := next }

def switch (s : State) (switch : Switch) : Except UsageError State := do
  let s ← s.resolve command
  let given := s.given
  match switch with
  | .json => s.raise given.json { given with json := true }
  | .quiet => s.raise given.quiet { given with quiet := true }
  | .otel => s.raise given.otel { given with otel := true }
  | .verbose => .ok { s with given := { given with verbose := min 255 (given.verbose + 1) } }
  | .help => .error .displayHelp
  | .version => .error (.displayVersion (command.map CommandName.render))

def shorts (s : State) : List Char → Except UsageError State
  | [] => .ok s
  | c :: rest =>
    match Switch.ofShort? c with
    | some switch => do (← s.switch command switch).shorts rest
    | none => .error .unknownArgument

def long (s : State) (text : List Char) : Except UsageError State :=
  let name := String.ofList (text.takeWhile (· ≠ '='))
  let value : Option String :=
    match text.dropWhile (· ≠ '=') with
    | [] => none
    | _ :: value => some (String.ofList value)
  match Setting.ofLong? command name, Switch.ofLong? name with
  | some setting, _ => do
    let s ← s.resolve command
    match value with
    | some v => s.store setting (some v)
    | none => .ok { s with pending := some (.setting setting none) }
  | none, some switch => if value.isSome then .error .tooManyValues else s.switch command switch
  | none, none => .error .unknownArgument

/-- An argument in the place of an operand. Before a command, all but the name of a command behind
two dashes passes for an unknown command. -/
def operand (s : State) (text : String) : Except UsageError State :=
  match command with
  | none =>
    let isName := (CommandName.ofText? text).isSome || text = "help"
    .error (if s.escaped && isName then .unknownArgument else .invalidSubcommand)
  | some name =>
    if name.takesOperand && !s.operandTaken then do
      let s ← s.resolve command
      .ok { s with pending := some (.operand text), operandTaken := true }
    else .error .unknownArgument

def argument (s : State) (text : String) : Except UsageError State :=
  if s.escaped then s.operand command text
  else
    match text.toList with
    | ['-', '-'] => .ok { s with escaped := true }
    | '-' :: '-' :: rest => s.long command rest
    | '-' :: c :: rest => s.shorts command (c :: rest)
    | _ =>
      match s.awaited? with
      | some setting => .ok { s with pending := some (.setting setting (some text)) }
      | none => s.operand command text

end State

def given (command : CommandName) : State → List String → Except UsageError Given
  | s, [] => do
    let s ← s.resolve (some command)
    if command.takesOperand && s.given.operand.isNone then .error .missingRequiredArgument
    else .ok s.given
  | s, text :: rest => do given command (← s.argument (some command) text) rest

def commandOf (name : CommandName) (g : Given) : Command :=
  let operand := g.operand.getD ""
  match name with
  | .list => .list
  | .plan => .plan operand
  | .check => .check
  | .run => .run operand g.assignments
  | .completions => .completions ((Shell.ofText? operand).getD .bash)

def invocation (name : CommandName) (before behind : Given) : Invocation where
  command := commandOf name behind
  json := before.json || behind.json
  quiet := before.quiet || behind.quiet
  verbose := if behind.verbose = 0 then before.verbose else behind.verbose
  config := behind.config <|> before.config
  otel := before.otel || behind.otel

def helpFor : List String → UsageError
  | [] => .displayHelp
  | [name] =>
    if (CommandName.ofText? name).isSome || name = "help" then .displayHelp else .invalidSubcommand
  | _ => .invalidSubcommand

def withoutCommand (g : Given) : UsageError :=
  if g.json || g.quiet || g.otel || g.verbose ≠ 0 || g.config.isSome then .missingSubcommand
  else .displayHelpOnMissingCommand

def invocationFrom : State → List String → Except UsageError Invocation
  | s, [] => do .error (withoutCommand (← s.resolve none).given)
  | s, text :: rest =>
    if s.escaped || s.awaited?.isSome then do invocationFrom (← s.argument none text) rest
    else
      match CommandName.ofText? text with
      | some name => do
        let behind ← given name {} rest
        let before ← s.resolve none
        .ok (invocation name before.given behind)
      | none =>
        if text = "help" then .error (helpFor rest)
        else do invocationFrom (← s.argument none text) rest

end CommandLine

def Invocation.ofArguments (arguments : List String) : Except UsageError Invocation :=
  CommandLine.invocationFrom {} arguments

end FormFlow
