import FormFlow.CommandLine.Parsing
import FormFlow.Demo
import FormFlow.Report.Catalog
import FormFlow.Report.Form
import FormFlow.Settings
/-!
# The program

The commands on the demo catalog: the arguments are read, then the settings, and
then the command is carried out on a factory that has no terminal to ask at. The
program ends with 0, with 1 if the command fails, and with 2 if the arguments
are at fault.
-/
namespace FormFlow

structure Environment where
  file : String → Option String
  defaultSettings : Option String := none
  settingsPath : Option String := none
  runId : String
  accountId : String

structure Exit where
  code : Nat := 0
  output : String := ""
  notice : String := ""
  error : Option String := none
  deriving DecidableEq, Repr, Inhabited

namespace Factory

def perform (f : Factory) (json : Bool) : Command → Called Report
  | .list => f.listForms json
  | .plan form => f.showPlan form json
  | .check => f.checkForms json
  | .run form assignments => f.runForm form assignments json
  | .completions _ => ⟨[], {}, f⟩

end Factory

namespace Exit

def hanging (first : String) (text : String) : String :=
  let indent := "\n" ++ String.ofList (List.replicate first.length ' ')
  first ++ indent.intercalate ((text.toList.splitOn '\n').map String.ofList)

def causeNumber (n : Nat) : String :=
  let digits := toString n
  String.ofList (List.replicate (5 - digits.length) ' ') ++ digits ++ ": "

def causeLines : List String → List String
  | [cause] => [hanging "    " cause]
  | causes => causes.zipIdx.map fun (cause, n) => hanging (causeNumber n) cause

def errorText : List String → Option String
  | [] => none
  | [message] => some ("Error: " ++ message ++ "\n")
  | message :: causes =>
    some ("Error: " ++ message ++ "\n\nCaused by:\n" ++ textLines (causeLines causes))

def ofReport (r : Report) : Exit where
  code := if r.failure.isEmpty then 0 else 1
  output := r.output
  notice := r.notice
  error := errorText r.failure

def programName : String := "formspec"

def versionText : String := "0.1.0"

/-- A request for help or for the version is met; any other fault of the arguments is one of the
user. -/
def ofUsage : UsageError → Exit
  | .displayHelp => {}
  | .displayVersion command =>
    { output := "-".intercalate (programName :: command.toList) ++ " " ++ versionText ++ "\n" }
  | e => { code := 2, notice := "error: " ++ e.kind ++ "\n" }

end Exit

namespace Program

def noTerminal : PromptError := .io "IO error: not a terminal"

def settings (env : Environment) (inv : Invocation) : Except SettingsError Settings :=
  match inv.config <|> env.settingsPath with
  | some path => Settings.ofFile path (env.file path)
  | none => .ok (Settings.ofDefaultFile env.defaultSettings)

def factory (env : Environment) (settings : Settings) : Factory where
  catalog := Demo.catalog env.accountId
  surface := ⟨[], noTerminal, false⟩
  runId := env.runId
  settings := settings

def invoke (env : Environment) (inv : Invocation) : Exit :=
  match inv.command, settings env inv with
  | .completions _, _ => {}
  | _, .error e => .ofReport (.failed [e.message])
  | command, .ok settings => .ofReport ((factory env settings).perform inv.json command).value

def run (env : Environment) (arguments : List String) : Exit :=
  match Invocation.ofArguments arguments with
  | .error e => .ofUsage e
  | .ok inv => invoke env inv

end Program
end FormFlow
