import FormFlow.Program
/-!
# Entry point

Gathers what the program needs from its surroundings, runs it and prints what it
leaves behind.
-/
namespace FormFlow.Main

def content (path : String) : IO (Option String) := do
  try
    return some (← IO.FS.readFile path)
  catch _ =>
    return none

def randomDigits : Nat → IO (List Char)
  | 0 => return []
  | n + 1 => do
    let digit ← IO.rand 0 15
    return Nat.digitChar digit :: (← randomDigits n)

def randomText (n : Nat) : IO String := do
  return String.ofList (← randomDigits n)

def dataDirectory : IO String := do
  match ← IO.getEnv "FORMSPEC_HOME", ← IO.getEnv "HOME" with
  | some directory, _ => return directory
  | none, some home => return home ++ "/.formspec"
  | none, none => return ".formspec"

def environment (arguments : List String) : IO Environment := do
  let defaultSettings ← content ((← dataDirectory) ++ "/config.toml")
  let settingsPath ← IO.getEnv "FORMSPEC_CONFIG"
  let named :=
    match Invocation.ofArguments arguments with
    | .ok inv => inv.config <|> settingsPath
    | .error _ => none
  let found ← match named with
    | some path => content path
    | none => pure none
  let runId := "-".intercalate
    [← randomText 8, ← randomText 4, ← randomText 4, ← randomText 4, ← randomText 12]
  return { file := fun path => if some path = named then found else none
           defaultSettings, settingsPath, runId
           accountId := "acct-" ++ (← randomText 32) }

end FormFlow.Main

def main (arguments : List String) : IO UInt32 := do
  let exit := FormFlow.Program.run (← FormFlow.Main.environment arguments) arguments
  IO.print exit.output
  IO.eprint exit.notice
  match exit.error with
  | some text => IO.eprint text
  | none => pure ()
  return UInt32.ofNat exit.code
