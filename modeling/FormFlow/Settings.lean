import FormFlow.Document
import FormFlow.Toml.Reader
/-!
# Settings

What the configuration of the engine sets, with the defaults of what it leaves
out. Settings come from a file. One that is asked for by its path has to be there
and has to be well formed; without a path, the defaults stand in for a default
file that is missing or broken.
-/
namespace FormFlow

structure Settings where
  defaultCulture : Option String := none
  /-- The greatest depth of nested forms, a number of 32 bits. -/
  maxNestingDepth : Nat := 16
  /-- Milliseconds between two ticks of the status indicator, a number of 64 bits. -/
  statusTickMs : Nat := 80
  statusTemplate : String := "\x7bspinner:.cyan\x7d \x7bmsg\x7d"
  deriving DecidableEq, Repr, Inhabited

inductive SettingsError where
  | missing (path : String)
  | malformed (path : String)
  deriving DecidableEq, Repr, Inhabited

def SettingsError.message : SettingsError → String
  | .missing path => s!"Failed to read config file {path}: not found"
  | .malformed path => s!"Failed to parse config file {path}"

def Document.natural? (bits : Nat) (d : Document) : Option Nat :=
  d.whole?.bind fun n => if 0 ≤ n ∧ n < Nat.pow 2 bits then some n.toNat else none

namespace Settings
open Document

def ofDocument? (d : Document) : Option Settings := do
  let entries ← d.entries?
  let defaultCulture ← entryOr entries "default_culture" optionalText? (some none)
  let maxNestingDepth ← entryOr entries "max_nesting_depth" (natural? 32)
    (some ({} : Settings).maxNestingDepth)
  let statusTickMs ← entryOr entries "status_tick_ms" (natural? 64)
    (some ({} : Settings).statusTickMs)
  let statusTemplate ← entryOr entries "status_template" text?
    (some ({} : Settings).statusTemplate)
  some { defaultCulture, maxNestingDepth, statusTickMs, statusTemplate }

def encode (s : Settings) : Json :=
  .ofEntries ((match s.defaultCulture with
      | some culture => [("default_culture", .str culture)]
      | none => []) ++
    [("max_nesting_depth", .ofNat s.maxNestingDepth), ("status_template", .str s.statusTemplate),
      ("status_tick_ms", .ofNat s.statusTickMs)])

def ofText? (text : String) : Option Settings := (Toml.document? text).bind ofDocument?

def ofFile (path : String) (content : Option String) : Except SettingsError Settings :=
  match content with
  | none => .error (.missing path)
  | some text =>
    match ofText? text with
    | some settings => .ok settings
    | none => .error (.malformed path)

def ofDefaultFile (content : Option String) : Settings := (content.bind ofText?).getD {}

end Settings
end FormFlow
