import FormFlow.Json.Basic
/-!
# Commands

What can be asked for on the command line: one command, and the options that
hold for every command.
-/
namespace FormFlow

inductive Shell where
  | bash
  | elvish
  | fish
  | powershell
  | zsh
  deriving DecidableEq, Repr, Inhabited

namespace Shell

def render : Shell → String
  | .bash => "bash"
  | .elvish => "elvish"
  | .fish => "fish"
  | .powershell => "powershell"
  | .zsh => "zsh"

def all : List Shell := [.bash, .elvish, .fish, .powershell, .zsh]

def ofText? (text : String) : Option Shell := all.find? fun shell => shell.render = text

end Shell

inductive Command where
  | list
  | plan (form : String)
  | check
  | run (form : String) (assignments : List String)
  | completions (shell : Shell)
  deriving DecidableEq, Repr, Inhabited

structure Invocation where
  command : Command
  json : Bool := false
  quiet : Bool := false
  verbose : Nat := 0
  config : Option String := none
  otel : Bool := false
  deriving DecidableEq, Repr, Inhabited

def logDirective (verbose : Nat) (quiet : Bool) : String :=
  if quiet then "error"
  else
    match verbose with
    | 0 => "warn"
    | 1 => "info"
    | 2 => "debug"
    | _ => "trace"

end FormFlow
