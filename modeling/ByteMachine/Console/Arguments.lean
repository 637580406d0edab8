/-!
# Command line arguments

One source file, and options that may stand anywhere around it. Arguments are taken
from left to right and the first one that is wrong decides what is reported.
-/

namespace ByteMachine.Console

/-- What the command line asks for. -/
structure Arguments where
  /-- The path of the source file. -/
  source : String
  /-- The path of the settings file, if one is given. -/
  settings : Option String
  /-- Whether to show a snapshot at the end. -/
  dump : Bool
  deriving DecidableEq, Repr

/-- Why a command line is not accepted. -/
inductive ArgumentError where
  /-- The option for settings is the last argument. -/
  | missingSettings
  /-- Help was asked for, or there is no source file. -/
  | usage
  /-- There is no such option. -/
  | unknownFlag (flag : String)
  /-- There is more than one source file. -/
  | secondSource
  deriving DecidableEq, Repr

/-- The text that reports why a command line is not accepted. -/
def ArgumentError.message : ArgumentError → String
  | missingSettings => "--config needs a file"
  | usage => "usage: easy8 <source.e8> [--config <file.ron>] [--dump]"
  | unknownFlag flag => "unknown flag " ++ flag
  | secondSource => "only one source file may be given"

namespace Arguments

/-- Takes arguments one after another, with what the earlier ones have set. -/
def continue? (source settings : Option String) (dump : Bool) :
    List String → Except ArgumentError Arguments
  | [] =>
    match source with
    | some source => .ok ⟨source, settings, dump⟩
    | none => .error .usage
  | "--config" :: args =>
    match args with
    | [] => .error .missingSettings
    | file :: args => continue? source (some file) dump args
  | arg :: args =>
    if arg = "--dump" then continue? source settings true args
    else if arg = "-h" || arg = "--help" then .error .usage
    else if arg.startsWith "--" then .error (.unknownFlag arg)
    else if source.isSome then .error .secondSource
    else continue? (some arg) settings dump args

/-- The arguments of a command line. -/
def ofList (args : List String) : Except ArgumentError Arguments := continue? none none false args

end Arguments

end ByteMachine.Console
