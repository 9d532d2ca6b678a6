import TinyMips.CommandLine

/-!
# Arguments

The arguments of the program: a command, the path of a source file, and options in any place after
the command. Reading the files is left to the caller.
-/

namespace TinyMips

/-- A command with the paths of its files. -/
inductive Invocation where
  | run (program : String) (settings : Option String) (options : RunOptions)
  | check (program : String)
  deriving DecidableEq

namespace Invocation

/-- What the arguments after `run` have given so far. -/
structure RunArguments where
  program : Option String := none
  settings : Option String := none
  options : RunOptions := {}

/-- Whether an argument asks for more messages; such arguments count for nothing. -/
def isVerbosity (argument : String) : Bool :=
  argument = "--verbose" ||
    match argument.toList with
    | '-' :: rest => !rest.isEmpty && rest.all (· = 'v')
    | _ => false

/-- Reads the arguments after `run`: options, and one path. -/
def readRun? (read : RunArguments) : List String → Option Invocation
  | [] => read.program.map fun program => run program read.settings read.options
  | "--json" :: rest => readRun? { read with options.json := true } rest
  | "--quiet" :: rest => readRun? { read with options.quiet := true } rest
  | "-q" :: rest => readRun? { read with options.quiet := true } rest
  | "--config" :: path :: rest => readRun? { read with settings := some path } rest
  | "-c" :: path :: rest => readRun? { read with settings := some path } rest
  | argument :: rest =>
    if read.program.isSome ∨ argument.toList.head? = some '-' then none
    else readRun? { read with program := some argument } rest

/-- Reads all arguments. -/
def ofArguments? (arguments : List String) : Option Invocation :=
  match arguments.filter (!isVerbosity ·) with
  | "run" :: rest => readRun? {} rest
  | ["check", path] => some (check path)
  | _ => none

/-- How the program is called. -/
def usage : String :=
  "usage: tinymips run FILE [--config FILE] [--json] [--quiet]\n" ++
    "       tinymips check FILE\n"

end Invocation

end TinyMips
