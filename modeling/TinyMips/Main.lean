import TinyMips.Arguments

/-!
# The program

Reads the files that the arguments name, carries out the command and prints what came of it.
-/

namespace TinyMips

/-- Reads the bytes of a file. -/
def SourceFile.read (path : String) : IO SourceFile := do
  let content ← try
      let bytes ← IO.FS.readBinFile path
      pure (.ok bytes)
    catch error =>
      match error with
      | .noFileOrDirectory .. => pure (.error .notFound)
      | error => pure (.error (.other (toString error)))
  return { name := path, content }

/-- The command of an invocation, with its files read. -/
def Invocation.command : Invocation → IO Command
  | run program settings options => do
    let settings ← settings.mapM SourceFile.read
    let program ← SourceFile.read program
    return .run program settings options
  | check program => do
    let program ← SourceFile.read program
    return .check program

end TinyMips

/-- Carries out the command that the arguments give. -/
def main (arguments : List String) : IO UInt32 := do
  match TinyMips.Invocation.ofArguments? arguments with
  | none =>
    IO.eprint TinyMips.Invocation.usage
    return 2
  | some invocation =>
    let command ← invocation.command
    let start ← IO.monoNanosNow
    let outcome ← IO.lazyPure fun _ => command.perform
    let stop ← IO.monoNanosNow
    let printed := outcome.printout (stop - start)
    IO.print printed.stdout
    IO.eprint printed.stderr
    return printed.exitCode
