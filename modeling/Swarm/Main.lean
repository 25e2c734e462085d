import Swarm.Cli.Console

/-!
# The command line program

Reads the model file that the command line names and prints what the action leaves behind.
-/

namespace Swarm.Cli

/-- The text of a file, or why it could not be read. -/
def readModelFile (path : String) : IO (Except Fault String) := do
  try
    return .ok (← IO.FS.readFile path)
  catch e =>
    match e with
    | .noFileOrDirectory .. => return .error missingFile
    | .permissionDenied .. => return .error (.ofCause (.file .forbidden (toString e)))
    | _ => return .error (.ofCause (.file .other (toString e)))

end Swarm.Cli

/-- Carry out the action that the command line asks for. -/
def main (args : List String) : IO UInt32 := do
  let console ←
    match Swarm.Cli.Invocation.ofArguments? args with
    | none => pure Swarm.Cli.Console.ofUsage
    | some inv => do
      let file ← Swarm.Cli.readModelFile inv.path
      pure (inv.perform file)
  IO.print console.stdout
  IO.eprint console.stderr
  return UInt32.ofNat console.exit
