import LiveTopology.Service

/-!
# The command line

The program as it is started from a shell. Reading the environment and the file of the
configuration, and writing the outcome, are all that happens here. There is no network at this
level: a service that has started lasts until the standard input ends.
-/

namespace LiveTopology

/-- The refusal that the system gave for a file. -/
def refusal : IO.Error → FileError
  | .noFileOrDirectory .. => .notFound
  | .permissionDenied .. => .accessDenied
  | .inappropriateType _ 20 _ => .notDirectory
  | .inappropriateType .. => .isDirectory
  | .illegalOperation .. => .isDirectory
  | other => .other (toString other)

/-- The content of a file. -/
def contentOf (path : String) : IO (Except FileError (List UInt8)) := do
  if path.contains '\x00' then return .error .nulInPath
  try
    let content ← IO.FS.readBinFile path
    return .ok content.data.toList
  catch error => return .error (refusal error)

/-- Waits until the standard input ends. -/
partial def waitForEnd (input : IO.FS.Stream) : IO Unit := do
  let line ← input.getLine
  unless line.isEmpty do waitForEnd input

end LiveTopology

open LiveTopology

/-- The program. -/
def main (arguments : List String) : IO UInt32 := do
  let environment : CommandLine.Environment :=
    ⟨← IO.getEnv "NET_STATE_CONFIG", ← IO.getEnv "NET_STATE_BIND"⟩
  let found ← match CommandLine.read environment arguments with
    | .ok (.serve serveArguments) => contentOf serveArguments.config
    | _ => pure (.error .notFound)
  match launch .unrestricted environment (fun _ => found) arguments with
  | .exits exit =>
    IO.print exit.output
    IO.eprint exit.errors
    return exit.code
  | .serves _ =>
    waitForEnd (← IO.getStdin)
    return 0
