import ScopedConfig.CommandLine

open ScopedConfig

/-- What lies at a path of the system: code 21 of a wrong type of file means a directory, any other
means that the path goes through a file, so that nothing lies there. -/
def readNode (path : Text) : IO (Option FileNode) := do
  try
    return some (.file (← IO.FS.readBinFile (String.ofList path)))
  catch
    | .noFileOrDirectory .. => return none
    | .inappropriateType _ 21 _ => return some .directory
    | .inappropriateType .. => return none
    | .invalidArgument .. => return none
    | failure => throw failure

def main (arguments : List String) : IO UInt32 := do
  let arguments := arguments.map String.toList
  let home := ((← IO.getEnv "HOME").map String.toList).filter (· ≠ [])
  let place := Request.ofArguments arguments |>.toOption.bind fun request =>
    (expandHome home request.path).toOption
  let files : Files ← match place with
    | none => pure fun _ => none
    | some place =>
      let node ← readNode place
      pure fun path => if path = place then node else none
  let outcome := runCommand (fun _ _ => []) home files arguments
  IO.print (String.ofList outcome.stdout)
  IO.eprint (String.ofList outcome.stderr)
  return outcome.status.toUInt32
