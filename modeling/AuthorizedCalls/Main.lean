import AuthorizedCalls.CommandLine

namespace AuthorizedCalls

def readText? (file : String) : IO (Option String) := do
  try
    return some (← IO.FS.readFile file)
  catch _ =>
    return none

end AuthorizedCalls

open AuthorizedCalls in
def main (args : List String) : IO UInt32 := do
  let files := ((CommandLine.parse? args).map CommandLine.Invocation.files).getD []
  let contents ← files.mapM fun file => return (file, ← readText? file)
  let outcome := CommandLine.run args fun file => (contents.lookup file).join
  IO.print outcome.output
  if let some failure := outcome.failure then
    IO.eprintln failure.message
  return outcome.exitCode.toUInt32
