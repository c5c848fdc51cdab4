import ChunkLoading.CommandLine.Arguments
import ChunkLoading.CommandLine.Execution

/-!
# The program

Reads the arguments, does the job on the files of the machine and prints what it has to tell.
-/

namespace ChunkLoading.CommandLine

/-- Whether there is anything at a path. -/
def isThere (path : String) : IO Bool := do
  try
    let _ ← IO.FS.realPath path
    return true
  catch _ => return false

/-- Access to the files of the machine. -/
def machineFiles : FileAccess IO where
  read path := do
    if !(← isThere path) then return .absent
    try return .text (← IO.FS.readFile path)
    catch _ => return .unreadable
  write path text := do
    try
      IO.FS.writeFile path text
      return true
    catch _ => return false

/-- Says what is wrong with the arguments, or what they ask to be told. -/
def explain (e : UsageError) : IO UInt32 := do
  if e.isFault then
    IO.eprintln ("error: " ++ e.message)
    return 2
  else
    IO.println e.message
    return 0

/-- Does what the arguments ask for. -/
def serve (i : Invocation) : IO UInt32 := do
  let start ← IO.monoNanosNow
  banner.forM fun line => IO.eprintln line
  match ← (i.job.run machineFiles i.config).run with
  | .error e =>
    IO.eprintln ("Error: " ++ e.message)
    return 1
  | .ok outcome =>
    IO.print outcome.output
    let nanos := (← IO.monoNanosNow) - start
    let elapsed := Measure.duration (nanos / 1000000000) (nanos % 1000000000)
    outcome.notes.forM fun note => IO.eprintln (note.text elapsed)
    return 0

end ChunkLoading.CommandLine

def main (arguments : List String) : IO UInt32 :=
  match ChunkLoading.CommandLine.Invocation.read arguments with
  | .error e => ChunkLoading.CommandLine.explain e
  | .ok i => ChunkLoading.CommandLine.serve i
