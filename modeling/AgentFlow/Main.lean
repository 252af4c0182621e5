import AgentFlow.CommandLine.Run

/-!
# The program

Files are read from disk, output goes to the standard streams.
-/

namespace AgentFlow

open CommandLine

/-- What a path leads to on disk. -/
def fileState (path : String) : IO FileState := do
  try
    return .text (← IO.FS.readFile path)
  catch _ =>
    return .absent

end AgentFlow

open AgentFlow CommandLine in
/-- The program is run with the arguments that it was called with. -/
def main (args : List String) : IO UInt32 := do
  let file := match parseCommand args with
    | .ok command => command.file?
    | .error _ => none
  let state ← match file with
    | some file => fileState (tidyPath file)
    | none => pure .absent
  match launch (fun _ => state) args with
  | .ok report =>
    IO.print report.output
    if let some line := report.complaint then IO.eprintln line
    return report.exit.toUInt32
  | .error (.log _) =>
    IO.eprintln "Error: the log cannot be set up"
    return 1
  | .error (.command _) =>
    IO.eprintln "Error: the graph file cannot be read"
    return 1
