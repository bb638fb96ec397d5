import RecordGraph.Cli.Run

/-!
The program: reads the files that the arguments name, runs the command on their
contents, prints what it returns and ends with its exit code.
-/

namespace RecordGraph.Cli

/-- The contents of each file that can be read, under its path. -/
def readFiles : List String → IO (List (String × String))
  | [] => pure []
  | path :: rest => do
    let more ← readFiles rest
    try
      let text ← IO.FS.readFile path
      return (path, text) :: more
    catch _ => return more

def usageHint : String :=
  "error: invalid usage\n\nFor more information, try '--help'."

end RecordGraph.Cli

open RecordGraph.Cli in
def main (args : List String) : IO UInt32 := do
  let files ← readFiles (pathsOf args)
  let reply := run args fun path => files.lookup path
  for text in reply.output do
    IO.println text
  match reply.error with
  | some message => IO.eprintln message
  | none => if reply.exit = 2 then IO.eprintln usageHint
  return UInt32.ofNat reply.exit
