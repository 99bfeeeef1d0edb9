import Pushdown.CommandLine.Session

/-!
# The command

Reads the files that a command names and standard input, and carries the command out.
Everything is decided in `Pushdown.CommandLine.Command`.
-/

namespace Pushdown.CommandLine

/-- Why the system refused to read a file. -/
def accessFault : IO.Error → AccessFault
  | .noFileOrDirectory .. => .notFound
  | .inappropriateType _ code _ => if code = 21 then .isDirectory else .notDirectory
  | e => .stated e.toString

/-- The text of a file of the system. -/
def readSystemFile (path : String) : IO (Except AccessFault String) := do
  try
    let content ← IO.FS.readBinFile path
    return (FileTree.file content).text
  catch e => return .error (accessFault e)

/-- The texts of some files of the system. -/
def readSystemFiles (paths : List String) : IO Files := do
  let texts ← paths.mapM fun path => return (path, ← readSystemFile path)
  return fun path => (texts.lookup path).getD (.error .notFound)

/-- Carries out a command. -/
def Command.execute (c : Command) : IO UInt32 := do
  let files ← readSystemFiles c.paths
  -- Only a task that tests lines waits for standard input.
  let input ←
    match c.task with
    | .test .. => (← IO.getStdin).readBinToEnd
    | _ => pure ByteArray.empty
  let terminal ← (← IO.getStdin).isTty
  let t := c.performAt terminal files (Text.linesOfBytes input)
  IO.print t.output
  for event in t.log do IO.eprintln event.toLine
  for complaint in t.complaint do IO.eprint complaint.toText
  return t.status

end Pushdown.CommandLine

open Pushdown.CommandLine in
/-- The command line. -/
def main (arguments : List String) : IO UInt32 :=
  match Command.ofArguments arguments with
  | .ok command => command.execute
  | .error .help => do
    IO.print helpText
    return 0
  | .error .version => do
    IO.print versionText
    return 0
  | .error (.misuse m) => do
    IO.eprintln s!"error: {m.message}"
    return 2
