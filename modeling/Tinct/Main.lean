import Tinct.CommandLine.Run

/-!
# The command line

Reads the files that a command needs, answers it, and writes what it says.
-/

namespace Tinct

/-- The content of a file, if it can be read as text. -/
def readText? (path : String) : IO (Option String) := do
  try
    return String.fromUTF8? (← IO.FS.readBinFile path)
  catch _ =>
    return none

/-- The files of a command with what they hold. -/
def readFiles (args : List String) : IO (List (String × String)) := do
  let paths := ((Command.parse? args).map Command.files).getD []
  let texts ← paths.mapM fun path => return (path, ← readText? path)
  return texts.filterMap fun (path, text) => text.map (path, ·)

end Tinct

def main (args : List String) : IO UInt32 := do
  let files ← Tinct.readFiles args
  let outcome := Tinct.runCommandLine (fun path => files.lookup path) args
  (← IO.getStdout).putStr outcome.out
  (← IO.getStderr).putStr outcome.err
  return outcome.status.toUInt32
