import IndentMarkup.CommandLine.Directory
import IndentMarkup.CommandLine.Run

/-!
# Calls on a directory in memory

The outcome of a call and the directory that it leaves.
-/

namespace IndentMarkup

open CommandLine

/-- A call writes its file before it reports anything, so what the devices for output
were given comes first. -/
def Directory.call (d : Directory) (arguments : List Text) : Outcome × Directory :=
  let (outcome, after) := (run storage arguments).run d
  ({ outcome with
      stdout := String.ofList after.stdout ++ outcome.stdout
      stderr := String.ofList after.stderr ++ outcome.stderr },
    { after with stdout := [], stderr := [] })

end IndentMarkup
