import IndentMarkup.CommandLine.Storage

/-!
# Devices

Files of the system that keep nothing of what is written to them.
-/

namespace IndentMarkup

inductive Device where
  /-- Drops what is written. -/
  | null
  /-- Has no room left. -/
  | full
  /-- What is written is output of the call itself. -/
  | stdout
  | stderr
  deriving DecidableEq, Repr

/-- The names of devices in their folder. A call is given no input to read. -/
def Device.names : List (String × Device) :=
  [("null", .null), ("zero", .null), ("stdin", .null), ("full", .full), ("stdout", .stdout),
   ("stderr", .stderr)]

def Device.ofName? (name : Text) : Option Device :=
  (names.find? (·.1.toList = name)).map (·.2)

end IndentMarkup
