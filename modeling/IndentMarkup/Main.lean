import IndentMarkup.CommandLine.Run

/-!
# The command line program

Runs a call on the files of the system.
-/

namespace IndentMarkup

def systemReason : IO.Error → String
  | .noFileOrDirectory _ code details => s!"{details} (os error {code})"
  | .inappropriateType _ code details => s!"{details} (os error {code})"
  | .invalidArgument _ code details => s!"{details} (os error {code})"
  | .permissionDenied _ code details => s!"{details} (os error {code})"
  | error => error.toString

def systemStorage : Storage IO IO.FS.Handle where
  isPresent path := do
    try
      discard (IO.FS.Handle.mk (String.ofList path) .read)
      return true
    catch
      | .permissionDenied .. => return true
      | _ => return false
  read path := do
    try
      let bytes ← IO.FS.readBinFile (String.ofList path)
      match String.fromUTF8? bytes with
      | some text => return .ok text.toList
      | none => return .error FileError.notText.message
    catch error => return .error (systemReason error)
  create path := do
    try return .ok (← IO.FS.Handle.mk (String.ofList path) .write)
    catch error => return .error (systemReason error)
  fill file text := do
    try
      file.putStr (String.ofList text)
      file.flush
      return .ok ()
    catch error => return .error (systemReason error)

end IndentMarkup

open IndentMarkup in
def main (arguments : List String) : IO UInt32 := do
  let outcome ← CommandLine.run systemStorage (arguments.map String.toList)
  IO.print outcome.stdout
  IO.eprint outcome.stderr
  return UInt32.ofNat outcome.status
