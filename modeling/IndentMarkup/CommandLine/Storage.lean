import IndentMarkup.Text.Basic

/-!
# Storage

What the command line tool needs of the place where files are kept. A failure comes
with the words in which it is reported.
-/

namespace IndentMarkup

inductive FileError where
  | noEntry
  | notDirectory
  | isDirectory
  | noSpace
  | nameTooLong
  | notText
  deriving DecidableEq, Repr

def FileError.message : FileError → String
  | .noEntry => "No such file or directory (os error 2)"
  | .notDirectory => "Not a directory (os error 20)"
  | .isDirectory => "Is a directory (os error 21)"
  | .noSpace => "No space left on device (os error 28)"
  | .nameTooLong => "File name too long (os error 36)"
  | .notText => "stream did not contain valid UTF-8"

structure Storage (m : Type → Type) (File : Type) where
  isPresent : Text → m Bool
  read : Text → m (Except String Text)
  /-- Opens the file at a path for writing. It is made if it is not there, and emptied if
  it is. -/
  create : Text → m (Except String File)
  /-- Writes all of a text to an open file. -/
  fill : File → Text → m (Except String Unit)

/-- Replaces what the file at a path holds. Where the second step fails, what the first
has done stays. -/
def Storage.write {m : Type → Type} [Monad m] {File : Type} (storage : Storage m File)
    (path text : Text) : ExceptT String m Unit := do
  let file ← ExceptT.mk (storage.create path)
  ExceptT.mk (storage.fill file text)

end IndentMarkup
