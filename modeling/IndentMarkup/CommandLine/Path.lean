import IndentMarkup.Text.Basic

/-!
# Paths

The parts of a path are divided by slashes. Where no output is named, markup goes next
to its template, under the same name with another extension.
-/

namespace IndentMarkup.Path

/-- The part behind the last slash. -/
def lastPart (path : Text) : Text :=
  (path.reverse.takeWhile (· ≠ '/')).reverse

/-- What stands in front of the last part. -/
def front (path : Text) : Text :=
  (path.reverse.dropWhile (· ≠ '/')).reverse

/-- Drops slashes and parts that are a single dot from the end, given in reverse, as
long as something else is left. -/
def trimReversed : Text → Text
  | ['/'] => ['/']
  | '/' :: rest => trimReversed rest
  | '.' :: '/' :: rest => trimReversed ('/' :: rest)
  | path => path

def trimmed (path : Text) : Text :=
  (trimReversed path.reverse).reverse

/-- The name of the file that a path names. Dots name folders. -/
def fileName? (path : Text) : Option Text :=
  let name := lastPart (trimmed path)
  if name = [] ∨ name = ['.'] ∨ name = ['.', '.'] then none else some name

/-- The directory of what a path names; empty if the path is a mere name. -/
def directory? (path : Text) : Option Text :=
  let path := trimmed path
  if path = [] ∨ path = ['/'] then none else some (trimmed (front path))

/-- A file name less its last extension. A dot at the front starts no extension. -/
def stem (name : Text) : Text :=
  match name.reverse.dropWhile (· ≠ '.') with
  | [] => name
  | [_] => name
  | _ :: before => before.reverse

def append (directory name : Text) : Text :=
  match directory.getLast? with
  | none => name
  | some '/' => directory ++ name
  | some _ => directory ++ '/' :: name

def defaultOutput (path : Text) : Text :=
  let stem := ((fileName? path).map stem).getD ['o', 'u', 't']
  append ((directory? path).getD ['.']) (stem ++ ['.', 'h', 't', 'm', 'l'])

end IndentMarkup.Path
