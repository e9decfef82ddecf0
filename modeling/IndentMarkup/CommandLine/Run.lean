import IndentMarkup.CommandLine.Arguments
import IndentMarkup.CommandLine.Path
import IndentMarkup.CommandLine.Storage
import IndentMarkup.Markup.Render

/-!
# Running a call

`build` renders a template into a file, `check` only tells whether that would fail, and
`tokens` lists the tokens of a template.
-/

namespace IndentMarkup.CommandLine

structure Outcome where
  status : Nat
  stdout : String := ""
  stderr : String := ""
  deriving DecidableEq, Repr

def versionText : String :=
  "jadeite 0.3.0\n"

def helpText : String :=
  "Indentation-based template to markup compiler\n\n" ++
    "Usage: jadeite [-v] build <PATH> [-o <OUT>] [--pretty] [--encode] " ++
    "[-D <NAME>]... [--then-branch]\n" ++
    "       jadeite [-v] check <PATH>\n" ++
    "       jadeite [-v] tokens <PATH>\n"

/-- A complaint about the file at a path. -/
def complaint (what : String) (path : Text) (reason : String) : String :=
  what ++ " " ++ String.ofList path ++ ": " ++ reason

def compile (path source : Text) (options : RenderOptions) : Except String Text := do
  let template ← (Template.parse source).mapError fun error =>
    complaint "Parse error in" path error.message
  (template.render options).mapError fun error =>
    complaint "Render error in" path error.message

/-- Markup that is laid out in lines ends its last line, unless it is empty. -/
def fileText (options : RenderOptions) (markup : Text) : Text :=
  if markup = [] then [] else markup ++ options.newlineMarker

def tokenLine (t : Token) : String :=
  t.position.display ++ " " ++ t.kind.name ++ " " ++ t.text.quoted ++ "\n"

def listTokens (path source : Text) : Except String String :=
  match Token.ofText source.normalize with
  | .ok tokens => .ok (String.join (tokens.map tokenLine))
  | .error error => .error (complaint "Lexer error in" path error.message)

variable {m : Type → Type} [Monad m] {File : Type}

def readSource (storage : Storage m File) (path : Text) : ExceptT String m Text := do
  if ← storage.isPresent path then
    (ExceptT.mk (storage.read path)).adapt (complaint "Error reading" path)
  else throw ("Error: file not found: " ++ String.ofList path)

/-- Builds, and returns the path of the output. -/
def build (storage : Storage m File) (path : Text) (out : Option Text) (options : RenderOptions) :
    ExceptT String m Text := do
  let source ← readSource storage path
  let markup ← compile path source options
  let target := out.getD (Path.defaultOutput path)
  (storage.write target (fileText options markup)).adapt (complaint "Error writing" target)
  return target

/-- Rendering is part of the check: some templates can be read but not rendered. -/
def check (storage : Storage m File) (path : Text) : ExceptT String m Unit := do
  let source ← readSource storage path
  let _ ← compile path source {}

def tokens (storage : Storage m File) (path : Text) : ExceptT String m String := do
  let source ← readSource storage path
  listTokens path source

/-- What a request writes to its two outputs. -/
def answer (storage : Storage m File) : Request → ExceptT String m (String × String)
  | .build path out options => do
    let target ← build storage path out options
    return ("", "Built: " ++ String.ofList target ++ "\n")
  | .check path => do
    check storage path
    return ("", "OK: " ++ String.ofList path ++ "\n")
  | .tokens path => return (← tokens storage path, "")

/-- The status is 0 for success, 1 for a request that fails and 2 for arguments that make
no request. -/
def respond (storage : Storage m File) : Except Interruption Request → m Outcome
  | .error .help => return { status := 0, stdout := helpText }
  | .error .version => return { status := 0, stdout := versionText }
  | .error (.usage error) =>
    return { status := 2, stderr := "error: " ++ error.message ++ "\n" }
  | .ok request => do
    match ← (answer storage request).run with
    | .ok (stdout, stderr) => return { status := 0, stdout, stderr }
    | .error line => return { status := 1, stderr := line ++ "\n" }

def run (storage : Storage m File) (arguments : List Text) : m Outcome :=
  respond storage (readCall {} arguments)

end IndentMarkup.CommandLine
