import IndentMarkup.Text.Blank
import IndentMarkup.Text.Quoted

/-!
# Options and errors of rendering
-/

namespace IndentMarkup

/-- Which branch of a condition is rendered. -/
inductive BranchChoice where
  /-- Always the branch behind `else`. -/
  | elseBranch
  | thenBranch
  /-- A predicate holds if it is one of these flags, and one that starts with an
  exclamation mark if what follows is none of them. -/
  | flags (defined : List Text)
  deriving DecidableEq, Repr

def BranchChoice.takesThen (choice : BranchChoice) (predicate : Text) : Bool :=
  match choice with
  | .elseBranch => false
  | .thenBranch => true
  | .flags defined =>
    match predicate.trim with
    | '!' :: negated => !defined.contains (Text.trim negated)
    | flag => defined.contains flag

structure RenderOptions where
  /-- Written once per open element after every line break. -/
  indentUnit : Text := []
  /-- Written between a closed tag or comment and the tag or comment behind it. -/
  newlineMarker : Text := []
  autoEncode : Bool := false
  branches : BranchChoice := .elseBranch
  deriving DecidableEq, Repr

/-- Every element on a line of its own, indented by two spaces per level. -/
def RenderOptions.pretty : RenderOptions :=
  { indentUnit := [' ', ' '], newlineMarker := ['\n'] }

inductive RenderError where
  /-- The element has no markup. -/
  | unsupported (kindName : String)
  | attributeOutsideStartTag (name : Text)
  | unbalancedEndTag
  deriving DecidableEq, Repr

def RenderError.message : RenderError → String
  | .unsupported kindName => "Cannot render " ++ kindName ++ ": not supported"
  | .attributeOutsideStartTag name =>
    "Attribute " ++ name.quoted ++ " written outside of a start tag"
  | .unbalancedEndTag => "End tag written with no open element"

end IndentMarkup
