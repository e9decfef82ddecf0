import IndentMarkup.Statement.TagLine

/-!
# Statements

What one line of a template says by itself, before the lines nested under it are
looked at.
-/

namespace IndentMarkup

inductive Statement where
  | tag (line : TagLine)
  | piped (text : Text)
  | comment (text : Text) (buffered : Bool)
  | marker (kind : Marker) (argument : Text)
  | condition (predicate : Text)
  deriving DecidableEq, Repr

namespace Statement

/-- The word `for` is a marker only in front of a blank. -/
def isForMarker (first : Token) (rest : Line) : Bool :=
  first.text = ['f', 'o', 'r'] && rest.startsWith .space

def readComment (source : Text) (buffered : Bool) (rest : Line) : Statement × Line :=
  let (text, left) := rest.readText source
  (.comment text buffered, left)

/-- The blanks behind the pipe are no part of the text. -/
def readPiped (source : Text) (rest : Line) : Statement × Line :=
  let (text, left) := Line.readText source <|
    match rest with
    | [] => []
    | t :: later => if t.kind = .space then later else rest
  (.piped text, left)

def readMarker (source : Text) (kind : Marker) (rest : Line) :
    Except ParseError (Statement × Line) := do
  let (argument, left) ← rest.skipSpace.readRequired source
  return (.marker kind argument, left)

def readCondition (source : Text) (rest : Line) : Except ParseError (Statement × Line) := do
  let (_, rest) ← rest.expect .space
  let (predicate, left) ← rest.readRequired source
  return (.condition predicate, left)

/-- Reads the statement at the start of a line that has no leading blanks, and returns
what is left of the line. -/
def read (source : Text) : Line → Except ParseError (Statement × Line)
  | [] => .error .unexpectedEnd
  | t :: rest =>
    let tagLine :=
      (TagLine.read source (t :: rest)).map fun (line, left) => (.tag line, left)
    match t.kind with
    | .symbol .comment => .ok (readComment source true rest)
    | .symbol .silentComment => .ok (readComment source false rest)
    | .symbol .pipe => .ok (readPiped source rest)
    | .symbol .dot | .symbol .hash => tagLine
    | .keyword .each => readMarker source .each rest
    | .keyword .mixin => readMarker source .mixin rest
    | .keyword .include => readMarker source .include rest
    | .keyword .if => readCondition source rest
    | .word => if isForMarker t rest then readMarker source .for rest else tagLine
    | _ => .error (.ofToken t)

/-- The statement of a whole line. -/
def ofLine (source : Text) (line : Line) : Except ParseError Statement := do
  match ← read source line.skipSpace with
  | (statement, []) => return statement
  | (_, t :: _) => .error (.ofToken t)

@[simp] theorem readComment_eq (source : Text) (buffered : Bool) (rest : Line) :
    readComment source buffered rest = (.comment (rest.trimmedText source) buffered, []) := by
  rw [readComment, Line.readText_eq]

@[simp] theorem readPiped_nil (source : Text) : readPiped source [] = (.piped [], []) := rfl

@[simp] theorem readPiped_cons (source : Text) (t : Token) (later : Line) :
    readPiped source (t :: later) =
      (.piped (Line.trimmedText source (if t.kind = .space then later else t :: later)), []) := by
  rw [readPiped, Line.readText_eq]

theorem readPiped_left (source : Text) (rest : Line) : (readPiped source rest).2 = [] := by
  cases rest <;> rw [readPiped, Line.readText_eq]

theorem readMarker_eq (source : Text) (kind : Marker) (rest : Line) :
    readMarker source kind rest =
      (Line.requiredText source rest.skipSpace).map fun argument => (.marker kind argument, []) := by
  rw [readMarker, Line.readRequired_eq]
  cases rest.skipSpace.requiredText source <;> rfl

theorem readCondition_eq (source : Text) (rest : Line) :
    readCondition source rest = (do
      let (_, rest) ← rest.expect .space
      return (.condition (← Line.requiredText source rest), [])) := by
  rw [readCondition]
  refine bind_congr fun (_, rest) => ?_
  dsimp only
  rw [Line.readRequired_eq]
  cases rest.requiredText source <;> rfl

end Statement

end IndentMarkup
