import IndentMarkup.Line.Tree
import IndentMarkup.Statement.Basic
import IndentMarkup.Token.Lexer

/-!
# Reading templates

The lines of a template are arranged by indentation, and the statement of each line
decides what the lines nested under it are: elements, text, or the branch of a
condition. An `else` line belongs to the `if` line right before it at the same indent,
blank lines aside. The first error ends the reading.
-/

namespace IndentMarkup

/-- Whether the lines nested under a tag line are text. -/
def TagLine.holdsText : TagLine → Bool
  | .plain .. => false
  | .textBlock _ => true
  | .around _ inner => inner.holdsText

/-- The element of a tag line, given the nested lines as the text or as the elements
that it holds. -/
def TagLine.element (text : Text) (children : List Element) : TagLine → Element
  | .plain head content => .tag head content children
  | .textBlock head => .tag head (if text = [] then none else some (.text text)) []
  | .around head inner => .tag head none [inner.element text children]

/-- The element of a statement, given the nested lines and what they are as elements.
Piped text can have no nested lines, and a condition is taken to have no `else`. -/
def Statement.element (source : Text) (nested : List LineTree)
    (children : Except ParseError (List Element)) : Statement → Except ParseError Element
  | .tag line =>
    if line.holdsText then .ok (line.element (blockText source nested) [])
    else children.map fun children => line.element [] children
  | .piped text =>
    match nested.find? (!·.isBlank) with
    | some child => .error child.line.skipSpace.unexpected
    | none => .ok (.text text)
  | .comment text buffered =>
    let body := blockText source nested
    .ok (.comment (if body = [] then text else text ++ '\n' :: body) buffered)
  | .marker kind argument => children.map (.marker kind argument)
  | .condition predicate => children.map fun branch => .conditional predicate branch []

/-- An `if` that may still find its `else`. -/
structure OpenCondition where
  indent : Nat
  predicate : Text
  thenBranch : List Element

namespace OpenCondition

def close (condition : OpenCondition) (elseBranch : List Element) : Element :=
  .conditional condition.predicate condition.thenBranch elseBranch

/-- Whether a line is the `else` of the condition. -/
def claims (condition : OpenCondition) (tree : LineTree) : Bool :=
  condition.indent = tree.indent && tree.line.skipSpace.startsWith (.keyword .else)

end OpenCondition

/-- Nothing but blanks may stand behind `else`. -/
def readElse (line : Line) : Except ParseError Unit := do
  let (_, rest) ← line.skipSpace.expect (.keyword .else)
  match rest.skipSpace with
  | [] => return ()
  | t :: _ => .error (.ofToken t)

mutual

/-- The lines nested under a line as elements. -/
def LineTree.children (source : Text) : LineTree → Except ParseError (List Element)
  | ⟨_, _, nested⟩ => LineTree.elements source none nested

/-- The elements of sibling lines. The `if` line before them, if any, is open. -/
def LineTree.elements (source : Text) (condition : Option OpenCondition) :
    List LineTree → Except ParseError (List Element)
  | [] => .ok (condition.map (·.close [])).toList
  | tree :: later =>
    if tree.isBlank then elements source condition later
    else match condition.filter (·.claims tree) with
      | some condition => do
        readElse tree.line
        let branch ← tree.children source
        return condition.close branch :: (← elements source none later)
      | none => do
        let closed := (condition.map (·.close [])).toList
        match ← Statement.ofLine source tree.line with
        | .condition predicate =>
          let branch ← tree.children source
          return closed ++ (← elements source (some ⟨tree.indent, predicate, branch⟩) later)
        | statement =>
          let element ← statement.element source tree.nested (tree.children source)
          return closed ++ element :: (← elements source none later)

end

namespace Template

/-- Reads the rest of a document type line behind `doctype`. -/
def readDoctype (source : Text) (rest : Line) : Except ParseError Text := do
  let (_, rest) ← rest.expect .space
  match (Line.readRest source rest).1.trim with
  | [] => .error .unexpectedEnd
  | keyword => return keyword

/-- The template of a token list. Texts are cut out of `source` by token positions. -/
def ofTokens (source : Text) (tokens : List Token) : Except ParseError Template :=
  match Line.split tokens with
  | (t :: rest) :: body =>
    if t.kind = .keyword .doctype then do
      let doctype ← readDoctype source rest
      return ⟨some doctype, ← LineTree.elements source none (LineTree.ofLines body)⟩
    else return ⟨none, ← LineTree.elements source none (LineTree.ofLines ((t :: rest) :: body))⟩
  | lines => return ⟨none, ← LineTree.elements source none (LineTree.ofLines lines)⟩

def parse (text : Text) : Except ParseError Template := do
  let source := text.normalize
  ofTokens source (← (Token.ofText source).mapError .lexer)

end Template

end IndentMarkup
