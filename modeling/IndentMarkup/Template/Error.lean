import IndentMarkup.Token.Basic
import IndentMarkup.Token.LexError

/-!
# Errors of template reading
-/

namespace IndentMarkup

inductive ParseError where
  /-- Another token was needed here. -/
  | unexpectedToken (text : Text) (line column : Nat)
  /-- More was needed, but the line has ended. -/
  | unexpectedEnd
  /-- A token was needed where the end-of-input mark stands. -/
  | invalidToken
  | lexer (error : LexError)
  deriving DecidableEq, Repr

namespace ParseError

/-- The complaint about a token that cannot stand where it does. -/
def ofToken (t : Token) : ParseError :=
  if t.kind = .eof then .invalidToken
  else .unexpectedToken t.text t.position.line t.position.column

def message : ParseError → String
  | .unexpectedToken text line column =>
    "Unexpected " ++ String.ofList text ++ " at line: " ++ line.repr ++
      ", column: " ++ column.repr ++ "."
  | .unexpectedEnd => "Unexpected end of template."
  | .invalidToken => "Invalid token."
  | .lexer error => error.message

def line? : ParseError → Option Nat
  | .unexpectedToken _ line _ => some line
  | .lexer (.unrecognizedCharacter _ line _) => some line
  | _ => none

def column? : ParseError → Option Nat
  | .unexpectedToken _ _ column => some column
  | .lexer (.unrecognizedCharacter _ _ column) => some column
  | _ => none

end ParseError

end IndentMarkup
