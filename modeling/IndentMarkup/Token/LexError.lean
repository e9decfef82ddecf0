import IndentMarkup.Text.Quoted

/-!
# Errors of token reading
-/

namespace IndentMarkup

inductive LexError where
  /-- A matcher was set up with a literal that can match nothing sensible. -/
  | malformedLiteral (literal : Text) (reason : String)
  /-- No matcher of the grammar accepts the character. -/
  | unrecognizedCharacter (char : Char) (line column : Nat)
  deriving DecidableEq, Repr

namespace LexError

def badDelimiter (delimiter : Text) : LexError :=
  .malformedLiteral delimiter "a string delimiter must be exactly one character"

def emptyLiteral : LexError :=
  .malformedLiteral [] "the literal cannot be an empty string"

def message : LexError → String
  | .malformedLiteral literal reason =>
    "Malformed literal " ++ literal.quoted ++ ": " ++ reason
  | .unrecognizedCharacter char line column =>
    "Lexer error at line " ++ line.repr ++ ", column " ++ column.repr ++
      ": unrecognized character " ++ Text.quotedChar char

end LexError

end IndentMarkup
