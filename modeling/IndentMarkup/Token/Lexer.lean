import IndentMarkup.Token.Grammar

/-!
# Reading tokens

A lexer hands out the tokens of a text one by one. Where no matcher of its grammar
accepts the text, it hands out one error and is finished.
-/

namespace IndentMarkup

structure Lexer where
  grammar : Grammar
  rest : Text
  position : Position := .start

namespace Lexer

def start (grammar : Grammar) (text : Text) : Lexer :=
  { grammar, rest := text }

def next? (lexer : Lexer) : Option (Except LexError Token × Lexer) :=
  match lexer.rest with
  | [] => none
  | c :: _ =>
    match lexer.grammar.next? lexer.rest with
    | some found =>
      some (.ok ⟨found.kind, found.text, lexer.position⟩,
        { lexer with rest := found.rest, position := lexer.position.advance found.taken })
    | none =>
      some (.error (.unrecognizedCharacter c lexer.position.line lexer.position.column),
        { lexer with rest := [] })

theorem length_next? {lexer later : Lexer} {item : Except LexError Token}
    (stepped : lexer.next? = some (item, later)) : later.rest.length < lexer.rest.length := by
  unfold next? at stepped
  split at stepped
  · contradiction
  next c tail more =>
    split at stepped
    next found matched => cases stepped; exact Grammar.length_rest_lt matched
    next => cases stepped; simp [more]

/-- Everything the lexer still hands out, and the lexer it then is. -/
def drain (lexer : Lexer) : List (Except LexError Token) × Lexer :=
  match _stepped : lexer.next? with
  | none => ([], lexer)
  | some (item, later) =>
    let (items, last) := later.drain
    (item :: items, last)
termination_by lexer.rest.length
decreasing_by exact length_next? _stepped

def items (lexer : Lexer) : List (Except LexError Token) :=
  lexer.drain.1

def isFinished (lexer : Lexer) : Bool :=
  lexer.next?.isNone

end Lexer

/-- The tokens of a normalized text in the grammar of templates. -/
def Token.ofText (text : Text) : Except LexError (List Token) :=
  (Lexer.start .standard text).items.mapM id

theorem Lexer.drain_of_next?_eq_none {lexer : Lexer} (done : lexer.next? = none) :
    lexer.drain = ([], lexer) := by
  rw [drain]
  split <;> simp_all

theorem Lexer.drain_of_next?_eq_some {lexer later : Lexer} {item : Except LexError Token}
    (stepped : lexer.next? = some (item, later)) :
    lexer.drain = (item :: later.drain.1, later.drain.2) := by
  rw [drain]
  split <;> simp_all

end IndentMarkup
