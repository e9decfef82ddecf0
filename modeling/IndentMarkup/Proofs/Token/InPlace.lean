import IndentMarkup.Token.Lexer

/-!
# Reading tokens in place

Tokens are read by moving one cursor. A matcher goes ahead on trial and looks ahead for
delimiters, each time behind a saved place; what it did not accept is undone by going
back there.
-/

namespace IndentMarkup

namespace TextCursor

/-- The cursor at another position, with the same saved places. -/
def moveTo (c : TextCursor) (p : Position) : TextCursor :=
  { c with chars := { c.chars with index := p.index }, line := p.line, column := p.column }

theorem remaining_of_current {c : TextCursor} {char : Char} (here : c.current? = some char) :
    c.remaining = char :: c.consume.remaining := by
  obtain ⟨bound, rfl⟩ := List.getElem?_eq_some_iff.mp here
  have later : c.consume.remaining = c.chars.items.drop (c.chars.index + 1) := by
    simp [consume, here, remaining, Cursor.remaining, Cursor.consume, bound]
  rw [later]
  exact List.drop_eq_getElem_cons bound

theorem remaining_of_ended {c : TextCursor} (ended : c.current? = none) : c.remaining = [] :=
  List.drop_eq_nil_of_le (List.getElem?_eq_none_iff.mp ended)

theorem atEnd_eq_isNone (c : TextCursor) : c.atEnd = c.current?.isNone := by
  rw [Bool.eq_iff_iff, Option.isNone_iff_eq_none]
  exact decide_eq_true_iff.trans List.getElem?_eq_none_iff.symm

theorem consume_of_current {c : TextCursor} {char : Char} (here : c.current? = some char) :
    c.consume = c.moveTo (c.position.step char) := by
  obtain ⟨bound, -⟩ := List.getElem?_eq_some_iff.mp here
  simp [consume, here, Cursor.consume, bound, moveTo, position]

theorem consume_of_ended {c : TextCursor} (ended : c.current? = none) : c.consume = c := by
  simp [consume, ended]

/-- Nothing but the position changes on the way. -/
theorem advance_eq_moveTo (c : TextCursor) (n : Nat) :
    c.advance n = c.moveTo (c.position.advance (c.remaining.take n)) := by
  induction n generalizing c with
  | zero => rfl
  | succ n ih =>
    rw [advance, ih]
    cases here : c.current? with
    | none => rw [consume_of_ended here, remaining_of_ended here, List.take_nil, List.take_nil]
    | some char =>
      rw [remaining_of_current here, List.take_succ_cons, Position.advance_cons,
        consume_of_current here]
      rfl

/-- Whatever was consumed behind a saved place, going back there undoes it. -/
theorem rollback_advance (c : TextCursor) (n : Nat) : (c.save.advance n).rollback = c := by
  rw [advance_eq_moveTo]
  rfl

theorem commit_advance (c : TextCursor) (n : Nat) : (c.save.advance n).commit = c.advance n := by
  rw [advance_eq_moveTo, advance_eq_moveTo]
  rfl

theorem lookahead_of_advance {β : Type} {c : TextCursor} {body : TextCursor → Option β × TextCursor}
    {result : Option β} {n : Nat} (ran : body c.save = (result, c.save.advance n)) :
    c.lookahead body = (result.isSome, c) := by
  rw [lookahead, ran]
  exact congrArg _ (rollback_advance c n)

theorem attempt_of_advance {β : Type} {c : TextCursor} {body : TextCursor → Option β × TextCursor}
    {result : Option β} {n : Nat} (ran : body c.save = (result, c.save.advance n)) :
    c.attempt body = (result, if result.isSome then c.advance n else c) := by
  rw [attempt, ran]
  cases result with
  | none => exact congrArg _ (rollback_advance c n)
  | some value => exact congrArg _ (commit_advance c n)

/-- Consumes the text up to the first character that differs. -/
def consumeLiteral (c : TextCursor) : Text → Option Unit × TextCursor
  | [] => (some (), c)
  | expected :: rest =>
    if c.current? = some expected then c.consume.consumeLiteral rest else (none, c)

/-- Whether one of the literals starts here. -/
def startsAny (c : TextCursor) : List Literal → Bool × TextCursor
  | [] => (false, c)
  | literal :: later =>
    match c.lookahead (consumeLiteral · literal.chars) with
    | (true, c) => (true, c)
    | (false, c) => c.startsAny later

/-- Whether a word or keyword ends here. -/
def endsWord (c : TextCursor) (g : Grammar) : Bool × TextCursor :=
  match c.current? with
  | none => (true, c)
  | some char => if isBlank char then (true, c) else c.startsAny g.delimiters

theorem consumeLiteral_eq (c : TextCursor) (text : Text) :
    ∃ n, c.consumeLiteral text =
        (if text.isPrefixOf c.remaining then some () else none, c.advance n) ∧
      (text.isPrefixOf c.remaining = true → n = text.length) := by
  induction text generalizing c with
  | nil => exact ⟨0, rfl, fun _ => rfl⟩
  | cons expected rest ih =>
    rw [consumeLiteral]
    cases here : c.current? with
    | none =>
      refine ⟨0, ?_, ?_⟩ <;> simp [remaining_of_ended here, advance]
    | some char =>
      rw [remaining_of_current here]
      by_cases same : char = expected
      · subst same
        obtain ⟨n, consumed, whole⟩ := ih c.consume
        refine ⟨n + 1, ?_, ?_⟩
        · simp [consumed, advance]
        · intro starts
          rw [whole (by simpa using starts), List.length_cons]
      · refine ⟨0, ?_, ?_⟩
        · simp [same, Ne.symm same, advance]
        · simp [Ne.symm same]

/-- Looking ahead leaves the cursor where it is. -/
theorem startsAny_eq (c : TextCursor) (delimiters : List Literal) :
    c.startsAny delimiters = (delimiters.any (·.chars.isPrefixOf c.remaining), c) := by
  induction delimiters with
  | nil => rfl
  | cons literal later ih =>
    obtain ⟨n, consumed, -⟩ := c.save.consumeLiteral_eq literal.chars
    rw [startsAny, lookahead_of_advance consumed, List.any_cons]
    have same : c.save.remaining = c.remaining := rfl
    rw [same]
    cases literal.chars.isPrefixOf c.remaining with
    | true => rfl
    | false => exact ih

theorem endsWord_eq (c : TextCursor) (g : Grammar) :
    c.endsWord g = (Matcher.ended g.stops c.remaining, c) := by
  rw [endsWord]
  cases here : c.current? with
  | none => rw [remaining_of_ended here]; rfl
  | some char =>
    rw [remaining_of_current here, Matcher.ended, ← remaining_of_current here]
    simp only [startsAny_eq]
    cases isBlank char <;> rfl

theorem length_consume_lt {c : TextCursor} {char : Char} (here : c.current? = some char) :
    c.consume.remaining.length < c.remaining.length := by
  rw [remaining_of_current here]
  exact Nat.lt_succ_self _

/-- Consumes a string up to its closing delimiter, and that too. -/
def closeString (delimiter : Char) (text : Text) (c : TextCursor) : Option Text × TextCursor :=
  match _here : c.current? with
  | none => (none, c)
  | some char =>
    if char = delimiter then (some text, c.consume)
    else c.consume.closeString delimiter (text ++ [char])
termination_by c.remaining.length
decreasing_by exact length_consume_lt _here

def skipBlanks (c : TextCursor) : TextCursor :=
  match _here : c.current? with
  | none => c
  | some char => if isInlineBlank char then c.consume.skipBlanks else c
termination_by c.remaining.length
decreasing_by exact length_consume_lt _here

theorem exists_current {c after : TextCursor} {g : Grammar}
    (within : c.endsWord g = (false, after)) : after = c ∧ ∃ char, c.current? = some char := by
  rw [endsWord_eq] at within
  obtain ⟨goes, rfl⟩ := Prod.mk.inj within
  refine ⟨rfl, Option.ne_none_iff_exists'.mp fun ended => ?_⟩
  rw [remaining_of_ended ended] at goes
  contradiction

def skipWord (g : Grammar) (c : TextCursor) : TextCursor :=
  match _here : c.endsWord g with
  | (true, c) => c
  | (false, c) => c.consume.skipWord g
termination_by c.remaining.length
decreasing_by
  obtain ⟨rfl, _, here⟩ := exists_current _here
  exact length_consume_lt here

end TextCursor

namespace Matcher

/-- Matches from here on. A match that fails stops wherever that shows. -/
def readHere (g : Grammar) (m : Matcher) (c : TextCursor) : Option Token × TextCursor :=
  match m with
  | .quoted delimiter =>
    if c.current? = some delimiter then
      let (text, reached) := c.consume.closeString delimiter []
      (text.map (⟨.quoted, ·, c.position⟩), reached)
    else (none, c)
  | .symbol kind literal =>
    let (found, reached) := c.consumeLiteral literal.chars
    (found.map fun _ => ⟨kind, literal.chars, c.position⟩, reached)
  | .keyword kind literal =>
    match c.consumeLiteral literal.chars with
    | (none, reached) => (none, reached)
    | (some _, reached) =>
      let (ended, reached) := reached.endsWord g
      (if ended then some ⟨kind, literal.chars, c.position⟩ else none, reached)
  | .blanks =>
    let reached := c.skipBlanks
    match reached.since c.position.index with
    | [] => (none, reached)
    | run => (some ⟨.space, run, c.position⟩, reached)
  | .word =>
    let reached := c.skipWord g
    match reached.since c.position.index with
    | [] => (none, reached)
    | run => (some ⟨.word, run, c.position⟩, reached)

/-- Matches on trial: the cursor goes on only if there is a token. -/
def read (g : Grammar) (m : Matcher) (c : TextCursor) : Option Token × TextCursor :=
  if c.atEnd then (none, c) else c.attempt (m.readHere g)

end Matcher

/-- The token of the first matcher that accepts one. -/
def Grammar.read (g : Grammar) : List Matcher → TextCursor → Option Token × TextCursor
  | [], c => (none, c)
  | m :: later, c =>
    match m.read g c with
    | (some t, c) => (some t, c)
    | (none, c) => g.read later c

/-- A lexer that moves a cursor. After an error it is finished. -/
structure Scanner where
  grammar : Grammar
  cursor : TextCursor
  failed : Bool := false

namespace Scanner

def start (grammar : Grammar) (text : Text) : Scanner :=
  { grammar, cursor := .start text }

def next (s : Scanner) : Option (Except LexError Token) × Scanner :=
  if s.failed || s.cursor.atEnd then (none, s)
  else match s.grammar.read s.grammar.matchers s.cursor with
    | (some t, cursor) => (some (.ok t), { s with cursor })
    | (none, cursor) =>
      let char := cursor.current?.getD '\x00'
      (some (.error (.unrecognizedCharacter char cursor.line cursor.column)),
        { s with cursor, failed := true })

/-- The answer to a call, counted from zero. -/
def answer (s : Scanner) : Nat → Option (Except LexError Token)
  | 0 => s.next.1
  | n + 1 => s.next.2.answer n

end Scanner

end IndentMarkup
