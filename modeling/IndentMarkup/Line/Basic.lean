import IndentMarkup.Template.Error
import IndentMarkup.Text.Blank

/-!
# Lines of tokens

A line is a list of tokens. Reading a line means taking tokens from its front, so each
reader returns what is left. A line feed token ends a line and does not belong to it;
a block marker ends a line too, and is its last token.
-/

namespace IndentMarkup

abbrev Line := List Token

namespace Line

def startsWith (line : Line) (kind : Token.Kind) : Bool :=
  line.head?.any (·.kind = kind)

def startsWithAny (line : Line) (kinds : List Token.Kind) : Bool :=
  line.head?.any fun t => kinds.contains t.kind

/-- The complaint about the first token, or about its absence. -/
def unexpected : Line → ParseError
  | [] => .unexpectedEnd
  | t :: _ => .ofToken t

def next : Line → Except ParseError (Token × Line)
  | [] => .error .unexpectedEnd
  | t :: rest => if t.kind = .eof then .error .invalidToken else .ok (t, rest)

def nextOf (kinds : List Token.Kind) (line : Line) : Except ParseError (Token × Line) :=
  if line.startsWithAny kinds then line.next else .error line.unexpected

def expect (kind : Token.Kind) (line : Line) : Except ParseError (Token × Line) :=
  if line.startsWith kind then line.next else .error line.unexpected

def skipSpace (line : Line) : Line :=
  line.dropWhile (·.kind = .space)

/-- Whether the line holds nothing but blanks. -/
def isBlank (line : Line) : Bool :=
  line.all (·.kind = .space)

/-- The width of the blanks that start the line. -/
def indent : Line → Nat
  | [] => 0
  | t :: _ => if t.kind = .space then t.text.length else 0

/-- Where the text of a line's last token ends: a block marker counts for its dot. -/
def lastStop (t : Token) : Nat :=
  if t.kind = .symbol .block then t.position.index + 1 else t.stop

/-- The source from the first token of the line to the last. -/
def sourceText (source : Text) (line : Line) : Text :=
  match line.head?, line.getLast? with
  | some first, some last => source.slice first.position.index (lastStop last)
  | _, _ => []

def trimmedText (source : Text) (line : Line) : Text :=
  (line.sourceText source).trimEnd

/-- The text of a line that cannot be empty. -/
def requiredText (source : Text) (line : Line) : Except ParseError Text :=
  match line.trimmedText source with
  | [] => .error .unexpectedEnd
  | text => .ok text

/-- Takes every token. -/
def drain : Line → Line
  | [] => []
  | _ :: rest => drain rest

/-- Takes all that is left of a line, as its source text. -/
def readRest (source : Text) (line : Line) : Text × Line :=
  (line.sourceText source, line.drain)

def readText (source : Text) (line : Line) : Text × Line :=
  let (text, left) := line.readRest source
  (text.trimEnd, left)

def readRequired (source : Text) (line : Line) : Except ParseError (Text × Line) :=
  match line.readText source with
  | ([], _) => .error .unexpectedEnd
  | (text, left) => .ok (text, left)

/-- Splits off the first line. -/
def cut : List Token → Line × List Token
  | [] => ([], [])
  | t :: rest =>
    if t.kind = .symbol .newLine then ([], rest)
    else if t.kind = .symbol .block then ([t], rest)
    else
      let (line, later) := cut rest
      (t :: line, later)

/-- All lines. A line feed at the very end starts no further line. -/
def split : List Token → List Line
  | [] => []
  | t :: rest =>
    if t.kind = .symbol .newLine then [] :: split rest
    else if t.kind = .symbol .block then [t] :: split rest
    else match split rest with
      | [] => [[t]]
      | line :: lines => (t :: line) :: lines

@[simp] theorem drain_eq_nil (line : Line) : line.drain = [] := by
  induction line with
  | nil => rfl
  | cons t rest ih => exact ih

/-- Nothing is left behind the rest of a line. -/
@[simp] theorem readRest_eq (source : Text) (line : Line) :
    line.readRest source = (line.sourceText source, []) := by
  rw [readRest, drain_eq_nil]

@[simp] theorem readText_eq (source : Text) (line : Line) :
    line.readText source = (line.trimmedText source, []) := by
  rw [readText, readRest_eq, trimmedText]

@[simp] theorem readRequired_eq (source : Text) (line : Line) :
    line.readRequired source = (line.requiredText source).map (·, []) := by
  rw [readRequired, requiredText, readText_eq]
  cases line.trimmedText source <;> rfl

theorem split_eq_cut_cons (t : Token) (rest : List Token) :
    split (t :: rest) = (cut (t :: rest)).1 :: split (cut (t :: rest)).2 := by
  induction rest generalizing t with
  | nil =>
    simp only [split, cut]
    split
    · rfl
    · split <;> rfl
  | cons following rest ih =>
    rw [split, cut]
    split
    · rfl
    · split
      · rfl
      · rw [ih following]

theorem length_skipSpace_le (line : Line) : line.skipSpace.length ≤ line.length :=
  (List.dropWhile_sublist _).length_le

end Line

end IndentMarkup
