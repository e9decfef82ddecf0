import IndentMarkup.Cursor
import IndentMarkup.Line.Basic

/-!
# Token streams

A stream is a cursor over tokens that knows the source they were read from. Its lines
are streams of their own.
-/

namespace IndentMarkup

structure TokenStream where
  source : Text
  cursor : Cursor Token
  deriving DecidableEq, Repr

namespace TokenStream

def start (source : Text) (tokens : List Token) : TokenStream :=
  ⟨source, .start tokens⟩

def tokens (s : TokenStream) : List Token :=
  s.cursor.items

def remaining (s : TokenStream) : Line :=
  s.cursor.remaining

def current? (s : TokenStream) : Option Token :=
  s.cursor.current?

def peek? (s : TokenStream) (n : Nat) : Option Token :=
  s.cursor.peek? n

def atEnd (s : TokenStream) : Bool :=
  s.cursor.atEnd

def advance (s : TokenStream) (n : Nat) : TokenStream :=
  { s with cursor := s.cursor.advance n }

def consume (s : TokenStream) : TokenStream :=
  { s with cursor := s.cursor.consume }

def save (s : TokenStream) : TokenStream :=
  { s with cursor := s.cursor.save }

def commit (s : TokenStream) : TokenStream :=
  { s with cursor := s.cursor.commit }

def rollback (s : TokenStream) : TokenStream :=
  { s with cursor := s.cursor.rollback }

def startsWith (s : TokenStream) (kind : Token.Kind) : Bool :=
  s.remaining.startsWith kind

def startsWithAny (s : TokenStream) (kinds : List Token.Kind) : Bool :=
  s.remaining.startsWithAny kinds

def unexpected (s : TokenStream) : ParseError :=
  s.remaining.unexpected

/-- Takes a token as `reader` allows. -/
def read (s : TokenStream) (reader : Line → Except ParseError (Token × Line)) :
    Except ParseError (Token × TokenStream) :=
  (reader s.remaining).map fun (t, left) => (t, s.advance (s.remaining.length - left.length))

def next (s : TokenStream) : Except ParseError (Token × TokenStream) :=
  s.read Line.next

def nextOf (s : TokenStream) (kinds : List Token.Kind) : Except ParseError (Token × TokenStream) :=
  s.read (Line.nextOf kinds)

def expect (s : TokenStream) (kind : Token.Kind) : Except ParseError (Token × TokenStream) :=
  s.read (Line.expect kind)

def skipSpace (s : TokenStream) : TokenStream :=
  s.advance (s.remaining.length - s.remaining.skipSpace.length)

/-- The source text of what is left, and the stream at its end. -/
def rest (s : TokenStream) : Text × TokenStream :=
  let (text, left) := s.remaining.readRest s.source
  (text, s.advance (s.remaining.length - left.length))

/-- The source text of the whole stream. -/
def text (s : TokenStream) : Text :=
  Line.sourceText s.source s.tokens

/-- The line that starts here, and the stream behind it. -/
def line (s : TokenStream) : TokenStream × TokenStream :=
  let (line, later) := Line.cut s.remaining
  (start s.source line, s.advance (s.remaining.length - later.length))

/-- The lines of what is left, and the stream at its end. -/
def lines (s : TokenStream) : List TokenStream × TokenStream :=
  ((Line.split s.remaining).map (start s.source), s.advance s.remaining.length)

end TokenStream

end IndentMarkup
