import IndentMarkup.Position

/-!
# Tokens

A template is read as a sequence of tokens: words, blanks, quoted strings, and the
symbols and keywords of the template language. `Symbol.all` and `Keyword.all` list
them in order of precedence, so that of two symbols of which one starts the other
the longer comes first.
-/

namespace IndentMarkup

inductive Symbol where
  | openBrace
  | closeBrace
  | plus
  | inlineValue
  | equals
  | hash
  | comma
  | openParen
  | closeParen
  | silentComment
  | comment
  | bang
  | pipe
  | colon
  /-- A dot that ends its line. -/
  | block
  | dot
  | newLine
  deriving DecidableEq, Repr

inductive Keyword where
  | doctype
  | «case»
  | when
  | default
  | «if»
  | «else»
  | var
  | each
  | mixin
  | «include»
  | «class»
  deriving DecidableEq, Repr

namespace Symbol

def all : List Symbol :=
  [openBrace, closeBrace, plus, inlineValue, equals, hash, comma, openParen,
    closeParen, silentComment, comment, bang, pipe, colon, block, dot, newLine]

def literal : Symbol → Text
  | openBrace => ['{']
  | closeBrace => ['}']
  | plus => ['+']
  | inlineValue => ['=', ' ']
  | equals => ['=']
  | hash => ['#']
  | comma => [',']
  | openParen => ['(']
  | closeParen => [')']
  | silentComment => ['/', '/', '-']
  | comment => ['/', '/']
  | bang => ['!']
  | pipe => ['|']
  | colon => [':']
  | block => ['.', '\n']
  | dot => ['.']
  | newLine => ['\n']

def name : Symbol → String
  | openBrace => "OpenBracket"
  | closeBrace => "CloseBracket"
  | plus => "Plus"
  | inlineValue => "InlineValue"
  | equals => "Equals"
  | hash => "HashTag"
  | comma => "Comma"
  | openParen => "OpenParenth"
  | closeParen => "CloseParenth"
  | silentComment => "JadeComment"
  | comment => "Comment"
  | bang => "Bang"
  | pipe => "Pipe"
  | colon => "Colon"
  | block => "Block"
  | dot => "Dot"
  | newLine => "NewLine"

theorem mem_all (s : Symbol) : s ∈ all := by
  cases s <;> decide

theorem literal_ne_nil (s : Symbol) : s.literal ≠ [] := by
  cases s <;> decide

theorem literal_injective {s t : Symbol} (same : s.literal = t.literal) : s = t := by
  cases s <;> cases t <;> first | rfl | exact absurd same (by decide)

end Symbol

namespace Keyword

def all : List Keyword :=
  [.doctype, .case, .when, .default, .if, .else, .var, .each, .mixin, .include, .class]

def literal : Keyword → Text
  | .doctype => ['d', 'o', 'c', 't', 'y', 'p', 'e']
  | .case => ['c', 'a', 's', 'e']
  | .when => ['w', 'h', 'e', 'n']
  | .default => ['d', 'e', 'f', 'a', 'u', 'l', 't']
  | .if => ['i', 'f']
  | .else => ['e', 'l', 's', 'e']
  | .var => ['-', ' ', 'v', 'a', 'r']
  | .each => ['e', 'a', 'c', 'h']
  | .mixin => ['m', 'i', 'x', 'i', 'n']
  | .include => ['i', 'n', 'c', 'l', 'u', 'd', 'e']
  | .class => ['c', 'l', 'a', 's', 's']

def name : Keyword → String
  | .doctype => "Doctype"
  | .case => "Case"
  | .when => "When"
  | .default => "Default"
  | .if => "If"
  | .else => "Else"
  | .var => "Var"
  | .each => "Each"
  | .mixin => "Mixin"
  | .include => "Include"
  | .class => "Class"

theorem mem_all (k : Keyword) : k ∈ all := by
  cases k <;> decide

theorem literal_ne_nil (k : Keyword) : k.literal ≠ [] := by
  cases k <;> decide

end Keyword

namespace Token

inductive Kind where
  /-- A mark for the end of input; no text is read as one. -/
  | eof
  /-- Blanks within a line. -/
  | space
  | word
  | quoted
  | symbol (symbol : Symbol)
  | keyword (keyword : Keyword)
  deriving DecidableEq, Repr

namespace Kind

def all : List Kind :=
  [eof, space, word, quoted] ++ Symbol.all.map symbol ++ Keyword.all.map keyword

/-- The one text of a symbol or keyword. -/
def literal? : Kind → Option Text
  | symbol s => some s.literal
  | keyword k => some k.literal
  | _ => none

def isKeyword : Kind → Bool
  | keyword _ => true
  | _ => false

/-- Words name tags, classes, ids and attributes, and so do all keywords that look
like words. -/
def isName : Kind → Bool
  | word => true
  | keyword k => k ≠ .var
  | _ => false

def name : Kind → String
  | eof => "Eof"
  | space => "WhiteSpace"
  | word => "Word"
  | quoted => "QuotedString"
  | symbol s => s.name
  | keyword k => k.name

def ofName? (name : String) : Option Kind :=
  all.find? (·.name = name)

theorem mem_all (kind : Kind) : kind ∈ all := by
  cases kind with
  | symbol s => cases s <;> decide
  | keyword k => cases k <;> decide
  | _ => decide

end Kind

end Token

structure Token where
  kind : Token.Kind
  /-- What was read; of a quoted string, what stands between the quotation marks. -/
  text : Text
  position : Position
  deriving DecidableEq, Repr

namespace Token

/-- The number of source characters of the token: a quoted string also has its two
quotation marks. -/
def sourceLength (t : Token) : Nat :=
  match t.kind with
  | .quoted => t.text.length + 2
  | _ => t.text.length

/-- The offset just behind the token. -/
def stop (t : Token) : Nat :=
  t.position.index + t.sourceLength

end Token

end IndentMarkup
