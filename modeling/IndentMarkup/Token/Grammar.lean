import IndentMarkup.Token.Matcher

/-!
# Grammars

A grammar is an ordered list of matchers: the first that matches decides. Its symbols
are the delimiters at which words and keywords end.
-/

namespace IndentMarkup

structure Grammar where
  matchers : List Matcher
  deriving DecidableEq, Repr

namespace Grammar

def delimiters (g : Grammar) : List Literal :=
  g.matchers.filterMap fun
    | .symbol _ literal => some literal
    | _ => none

/-- Whether a symbol of the grammar starts the text. -/
def stops (g : Grammar) (text : Text) : Bool :=
  g.delimiters.any fun literal => literal.chars.isPrefixOf text

def next? (g : Grammar) (text : Text) : Option Match :=
  g.matchers.findSome? fun m => m.scan g.stops text

def symbolMatcher (s : Symbol) : Matcher :=
  .symbol (.symbol s) ⟨s.literal, s.literal_ne_nil⟩

def keywordMatcher (k : Keyword) : Matcher :=
  .keyword (.keyword k) ⟨k.literal, k.literal_ne_nil⟩

/-- The grammar of templates. -/
def standard : Grammar :=
  ⟨[.quoted '"', .quoted '\''] ++ Symbol.all.map symbolMatcher ++
    Keyword.all.map keywordMatcher ++ [.blanks, .word]⟩

theorem next?_eq_some {g : Grammar} {text : Text} {found : Match}
    (matched : g.next? text = some found) : ∃ m ∈ g.matchers, m.scan g.stops text = some found :=
  List.exists_of_findSome?_eq_some matched

theorem length_rest_lt {g : Grammar} {text : Text} {found : Match}
    (matched : g.next? text = some found) : found.rest.length < text.length := by
  obtain ⟨_, _, scanned⟩ := next?_eq_some matched
  exact Matcher.length_rest_lt scanned

end Grammar

end IndentMarkup
