import IndentMarkup.Text.Blank
import IndentMarkup.TextCursor
import IndentMarkup.Token.Basic
import IndentMarkup.Token.LexError

/-!
# Matchers

A matcher recognizes one kind of token at the front of a text. Words and keywords end
where a delimiter starts, so scanning is given the condition `stops` that says at which
rests of the text that is. Every match takes at least one character.
-/

namespace IndentMarkup

structure Literal where
  chars : Text
  nonempty : chars ≠ []
  deriving DecidableEq, Repr

inductive Matcher where
  /-- A string between two equal characters, without escapes. -/
  | quoted (delimiter : Char)
  /-- A fixed text, wherever it stands. -/
  | symbol (kind : Token.Kind) (literal : Literal)
  /-- A fixed text that no word goes on from. -/
  | keyword (kind : Token.Kind) (literal : Literal)
  /-- A run of blanks within a line. -/
  | blanks
  /-- A run of characters up to a blank or a delimiter. -/
  | word
  deriving DecidableEq, Repr

/-- What a matcher took from the front of a text, and what it left. -/
structure Match where
  kind : Token.Kind
  text : Text
  taken : Text
  rest : Text
  deriving DecidableEq, Repr

def Literal.ofText (text : Text) : Except LexError Literal :=
  if nonempty : text ≠ [] then .ok ⟨text, nonempty⟩ else .error .emptyLiteral

/-- What follows the literal in a text that starts with it. -/
def Literal.strip? (literal : Literal) (text : Text) : Option Text :=
  if literal.chars.isPrefixOf text then some (text.drop literal.chars.length) else none

namespace Matcher

def quotedBy : Text → Except LexError Matcher
  | [delimiter] => .ok (.quoted delimiter)
  | delimiter => .error (.badDelimiter delimiter)

def symbolOf (kind : Token.Kind) (literal : Text) : Except LexError Matcher :=
  return .symbol kind (← Literal.ofText literal)

def keywordOf (kind : Token.Kind) (literal : Text) : Except LexError Matcher :=
  return .keyword kind (← Literal.ofText literal)

/-- Whether a word or keyword ends where the text starts. -/
def ended (stops : Text → Bool) : Text → Bool
  | [] => true
  | c :: rest => isBlank c || stops (c :: rest)

/-- Splits a text where its first word ends. -/
def splitWord (stops : Text → Bool) : Text → Text × Text
  | [] => ([], [])
  | c :: rest =>
    if ended stops (c :: rest) then ([], c :: rest)
    else
      let (run, left) := splitWord stops rest
      (c :: run, left)

def scan (stops : Text → Bool) : Matcher → Text → Option Match
  | .quoted _, [] => none
  | .quoted delimiter, c :: rest =>
    if c = delimiter then
      let text := rest.takeWhile (· ≠ delimiter)
      match rest.dropWhile (· ≠ delimiter) with
      | [] => none
      | closing :: left => some ⟨.quoted, text, c :: text ++ [closing], left⟩
    else none
  | .symbol kind literal, text =>
    (literal.strip? text).map fun rest => ⟨kind, literal.chars, literal.chars, rest⟩
  | .keyword kind literal, text =>
    match literal.strip? text with
    | some rest =>
      if ended stops rest then some ⟨kind, literal.chars, literal.chars, rest⟩ else none
    | none => none
  | .blanks, text =>
    match text.takeWhile isInlineBlank with
    | [] => none
    | run => some ⟨.space, run, run, text.dropWhile isInlineBlank⟩
  | .word, text =>
    match splitWord stops text with
    | ([], _) => none
    | (run, rest) => some ⟨.word, run, run, rest⟩

end Matcher

theorem Literal.strip?_eq_some {literal : Literal} {text rest : Text} :
    literal.strip? text = some rest ↔ text = literal.chars ++ rest := by
  unfold strip?
  split
  next starts =>
    obtain ⟨tail, rfl⟩ := List.isPrefixOf_iff_prefix.mp starts
    simp
  next differs =>
    refine ⟨nofun, fun same => absurd ?_ differs⟩
    exact List.isPrefixOf_iff_prefix.mpr ⟨rest, same.symm⟩

theorem Literal.length_strip? {literal : Literal} {text rest : Text}
    (found : literal.strip? text = some rest) : rest.length < text.length := by
  have positive := List.length_pos_iff.mpr literal.nonempty
  simp [strip?_eq_some.mp found, positive]

namespace Matcher

/-- Whether one of the delimiters starts a text. A delimiter that is itself a keyword is
judged by the same delimiters; a word is none, since it ends at a delimiter only. -/
def anyStarts (delimiters : List Matcher) (text : Text) : Bool :=
  delimiters.any fun
    | .keyword _ literal =>
      match _found : literal.strip? text with
      | none => false
      | some [] => true
      | some (c :: rest) => isBlank c || anyStarts delimiters (c :: rest)
    | .word => false
    | delimiter => (delimiter.scan (fun _ => false) text).isSome
termination_by text.length
decreasing_by exact Literal.length_strip? _found

/-- Matches at a cursor; the token starts where the cursor stands. -/
def tryMatch (stops : Text → Bool) (m : Matcher) (cursor : TextCursor) :
    Option (Token × TextCursor) :=
  (m.scan stops cursor.remaining).map fun found =>
    (⟨found.kind, found.text, cursor.position⟩, cursor.advance found.taken.length)

theorem splitWord_append (stops : Text → Bool) (text : Text) :
    (splitWord stops text).1 ++ (splitWord stops text).2 = text := by
  induction text with
  | nil => rfl
  | cons c rest ih =>
    rw [splitWord]
    split
    · rfl
    · simp [ih]

variable {stops : Text → Bool} {m : Matcher} {text : Text} {found : Match}

theorem scan_append (matched : m.scan stops text = some found) :
    found.taken ++ found.rest = text := by
  unfold scan at matched
  split at matched
  · contradiction
  next delimiter c rest =>
    split at matched
    · split at matched
      · contradiction
      next closing left split =>
        cases matched
        have whole := List.takeWhile_append_dropWhile (p := (· ≠ delimiter)) (l := rest)
        rw [split] at whole
        simpa using whole
    · contradiction
  · obtain ⟨rest, split, rfl⟩ := Option.map_eq_some_iff.mp matched
    exact (Literal.strip?_eq_some.mp split).symm
  · split at matched
    next split =>
      split at matched
      · cases matched
        exact (Literal.strip?_eq_some.mp split).symm
      · contradiction
    · contradiction
  · split at matched
    · contradiction
    · cases matched
      exact List.takeWhile_append_dropWhile
  · split at matched
    · contradiction
    next word rest _ split =>
      cases matched
      have whole := splitWord_append stops text
      rwa [split] at whole

theorem scan_taken_ne_nil (matched : m.scan stops text = some found) : found.taken ≠ [] := by
  unfold scan at matched
  split at matched
  · contradiction
  · split at matched
    · split at matched
      · contradiction
      · cases matched; simp
    · contradiction
  next literal =>
    obtain ⟨rest, _, rfl⟩ := Option.map_eq_some_iff.mp matched
    exact literal.nonempty
  next literal =>
    split at matched
    · split at matched
      · cases matched; exact literal.nonempty
      · contradiction
    · contradiction
  · split at matched
    · contradiction
    next nonempty => cases matched; simpa using nonempty
  · split at matched
    · contradiction
    next word _ nonempty _ =>
      cases matched
      intro empty
      simp_all

theorem length_rest_lt (matched : m.scan stops text = some found) :
    found.rest.length < text.length := by
  have positive := List.length_pos_iff.mpr (scan_taken_ne_nil matched)
  rw [← scan_append matched]
  simp [positive]

end Matcher

end IndentMarkup
