import IndentMarkup.Line.Basic
import IndentMarkup.Proofs.Token.Pieces

/-! The first line of a text, token by token from its front, and the line that a text
without quotation marks makes up to its end. -/
namespace IndentMarkup

namespace Line

/-- The first line of a text that begins at the position. -/
def ofText (p : Position) (text : Text) : Line :=
  (cut (Token.listFrom p text)).1

/-- The tokens behind the first line of a text. -/
def behind (p : Position) (text : Text) : List Token :=
  (cut (Token.listFrom p text)).2

end Line

/-- No line goes on behind a token of that kind. -/
def Token.Kind.endsLine (kind : Token.Kind) : Bool :=
  kind = .symbol .newLine || kind = .symbol .block

/-- A text goes on in front of the rest with a piece of its first line: the tokens stand
in front of those of the rest. -/
structure StartsLine (p : Position) (piece : Text) (tokens : Line) (rest : Text) : Prop where
  line : Line.ofText p (piece ++ rest) = tokens ++ Line.ofText (p.advance piece) rest
  behind : Line.behind p (piece ++ rest) = Line.behind (p.advance piece) rest

theorem StartsLine.nil (p : Position) (rest : Text) : StartsLine p [] [] rest :=
  ⟨rfl, rfl⟩

theorem StartsLine.append {p : Position} {first second rest : Text} {tokens more : Line}
    (begun : StartsLine p first tokens (second ++ rest))
    (done : StartsLine (p.advance first) second more rest) :
    StartsLine p (first ++ second) (tokens ++ more) rest where
  line := by
    rw [List.append_assoc, begun.line, done.line, Position.advance_append, List.append_assoc]
  behind := by rw [List.append_assoc, begun.behind, done.behind, Position.advance_append]

/-- In front of the tail a text is one line to its end, and reading goes on behind the line
feed. -/
structure MakesLine (p : Position) (text tail : Text) (line : Line) : Prop where
  line : Line.ofText p (text ++ tail) = line
  behind : Line.behind p (text ++ tail) =
    Token.listFrom (p.advance (text ++ tail.take 1)) (tail.drop 1)

theorem StartsLine.makesLine {p : Position} {first second tail : Text} {tokens more : Line}
    (begun : StartsLine p first tokens (second ++ tail))
    (done : MakesLine (p.advance first) second tail more) :
    MakesLine p (first ++ second) tail (tokens ++ more) where
  line := by rw [List.append_assoc, begun.line, done.line]
  behind := by
    rw [List.append_assoc, begun.behind, done.behind, List.append_assoc, Position.advance_append,
      Position.advance_append, Position.advance_append]

theorem FirstToken.startsLine {piece text rest : Text} {kind : Token.Kind}
    (first : FirstToken (piece ++ rest) ⟨kind, text, piece, rest⟩)
    (inside : kind.endsLine = false) (p : Position) :
    StartsLine p piece [⟨kind, text, p⟩] rest := by
  simp only [Token.Kind.endsLine, Bool.or_eq_false_iff, decide_eq_false_iff_not] at inside
  constructor
  · rw [Line.ofText, Token.listFrom_of_first p first, Line.cut, if_neg inside.1,
      if_neg inside.2]
    rfl
  · rw [Line.behind, Token.listFrom_of_first p first, Line.cut, if_neg inside.1,
      if_neg inside.2]
    rfl

namespace StartsLine

variable {p : Position} {rest : Text}

/-- A symbol inside a line of which no longer one is made. -/
theorem symbol {s : Symbol} (p : Position) (rest : Text) (lone : s.isLone = true)
    (inside : Token.Kind.endsLine (.symbol s) = false) :
    StartsLine p s.literal [⟨.symbol s, s.literal, p⟩] rest :=
  (FirstToken.of_lone_symbol rest lone).startsLine inside p

theorem dot (p : Position) (apart : rest.head? ≠ some '\n') :
    StartsLine p ['.'] [⟨.symbol .dot, ['.'], p⟩] rest :=
  FirstToken.startsLine (FirstToken.of_dot apart) rfl p

theorem equals (p : Position) (apart : rest.head? ≠ some ' ') :
    StartsLine p ['='] [⟨.symbol .equals, ['='], p⟩] rest :=
  FirstToken.startsLine (FirstToken.of_equals apart) rfl p

theorem comment (p : Position) (apart : rest.head? ≠ some '-') :
    StartsLine p ['/', '/'] [⟨.symbol .comment, ['/', '/'], p⟩] rest :=
  FirstToken.startsLine (FirstToken.of_comment apart) rfl p

theorem blanks {run : Text} (p : Position) (nonempty : run ≠ [])
    (inside : ∀ c ∈ run, isInlineBlank c = true)
    (ends : ∀ c ∈ rest.head?, isInlineBlank c = false) :
    StartsLine p run [⟨.space, run, p⟩] rest :=
  (FirstToken.of_blanks nonempty inside ends).startsLine rfl p

theorem blank (p : Position) (ends : ∀ c ∈ rest.head?, isInlineBlank c = false) :
    StartsLine p [' '] [⟨.space, [' '], p⟩] rest :=
  blanks p (List.cons_ne_nil _ _) (List.all_eq_true.mp rfl) ends

theorem keyword {k : Keyword} (p : Position) (look : k ≠ .var) (ends : EndsWord rest) :
    StartsLine p k.literal [⟨.keyword k, k.literal, p⟩] rest :=
  (FirstToken.of_keyword_name look ends).startsLine rfl p

theorem word {name : Text} (p : Position) (named : isName name = true) (ends : EndsWord rest)
    (plain : ∀ k : Keyword, name ≠ k.literal) : StartsLine p name [⟨.word, name, p⟩] rest :=
  (FirstToken.of_word_name named ends plain).startsLine rfl p

/-- A name is one token, and it may be a keyword. -/
theorem exists_name {name : Text} (p : Position) (named : isName name = true)
    (ends : EndsWord rest) :
    ∃ kind : Token.Kind, kind.isName = true ∧ StartsLine p name [⟨kind, name, p⟩] rest := by
  obtain ⟨kind, isName, first⟩ := FirstToken.of_name named ends
  refine ⟨kind, isName, first.startsLine ?_ p⟩
  cases kind with
  | symbol s => contradiction
  | _ => rfl

theorem quoted {value : Text} (p : Position) (rest : Text) (unquoted : '"' ∉ value) :
    StartsLine p ('"' :: value ++ ['"']) [⟨.quoted, value, p⟩] rest := by
  have first : FirstToken ('"' :: value ++ '"' :: rest)
      ⟨.quoted, value, '"' :: value ++ ['"'], rest⟩ := .quoted (.inl rfl) unquoted
  rw [List.append_cons ('"' :: value) '"' rest] at first
  exact first.startsLine rfl p

end StartsLine

/-- The text is empty or goes on with another line. -/
def LineEnd : Text → Prop
  | [] => True
  | c :: _ => c = '\n'

theorem LineEnd.endsWord {tail : Text} (ended : LineEnd tail) : EndsWord tail := by
  cases tail with
  | nil => trivial
  | cons c tail => obtain rfl := ended; exact .inl (by decide)

/-- No part of the text ends a line, and none opens a string. -/
def Text.isInline (text : Text) : Bool :=
  text.all fun c => !(['\n', '\r', '"', '\''].contains c)

/-- A piece without line feeds stands before the end of the line. -/
theorem LineEnd.split {piece rest line tail : Text} (ended : LineEnd tail)
    (within : '\n' ∉ piece) (same : piece ++ rest = line ++ tail) :
    ∃ left, line = piece ++ left ∧ rest = left ++ tail := by
  rcases List.append_eq_append_iff.mp same with ⟨left, split, rest⟩ | ⟨past, split, rest⟩
  · exact ⟨left, split, rest⟩
  · cases past with
    | nil => exact ⟨[], by simp [split], by simpa using rest.symm⟩
    | cons c past =>
      obtain ⟨rfl, -⟩ : c = '\n' ∧ True := by
        rw [rest] at ended
        exact ⟨ended, trivial⟩
      exact absurd (split ▸ by simp) within

theorem WordRun.newline_not_mem {run rest : Text} (whole : WordRun run rest) :
    '\n' ∉ run := by
  induction run with
  | nil => simp
  | cons c run ih =>
    intro member
    rcases List.mem_cons.mp member with rfl | later
    · exact absurd whole.head_not_blank (by decide)
    · exact ih whole.2 later

/-- Inside of a line the first token either stays inside, or it is the dot at the end of
the line together with the line feed. -/
theorem FirstToken.inline {line tail : Text} {found : Match} (inline : line.isInline = true)
    (nonempty : line ≠ []) (ended : LineEnd tail) (first : FirstToken (line ++ tail) found) :
    (found.kind.endsLine = false ∧
      ∃ left, line = found.taken ++ left ∧ found.rest = left ++ tail) ∨
    (found.kind = .symbol .block ∧ line = ['.'] ∧ tail = '\n' :: found.rest) := by
  have plain (c : Char) (member : c ∈ line) : c ≠ '\n' ∧ c ≠ '"' ∧ c ≠ '\'' := by
    have here := List.all_eq_true.mp inline c member
    simp at here
    exact ⟨here.1, here.2.2.1, here.2.2.2⟩
  have split (within : '\n' ∉ found.taken) :
      ∃ left, line = found.taken ++ left ∧ found.rest = left ++ tail :=
    ended.split within first.append.symm
  generalize same : line ++ tail = text at first
  cases first with
  | @quoted mark inner rest isMark =>
    cases line with
    | nil => contradiction
    | cons c line =>
      obtain ⟨rfl, -⟩ := List.cons.inj same
      have apart := plain c (by simp)
      rcases isMark with rfl | rfl <;> simp at apart
  | @symbol s rest =>
    by_cases ends : s = .newLine
    · subst ends
      cases line with
      | nil => contradiction
      | cons c line =>
        obtain ⟨rfl, -⟩ := List.cons.inj same
        exact absurd rfl (plain '\n' (by simp)).1
    · by_cases block : s = .block
      · subst block
        right
        cases line with
        | nil => contradiction
        | cons c line =>
          obtain ⟨rfl, tails⟩ := List.cons.inj same
          cases line with
          | nil => exact ⟨rfl, rfl, tails⟩
          | cons d line =>
            obtain ⟨rfl, -⟩ := List.cons.inj tails
            exact absurd rfl (plain '\n' (by simp)).1
      · have within : '\n' ∉ s.literal := by
          cases s <;> first | decide | contradiction
        exact .inl ⟨by simp [Token.Kind.endsLine, ends, block], split within⟩
  | @keyword k rest =>
    have within : '\n' ∉ k.literal := by cases k <;> decide
    exact .inl ⟨rfl, split within⟩
  | @blanks c run rest bare unnamed inside =>
    exact .inl ⟨rfl, split fun member => absurd (inside _ member) (by decide)⟩
  | @word c run rest bare unnamed whole =>
    exact .inl ⟨rfl, split whole.newline_not_mem⟩

namespace Line

/-- The line covers the source from one offset to the other, but for the line feed of a
block marker at its end. -/
structure Spans (line : Line) (start stop : Nat) : Prop where
  first : ∀ t ∈ line.head?, t.position.index = start
  last : ∀ t ∈ line.getLast?, lastStop t = stop
  empty : line = [] → start = stop

theorem spans_nil (offset : Nat) : Spans [] offset offset :=
  ⟨nofun, nofun, fun _ => rfl⟩

theorem Spans.cons {t : Token} {rest : Line} {stop : Nat} (inside : t.kind.endsLine = false)
    (spans : Spans rest t.stop stop) : Spans (t :: rest) t.position.index stop := by
  refine ⟨by simp, ?_, nofun⟩
  cases rest with
  | nil =>
    have unmarked : t.kind ≠ .symbol .block := by
      intro block
      simp [Token.Kind.endsLine, block] at inside
    simp [lastStop, unmarked, spans.empty rfl]
  | cons next rest => simpa using spans.last

theorem sourceText_of_spans {line : Line} {start stop : Nat} (spans : line.Spans start stop)
    (source : Text) : line.sourceText source = source.slice start stop := by
  cases line with
  | nil => simp [sourceText, spans.empty rfl, Text.slice]
  | cons t rest =>
    have nonempty : t :: rest ≠ [] := List.cons_ne_nil t rest
    have last := spans.last _ (List.getLast?_eq_some_getLast nonempty)
    rw [sourceText, List.getLast?_eq_some_getLast nonempty, List.head?_cons]
    simp only [spans.first t rfl, last]

theorem skipSpace_eq_nil {line : Line} (blank : line.isBlank = true) : line.skipSpace = [] :=
  List.dropWhile_eq_nil_iff.mpr (List.all_eq_true.mp blank)

/-- What is left behind blanks does not begin with any. -/
theorem skipSpace_solid (line : Line) : line.skipSpace.startsWith .space = false := by
  have stopped := List.head?_dropWhile_not (·.kind = .space) line
  rw [startsWith, skipSpace]
  cases left : line.dropWhile (·.kind = .space) with
  | nil => rfl
  | cons t rest => simpa [left] using stopped

end Line

theorem LineEnd.makesLine {tail : Text} (ended : LineEnd tail) (p : Position) :
    MakesLine p [] tail [] := by
  cases tail with
  | nil => exact ⟨by simp [Line.ofText, Line.cut], by simp [Line.behind, Line.cut]⟩
  | cons c rest =>
    obtain rfl := ended
    have first : FirstToken ('\n' :: rest) ⟨.symbol .newLine, ['\n'], ['\n'], rest⟩ :=
      FirstToken.of_lone_symbol (s := .newLine) rest rfl
    constructor
    · simp [Line.ofText, Token.listFrom_of_first p first, Line.cut]
    · simp [Line.behind, Token.listFrom_of_first p first, Line.cut]

/-- A text without quotation marks is read to its end, whatever tokens it is made of. -/
theorem exists_line_of_inline (p : Position) (text tail : Text) (inline : text.isInline = true)
    (ended : LineEnd tail) :
    ∃ line, MakesLine p text tail line ∧ line.Spans p.index (p.index + text.length) := by
  by_cases nonempty : text = []
  · subst nonempty
    exact ⟨[], ended.makesLine p, Line.spans_nil _⟩
  · obtain ⟨c, rest, begins⟩ := List.exists_cons_of_ne_nil nonempty
    obtain ⟨found, taken⟩ := Grammar.standard_total c (rest ++ tail)
    have first : FirstToken (text ++ tail) found := by
      rw [begins]
      exact Grammar.first_of_standard taken
    have length := first.length_taken p
    have positive := List.length_pos_iff.mpr first.taken_ne_nil
    rcases first.inline inline nonempty ended with ⟨inside, left, split, rest⟩ | ⟨block, dot, next⟩
    · obtain ⟨kind, value, piece, rest⟩ := found
      dsimp only at inside split rest length positive
      have shorter : left.length < text.length := by simpa [split] using positive
      have inline_left : left.isInline = true := by
        rw [split, Text.isInline, List.all_append, Bool.and_eq_true] at inline
        exact inline.2
      obtain ⟨line, made, spans⟩ :=
        exists_line_of_inline (p.advance piece) left tail inline_left ended
      rw [Position.index_advance, Nat.add_assoc, ← length] at spans
      subst split rest
      rw [List.append_assoc] at first
      refine ⟨_, (first.startsLine inside p).makesLine made, ?_⟩
      rw [List.length_append, ← length]
      exact spans.cons inside
    · have whole := first.append
      obtain ⟨kind, value, piece, rest⟩ := found
      dsimp only at block next whole
      subst block dot next
      have spelled : piece ++ rest = ['.', '\n'] ++ rest := by simpa using whole.symm
      obtain rfl := List.append_cancel_right spelled
      have line : Line.cut (Token.listFrom p (['.'] ++ '\n' :: rest)) =
          ([⟨.symbol .block, value, p⟩], Token.listFrom (p.advance ['.', '\n']) rest) := by
        rw [Token.listFrom_of_first p first, Line.cut, if_neg (by simp), if_pos rfl]
      refine ⟨_, ⟨congrArg Prod.fst line, congrArg Prod.snd line⟩, ?_⟩
      exact ⟨by simp, by simp [Line.lastStop], by simp⟩
termination_by text.length

/-- What is left of a source at a position. -/
def Position.Before (source : Text) (p : Position) (rest : Text) : Prop :=
  source.drop p.index = rest

theorem Position.Before.advance {source rest : Text} {p : Position} (piece : Text)
    (placed : p.Before source (piece ++ rest)) : (p.advance piece).Before source rest := by
  rw [Before, index_advance, ← List.drop_drop, placed, List.drop_left]

/-- So the source of its line is the text itself. -/
theorem exists_line_of_source {source text tail : Text} {p : Position}
    (placed : p.Before source (text ++ tail)) (inline : text.isInline = true)
    (ended : LineEnd tail) :
    ∃ line, MakesLine p text tail line ∧ line.sourceText source = text := by
  obtain ⟨line, made, spans⟩ := exists_line_of_inline p text tail inline ended
  refine ⟨line, made, ?_⟩
  rw [Line.sourceText_of_spans spans, Text.slice_of_drop placed]

/-- No blanks stand in front of a line whose first character is none. -/
theorem MakesLine.skipSpace {p : Position} {text tail : Text} {line : Line}
    (made : MakesLine p text tail line)
    (solid : ∀ c ∈ (text ++ tail).head?, isInlineBlank c = false) : line.skipSpace = line := by
  obtain ⟨rfl, -⟩ := made
  generalize text ++ tail = whole at solid
  cases whole with
  | nil => simp [Line.ofText, Line.cut, Line.skipSpace]
  | cons c rest =>
    obtain ⟨found, taken⟩ := Grammar.standard_total c rest
    have first := Grammar.first_of_standard taken
    have kind : found.kind ≠ .space := by
      intro space
      generalize same : c :: rest = whole at first
      cases first <;> first | contradiction | skip
      next inside _ =>
        obtain ⟨rfl, -⟩ := List.cons.inj same
        have blank := inside c (by simp)
        simp [solid c rfl] at blank
    rw [Line.ofText, Token.listFrom_of_first p first, Line.cut]
    split
    · rfl
    · split
      · simp [Line.skipSpace, kind]
      · simp [Line.skipSpace, kind]

/-- A text is cut into its first line and the lines of what stands behind it. -/
theorem split_makesLine {p : Position} {text tail : Text} {line : Line}
    (made : MakesLine p text tail line) (nonempty : text ++ tail ≠ []) :
    Line.split (Token.listFrom p (text ++ tail)) =
      line :: Line.split
        (Token.listFrom (p.advance (text ++ tail.take 1)) (tail.drop 1)) := by
  obtain ⟨c, rest, begins⟩ := List.exists_cons_of_ne_nil nonempty
  obtain ⟨found, taken⟩ := Grammar.standard_total c rest
  have first : FirstToken (text ++ tail) found := begins ▸ Grammar.first_of_standard taken
  obtain ⟨own, behind⟩ := made
  rw [Line.ofText, Token.listFrom_of_first p first] at own
  rw [Line.behind, Token.listFrom_of_first p first] at behind
  rw [Token.listFrom_of_first p first, Line.split_eq_cut_cons, own, behind]

end IndentMarkup
