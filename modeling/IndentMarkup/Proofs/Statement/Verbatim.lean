import IndentMarkup.Proofs.Line.Rest
import IndentMarkup.Proofs.Statement.Spelling
import IndentMarkup.Proofs.Template.Siblings

/-! The texts that a statement takes from the rest of its line. Each is what the source has behind
the token that announces it, up to the end of the line. -/
namespace IndentMarkup

/-- The word of the marker. -/
def Token.Announces (t : Token) : Marker → Prop
  | .each => t.kind = .keyword .each
  | .for => t.kind = .word ∧ t.text = ['f', 'o', 'r']
  | .mixin => t.kind = .keyword .mixin
  | .include => t.kind = .keyword .include

/-- The content of the last tag in what is left of a line: text stands behind the blanks behind the
tag, an expression behind the blanks behind the equals sign. -/
inductive TagLine.Verbatim (source : Text) (line : Line) : Line → TagLine → Prop where
  | bare {rest : Line} {head : TagHead} : Verbatim source line rest (.plain head none)
  | text {own rest : Line} {t : Token} {head : TagHead} {value : Text}
      (spelled : SpellsHead own head) (space : t.kind = .space)
      (yields : line.Yields source (source.behindBlanks t.position.index) value) :
      Verbatim source line (own ++ t :: rest) (.plain head (some (.text value)))
  | expression {own rest : Line} {t : Token} {head : TagHead} {value : Text}
      (spelled : SpellsHead own head)
      (sign : t.kind = .symbol .equals ∨ t.kind = .symbol .inlineValue)
      (yields : line.Yields source (source.behindBlanks t.stop) value) :
      Verbatim source line (own ++ t :: rest) (.plain head (some (.expression value)))
  | block {rest : Line} {head : TagHead} : Verbatim source line rest (.textBlock head)
  | around {own rest : Line} {t : Token} {head : TagHead} {inner : TagLine}
      (spelled : SpellsHead own head) (colon : t.kind = .symbol .colon)
      (inside : Verbatim source line rest.skipSpace inner) :
      Verbatim source line (own ++ t :: rest) (.around head inner)

/-- The text of the statement stands behind its first token, and behind the blanks there unless it
is a comment. -/
inductive Statement.Verbatim (source : Text) (line : Line) : Statement → Prop where
  | tag {tagLine : TagLine} (verbatim : tagLine.Verbatim source line line.skipSpace) :
      Verbatim source line (.tag tagLine)
  | piped {t : Token} {rest : Line} {value : Text} (first : line.skipSpace = t :: rest)
      (pipe : t.kind = .symbol .pipe)
      (yields : line.Yields source (source.behindBlanks t.stop) value) :
      Verbatim source line (.piped value)
  | comment {t : Token} {rest : Line} {value : Text} {buffered : Bool}
      (first : line.skipSpace = t :: rest)
      (mark : t.kind = .symbol (if buffered then .comment else .silentComment))
      (yields : line.Yields source t.stop value) : Verbatim source line (.comment value buffered)
  | marker {t : Token} {rest : Line} {kind : Marker} {value : Text}
      (first : line.skipSpace = t :: rest) (word : t.Announces kind)
      (yields : line.Yields source (source.behindBlanks t.stop) value) :
      Verbatim source line (.marker kind value)
  | condition {t : Token} {rest : Line} {value : Text} (first : line.skipSpace = t :: rest)
      (word : t.kind = .keyword .if)
      (yields : line.Yields source (source.behindBlanks t.stop) value) :
      Verbatim source line (.condition value)

namespace Line

variable {source : Text} {line rest : Line} {t : Token} {start : Nat}

namespace Remains

theorem ne_nil (remains : Remains source line start (t :: rest)) : line ≠ [] :=
  List.ne_nil_of_mem (remains.within.subset (List.mem_cons_self ..))

/-- The rest of the line behind a token. -/
theorem yields_behind (remains : Remains source line start (t :: rest))
    (inside : t.kind.endsLine = false) : line.Yields source t.stop (rest.trimmedText source) :=
  (remains.next inside).yields remains.ne_nil

/-- The rest of the line behind the blanks that follow a token. -/
theorem yields_behind_blanks (remains : Remains source line start (t :: rest))
    (inside : t.kind.endsLine = false) :
    line.Yields source (source.behindBlanks t.stop) (rest.skipSpace.trimmedText source) :=
  (remains.next inside).skipSpace.yields remains.ne_nil

end Remains

end Line

namespace TagLine

variable {source : Text} {line : Line}

theorem readTail_verbatim {own later left : Line} {head : TagHead} {t : Token} {tagLine : TagLine}
    {start : Nat} (spelled : SpellsHead own head)
    (remains : line.Remains source start (t :: later))
    (inner : ∀ inside left, t.kind = .symbol .colon →
      read source (Line.skipSpace later) = .ok (inside, left) →
      inside.Verbatim source line (Line.skipSpace later))
    (said : readTail source head (t :: later) = .ok (tagLine, left)) :
    tagLine.Verbatim source line (own ++ t :: later) := by
  have expression (sign : t.kind = .symbol .equals ∨ t.kind = .symbol .inlineValue)
      (said : (Line.requiredText source (Line.skipSpace later)).map (fun value =>
        (TagLine.plain head (some (.expression value)), ([] : Line))) = .ok (tagLine, left)) :
      tagLine.Verbatim source line (own ++ t :: later) := by
    obtain ⟨value, read, same⟩ := map_ok said
    obtain ⟨rfl, -⟩ := Prod.mk.inj same
    obtain rfl := Line.eq_of_requiredText read
    refine .expression spelled sign (remains.yields_behind_blanks ?_)
    rcases sign with kind | kind <;> simp [kind, Token.Kind.endsLine]
  rw [readTail] at said
  split at said
  next inlineValue => exact expression (.inr inlineValue) said
  next equals => exact expression (.inl equals) said
  next space =>
    split at said
    next =>
      obtain ⟨rfl, -⟩ := Prod.mk.inj (Except.ok.inj said)
      exact .bare
    next =>
      obtain ⟨rfl, -⟩ := Prod.mk.inj (Except.ok.inj said)
      refine .text spelled space ?_
      rw [Text.behindBlanks_token remains.leftOf.lexed (List.mem_cons_self ..), if_pos space]
      exact remains.yields_behind (by simp [space, Token.Kind.endsLine])
  next block =>
    obtain ⟨rfl, -⟩ := Prod.mk.inj (Except.ok.inj said)
    exact .block
  next colon =>
    split at said
    next =>
      obtain ⟨⟨inside, left⟩, read, same⟩ := map_ok said
      obtain ⟨rfl, -⟩ := Prod.mk.inj same
      exact .around spelled colon (inner inside left colon read)
    next => contradiction
  next => contradiction

theorem read_verbatim {rest left : Line} {tagLine : TagLine} {start : Nat}
    (remains : line.Remains source start rest)
    (said : read source rest = .ok (tagLine, left)) : tagLine.Verbatim source line rest := by
  rw [read_eq_bind] at said
  obtain ⟨⟨head, behind⟩, taken, made⟩ := bind_ok said
  obtain ⟨own, whole, spelled⟩ := readHead_taken taken
  change readTail source head behind = _ at made
  cases behind with
  | nil =>
    obtain ⟨rfl, -⟩ := Prod.mk.inj (Except.ok.inj made)
    exact .bare
  | cons t later =>
    have shorter := length_behind_lt taken
    have behind : line.Remains source t.position.index (t :: later) :=
      .of_suffix remains.member (whole.suffix.trans remains.within)
    have inner (inside : TagLine) (left : Line) (colon : t.kind = .symbol .colon)
        (said : read source (Line.skipSpace later) = .ok (inside, left)) :
        inside.Verbatim source line (Line.skipSpace later) :=
      read_verbatim (behind.next (by simp [colon, Token.Kind.endsLine])).skipSpace said
    cases whole with
    | rest => exact readTail_verbatim spelled behind inner made
termination_by rest.length

end TagLine

namespace Statement

variable {source : Text} {line : Line} {statement : Statement}

theorem readMarker_verbatim {t : Token} {rest left : Line} {start : Nat}
    (kind : Marker) (first : line.skipSpace = t :: rest) (word : t.Announces kind)
    (remains : line.Remains source start (t :: rest))
    (said : readMarker source kind rest = .ok (statement, left)) :
    statement.Verbatim source line := by
  rw [readMarker_eq] at said
  obtain ⟨value, read, same⟩ := map_ok said
  obtain ⟨rfl, -⟩ := Prod.mk.inj same
  obtain rfl := Line.eq_of_requiredText read
  refine .marker first word (remains.yields_behind_blanks ?_)
  cases kind with
  | «for» => simp [word.1, Token.Kind.endsLine]
  | _ => simp [show t.kind = _ from word, Token.Kind.endsLine]

theorem readPiped_verbatim {t : Token} {rest left : Line} {start : Nat}
    (first : line.skipSpace = t :: rest) (pipe : t.kind = .symbol .pipe)
    (remains : line.Remains source start (t :: rest))
    (said : readPiped source rest = (statement, left)) : statement.Verbatim source line := by
  have yields := remains.yields_behind_blanks (by simp [pipe, Token.Kind.endsLine])
  cases rest with
  | nil =>
    obtain ⟨rfl, -⟩ := Prod.mk.inj said
    exact .piped first pipe yields
  | cons u later =>
    rw [readPiped_cons] at said
    obtain ⟨rfl, -⟩ := Prod.mk.inj said
    rw [remains.leftOf.tail.skipSpace_cons] at yields
    exact .piped first pipe yields

/-- What a line of the source says is what the source has there. -/
theorem ofLine_verbatim (member : line ∈ Line.split (Token.listFrom .start source))
    (said : Statement.ofLine source line = .ok statement) : statement.Verbatim source line := by
  have made := read_of_ofLine said
  cases first : line.skipSpace with
  | nil =>
    rw [first] at made
    contradiction
  | cons t rest =>
    have remains : line.Remains source t.position.index (t :: rest) :=
      .of_suffix member (first ▸ List.dropWhile_suffix _)
    have tagLine {left : Line} (said : (TagLine.read source (t :: rest)).map (fun made =>
        (Statement.tag made.1, made.2)) = .ok (statement, left)) : statement.Verbatim source line := by
      obtain ⟨⟨tagLine, left⟩, read, same⟩ := map_ok said
      obtain ⟨rfl, -⟩ := Prod.mk.inj same
      exact .tag (first ▸ TagLine.read_verbatim remains read)
    rw [first] at made
    simp only [read] at made
    split at made
    next comment =>
      rw [readComment_eq] at made
      obtain ⟨rfl, -⟩ := Prod.mk.inj (Except.ok.inj made)
      exact .comment first comment (remains.yields_behind (by simp [comment, Token.Kind.endsLine]))
    next comment =>
      rw [readComment_eq] at made
      obtain ⟨rfl, -⟩ := Prod.mk.inj (Except.ok.inj made)
      exact .comment first comment (remains.yields_behind (by simp [comment, Token.Kind.endsLine]))
    next pipe => exact readPiped_verbatim first pipe remains (Except.ok.inj made)
    next => exact tagLine made
    next => exact tagLine made
    next word => exact readMarker_verbatim .each first word remains made
    next word => exact readMarker_verbatim .mixin first word remains made
    next word => exact readMarker_verbatim .include first word remains made
    next word =>
      rw [readCondition_eq] at made
      obtain ⟨⟨space, behind⟩, taken, made⟩ := bind_ok made
      obtain ⟨value, read, same⟩ := bind_ok made
      obtain ⟨rfl, -⟩ := Prod.mk.inj (Except.ok.inj same)
      obtain rfl := Line.eq_of_requiredText read
      have yields := remains.yields_behind_blanks (by simp [word, Token.Kind.endsLine])
      obtain ⟨rfl, blank⟩ := Line.eq_of_expect taken
      rw [remains.leftOf.tail.skipSpace_cons, if_pos blank] at yields
      exact .condition first word yields
    next word =>
      split at made
      next isFor =>
        rw [isForMarker, Bool.and_eq_true, decide_eq_true_eq] at isFor
        exact readMarker_verbatim .for first ⟨word, isFor.1⟩ remains made
      next => exact tagLine made
    next => contradiction

end Statement

end IndentMarkup
