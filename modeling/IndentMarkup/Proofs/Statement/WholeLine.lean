import IndentMarkup.Proofs.Line.Splitting
import IndentMarkup.Proofs.Statement.Origin

/-! A statement takes its whole line. Only a block marker ends a tag in front of further tokens, and
a line that was cut from tokens has none behind it, whatever the tokens are and whatever source they
are said to come from. -/
namespace IndentMarkup

/-- The line stands in the whole line right behind a block marker. -/
def Line.BehindMarker (whole left : Line) : Prop :=
  ∃ t : Token, t.kind = .symbol .block ∧ t :: left <:+ whole

variable {source : Text} {whole line left : Line} {tokens : List Token}

namespace Line.BehindMarker

theorem endsInBlock (marked : whole.BehindMarker []) : whole.endsInBlock = true := by
  obtain ⟨t, block, front, rfl⟩ := marked
  simp [Line.endsInBlock, block]

theorem mono (behind : line.BehindMarker left) (within : line <:+ whole) :
    whole.BehindMarker left := by
  obtain ⟨t, block, own⟩ := behind
  exact ⟨t, block, own.trans within⟩

theorem eq_nil (behind : line.BehindMarker left) (member : line ∈ Line.split tokens) :
    left = [] := by
  obtain ⟨t, block, within⟩ := behind
  exact Line.eq_nil_of_block member within block

end Line.BehindMarker

namespace TagLine

variable {head : TagHead} {inner : Line}

/-- A tag line leaves nothing, unless it holds text: then it leaves what stands behind its block
marker. -/
structure Leaves (whole : Line) (result : TagLine × Line) : Prop where
  text : result.1.holdsText = true → whole.BehindMarker result.2
  other : result.1.holdsText = false → result.2 = []

theorem Leaves.of_other {result : TagLine × Line} (other : result.1.holdsText = false)
    (nothing : result.2 = []) : Leaves whole result :=
  ⟨fun text => absurd (other.symm.trans text) Bool.false_ne_true, fun _ => nothing⟩

theorem Leaves.of_text {result : TagLine × Line} (text : result.1.holdsText = true)
    (behind : whole.BehindMarker result.2) : Leaves whole result :=
  ⟨fun _ => behind, fun other => absurd (other.symm.trans text) Bool.false_ne_true⟩

/-- Behind its first tag the line is taken to its end, or up to a block marker, or else it goes on
with a shorter tag line. -/
theorem read_leaves (source : Text) {line : Line} (within : line <:+ whole) :
    Meets (fun _ => True) (Leaves whole) (read source line) := by
  have heads := readHead_reads within
  rw [read_eq_bind]
  generalize taken : readHead line = result at heads
  cases heads with
  | error => exact .error trivial
  | @ok value holds =>
    obtain ⟨head, rest⟩ := value
    have left : rest <:+ whole := holds.2
    change Meets _ _ (readTail source head rest)
    cases rest with
    | nil => exact .ok (.of_other rfl rfl)
    | cons t rest =>
      have later := Line.suffix_of_cons left
      rw [readTail]
      split
      · exact (Meets.any _).map fun _ _ => .of_other rfl rfl
      · exact (Meets.any _).map fun _ _ => .of_other rfl rfl
      · split <;> exact .ok (.of_other rfl rfl)
      next block => exact .ok (.of_text rfl ⟨t, block, left⟩)
      · split
        · have decreasing := length_behind_lt taken
          exact (read_leaves source ((Line.skipSpace_suffix rest).trans later)).map
            fun _ leaves => ⟨leaves.text, leaves.other⟩
        · exact .error trivial
      · exact .error trivial
termination_by line.length

/-- Behind a head and a colon the reader of the line starts again, with the inner line. -/
inductive Reenters (line : Line) (head : TagHead) : Line → Prop where
  | colon {t : Token} {rest : Line} (taken : readHead line = .ok (head, t :: rest))
      (colon : t.kind = .symbol .colon)
      (starts : (Line.skipSpace rest).startsWithAny startKinds = true) :
      Reenters line head (Line.skipSpace rest)

namespace Reenters

theorem length_lt (reenters : Reenters line head inner) : inner.length < line.length := by
  cases reenters with
  | colon taken => exact length_behind_lt taken

theorem read_eq (reenters : Reenters line head inner) (source : Text) :
    read source line =
      (read source inner).map fun (tagLine, left) => (.around head tagLine, left) := by
  cases reenters with
  | colon taken colon starts =>
    rw [read_eq_bind, taken]
    change readTail source head (_ :: _) = _
    simp only [readTail, colon, starts, if_true]

end Reenters

theorem exists_reenters {tagLine : TagLine}
    (said : read source line = .ok (.around head tagLine, left)) :
    ∃ inner, Reenters line head inner ∧ read source inner = .ok (tagLine, left) := by
  rw [read_eq_bind] at said
  obtain ⟨⟨own, rest⟩, taken, said⟩ := bind_ok said
  cases rest with
  | nil => cases said
  | cons t rest =>
    simp only [readTail] at said
    split at said
    · obtain ⟨value, -, other⟩ := map_ok said
      cases other
    · obtain ⟨value, -, other⟩ := map_ok said
      cases other
    · split at said <;> cases said
    · cases said
    next colon =>
      split at said
      next starts =>
        obtain ⟨⟨tagLine, left⟩, read, same⟩ := map_ok said
        cases same
        exact ⟨_, .colon taken colon starts, read⟩
      next => cases said
    · cases said

end TagLine

namespace Statement

/-- What a statement leaves of its line: nothing, unless it is a tag line. -/
inductive Leaves (line : Line) : Statement × Line → Prop where
  | tag {tagLine : TagLine} {left : Line} (leaves : TagLine.Leaves line (tagLine, left)) :
      Leaves line (.tag tagLine, left)
  | piped (text : Text) : Leaves line (.piped text, [])
  | comment {text : Text} {buffered : Bool}
      (starts : line.startsWithAny [.symbol .comment, .symbol .silentComment] = true) :
      Leaves line (.comment text buffered, [])
  | marker (kind : Marker) (argument : Text) : Leaves line (.marker kind argument, [])
  | condition (predicate : Text) : Leaves line (.condition predicate, [])

theorem Leaves.nil_or_behindMarker {result : Statement × Line} (leaves : Leaves line result) :
    result.2 = [] ∨ line.BehindMarker result.2 := by
  cases leaves with
  | @tag tagLine left leaves =>
    cases text : tagLine.holdsText with
    | true => exact .inr (leaves.text text)
    | false => exact .inl (leaves.other text)
  | piped | comment | marker | condition => exact .inl rfl

theorem read_leaves (source : Text) (line : Line) :
    Meets (fun _ => True) (Leaves line) (read source line) := by
  cases line with
  | nil => exact .error trivial
  | cons t rest =>
    have tag : Meets (fun _ => True) (Leaves (t :: rest))
        ((TagLine.read source (t :: rest)).map fun taken => (Statement.tag taken.1, taken.2)) :=
      (TagLine.read_leaves source List.suffix_rfl).map fun _ leaves => .tag leaves
    have marker (kind : Marker) : Meets (fun _ => True) (Leaves (t :: rest))
        (readMarker source kind rest) := by
      rw [readMarker_eq]
      exact (Meets.any _).map fun argument _ => .marker kind argument
    rw [read]
    split
    next comment =>
      rw [readComment_eq]
      exact .ok (.comment (by simp [Line.startsWithAny, comment]))
    next comment =>
      rw [readComment_eq]
      exact .ok (.comment (by simp [Line.startsWithAny, comment]))
    · have left : readPiped source rest = (.piped _, []) := Prod.ext rfl (readPiped_left source rest)
      exact .ok (left ▸ .piped _)
    · exact tag
    · exact tag
    · exact marker .each
    · exact marker .mixin
    · exact marker .include
    · rw [readCondition_eq]
      exact (Meets.any _).bind fun _ _ => (Meets.any _).bind fun predicate _ =>
        .ok (.condition predicate)
    · split
      · exact marker .for
      · exact tag
    · exact .error trivial

/-- The tokens of `p: q.`, a line feed and `r`, but all of them placed at the start of the source. -/
def strayTokens : List Token :=
  [⟨.word, ['p'], .start⟩, ⟨.symbol .colon, [':'], .start⟩, ⟨.space, [' '], .start⟩,
    ⟨.word, ['q'], .start⟩, ⟨.symbol .block, ['.', '\n'], .start⟩, ⟨.word, ['r'], .start⟩]

/-- Tokens that were not cut into lines can have one left, behind the block marker. -/
example : read ['x'] strayTokens =
    .ok (.tag (.around { name := ['p'] } (.textBlock { name := ['q'] })),
      [⟨.word, ['r'], .start⟩]) := by
  cbv

theorem left_eq_nil (member : whole ∈ Line.split tokens) (within : line <:+ whole)
    {statement : Statement} (said : read source line = .ok (statement, left)) : left = [] := by
  have leaves := read_leaves source line
  rw [said] at leaves
  exact leaves.of_ok.nil_or_behindMarker.elim id fun behind => (behind.mono within).eq_nil member

/-- Nothing is left over of a line that was cut from tokens once its statement is read, whichever
the tokens are and whatever the source. So nothing is left to complain of: the line is the statement
that is read, or the error that is met there. A tag line that goes on behind a colon is read there
with fewer tokens than before. -/
theorem read_takes_line :
    (∀ source tokens, ∀ line ∈ Line.split tokens,
      (∀ statement left, read source line.skipSpace = .ok (statement, left) → left = []) ∧
        ofLine source line = (read source line.skipSpace).map Prod.fst) ∧
    (∀ line head inner, TagLine.Reenters line head inner → inner.length < line.length ∧
      ∀ source, TagLine.read source line =
        (TagLine.read source inner).map fun (tagLine, left) => (.around head tagLine, left)) ∧
    ∀ source line head tagLine left, TagLine.read source line = .ok (.around head tagLine, left) →
      ∃ inner, TagLine.Reenters line head inner ∧ TagLine.read source inner = .ok (tagLine, left) := by
  refine ⟨fun source tokens line member => ?_, fun line head inner reenters => ?_, ?_⟩
  · have nothing : ∀ statement left, read source line.skipSpace = .ok (statement, left) →
        left = [] := fun _ _ => left_eq_nil member line.skipSpace_suffix
    refine ⟨nothing, ?_⟩
    rw [ofLine]
    cases said : read source line.skipSpace with
    | error => rfl
    | ok result =>
      obtain ⟨statement, left⟩ := result
      obtain rfl := nothing statement left said
      rfl
  · exact ⟨reenters.length_lt, reenters.read_eq⟩
  · exact fun _ _ _ _ _ => TagLine.exists_reenters

/-- The first of the lines that the stray tokens are cut into, with a tag behind a colon. -/
theorem read_takes_line_stray :
    strayTokens.dropLast ∈ Line.split strayTokens ∧
      read ['x'] (Line.skipSpace strayTokens.dropLast) =
        .ok (.tag (.around { name := ['p'] } (.textBlock { name := ['q'] })), []) ∧
      ofLine ['x'] strayTokens.dropLast =
        .ok (.tag (.around { name := ['p'] } (.textBlock { name := ['q'] }))) ∧
      ∃ inner, TagLine.Reenters strayTokens.dropLast { name := ['p'] } inner ∧
        inner.length < strayTokens.dropLast.length ∧
        TagLine.read ['x'] inner = .ok (.textBlock { name := ['q'] }, []) := by
  have member : strayTokens.dropLast ∈ Line.split strayTokens := by decide
  have tagLine : TagLine.read ['x'] strayTokens.dropLast =
      .ok (.around { name := ['p'] } (.textBlock { name := ['q'] }), []) := by cbv
  have said : read ['x'] (Line.skipSpace strayTokens.dropLast) =
      .ok (.tag (.around { name := ['p'] } (.textBlock { name := ['q'] })), []) := by cbv
  obtain ⟨lines, decreases, goesOn⟩ := read_takes_line
  have whole := lines ['x'] strayTokens strayTokens.dropLast member
  obtain ⟨inner, reenters, read⟩ := goesOn _ _ _ _ _ tagLine
  refine ⟨member, said, ?_, inner, reenters, (decreases _ _ _ reenters).1, read⟩
  rw [whole.2, said]
  rfl

end Statement

end IndentMarkup
