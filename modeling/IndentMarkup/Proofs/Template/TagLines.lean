import IndentMarkup.Proofs.Statement.Head
import IndentMarkup.Proofs.Template.Siblings

/-! Tag lines of a template, with nothing nested under them. The lines of the grammar are those that
are read, and what they spell is the element. Any other line is blamed for its first token that no
line of the grammar has there. -/
namespace IndentMarkup

open TagLine.Shape

variable {source : Text} {line : Line}

/-- The line is one of the source, and is read as a tag. -/
structure Line.IsTag (source : Text) (line : Line) : Prop where
  cut : ∃ tokens, Token.ofText source = .ok tokens ∧ line ∈ Line.split tokens
  starts : line.skipSpace.startsWithAny TagLine.startKinds = true
  other : ∀ t rest, line.skipSpace = t :: rest → Statement.isForMarker t rest = false

namespace Line.IsTag

/-- The line is all of the source. -/
theorem whole (read : Token.listFrom .start source = line) (single : Line.split line = [line])
    (starts : line.skipSpace.startsWithAny TagLine.startKinds = true)
    (other : ∀ t rest, line.skipSpace = t :: rest → Statement.isForMarker t rest = false) :
    line.IsTag source := by
  refine ⟨⟨line, ?_, single ▸ List.mem_singleton_self line⟩, starts, other⟩
  rw [Token.ofText_eq_listFrom, read]

theorem leftOf (tag : line.IsTag source) : line.skipSpace.LeftOf source := by
  obtain ⟨tokens, read, member⟩ := tag.cut
  rw [Token.ofText_eq_listFrom] at read
  cases read
  exact (Line.leftOf_of_mem_split member).skipSpace

theorem isBlank (tag : line.IsTag source) : line.isBlank = false := by
  refine Bool.eq_false_iff.mpr fun blank => ?_
  have starts := tag.starts
  rw [Line.skipSpace_eq_nil blank] at starts
  contradiction

theorem read (tag : line.IsTag source) :
    Statement.read source line.skipSpace =
      (TagLine.read source line.skipSpace).map fun (tagLine, left) => (.tag tagLine, left) :=
  Statement.read_of_opensTag ⟨tag.starts, fun t rest same _ => tag.other t rest same⟩

theorem elements (tag : line.IsTag source) (indent : Nat) :
    LineTree.elements source none [⟨line, indent, []⟩] =
      (TagLine.read source line.skipSpace).map fun (tagLine, _) => [tagLine.element [] []] := by
  have spelled := TagLine.read_spelled source tag.leftOf
  have solid : LineTree.isBlank ⟨line, indent, []⟩ = false := tag.isBlank
  rw [LineTree.elements_statement solid rfl, Statement.ofLine, tag.read]
  cases taken : TagLine.read source line.skipSpace with
  | error => rfl
  | ok result =>
    rw [taken] at spelled
    obtain ⟨tagLine, rest⟩ := result
    obtain rfl := spelled.of_ok.1
    change LineTree.elementsFrom source [] ⟨line, indent, []⟩ [] (.tag tagLine) = _
    simp only [LineTree.elementsFrom, LineTree.children, LineTree.elements, Option.map_none,
      Option.toList_none, LineTree.element_tag_leaf]
    rfl

end Line.IsTag

namespace LineTree

/-- A tag line is read if and only if it is one of the grammar, and its element is the one that it
spells. -/
theorem elements_tag_iff (tag : line.IsTag source) (indent : Nat) :
    ((∃ elements, LineTree.elements source none [⟨line, indent, []⟩] = .ok elements) ↔
        Form StartsTag line.skipSpace.kinds) ∧
      ∀ elements, LineTree.elements source none [⟨line, indent, []⟩] = .ok elements →
        ∃ element, elements = [element] ∧ TagLine.Spells source line.skipSpace element := by
  have checked := Stage.check_read source tag.leftOf tag.starts
  rw [form_iff_mem_left (TagLine.startsTag_kinds.mpr tag.starts), ← Stage.check_ok_iff, checked,
    tag.elements]
  have spelled := TagLine.read_spelled source tag.leftOf
  cases taken : TagLine.read source line.skipSpace with
  | error => simp [Except.map]
  | ok result =>
    rw [taken] at spelled
    refine ⟨iff_of_true ⟨_, rfl⟩ rfl, ?_⟩
    rintro _ ⟨rfl⟩
    exact ⟨_, rfl, spelled.of_ok.2⟩

/-- The line `.b#c: d e`. -/
def nestingLine : Line :=
  [⟨.symbol .dot, ['.'], ⟨0, 1, 1⟩⟩, ⟨.word, ['b'], ⟨1, 1, 2⟩⟩,
    ⟨.symbol .hash, ['#'], ⟨2, 1, 3⟩⟩, ⟨.word, ['c'], ⟨3, 1, 4⟩⟩,
    ⟨.symbol .colon, [':'], ⟨4, 1, 5⟩⟩, ⟨.space, [' '], ⟨5, 1, 6⟩⟩,
    ⟨.word, ['d'], ⟨6, 1, 7⟩⟩, ⟨.space, [' '], ⟨7, 1, 8⟩⟩, ⟨.word, ['e'], ⟨8, 1, 9⟩⟩]

/-- A class, an id, and a tag with text behind the colon. -/
theorem elements_tag_iff_nesting :
    Form StartsTag nestingLine.kinds ∧
      TagLine.Spells ".b#c: d e".toList nestingLine
        (.tag { name := TagHead.defaultName, id := some ['c'], classes := [['b']] } none
          [.tag { name := ['d'] } (some (.text ['e'])) []]) := by
  have tag : nestingLine.IsTag ".b#c: d e".toList := by
    refine .whole (by cbv) rfl rfl ?_
    rintro _ _ ⟨rfl⟩
    rfl
  have read : LineTree.elements ".b#c: d e".toList none [⟨nestingLine, 0, []⟩] =
      .ok [.tag { name := TagHead.defaultName, id := some ['c'], classes := [['b']] } none
        [.tag { name := ['d'] } (some (.text ['e'])) []]] := by
    cbv
  have both := elements_tag_iff tag 0
  obtain ⟨_, same, spelled⟩ := both.2 _ read
  obtain rfl := List.singleton_inj.mp same
  exact ⟨both.1.mp ⟨_, read⟩, spelled⟩

/-- A tag line may do without a name, even behind a colon if nothing is asked of it. -/
theorem form_colon_nameless {word : List Token.Kind}
    (left : word ∈ (Stage.selectors 1 false).left) (nonempty : word ≠ []) :
    Form (· ≠ []) (.word :: .symbol .colon :: word) := by
  have named : [.word] ∈ head :=
    ⟨⟨[.word], ⟨[.word], .inr (mem_just.mpr rfl), [], Language.nil_mem_kstar _, rfl⟩, [], .inl rfl,
      rfl⟩, by decide⟩
  have nameless : Form StartsTag word := by
    rw [form_iff, head_mul_tail]
    exact ⟨[], .inl rfl, word, left, rfl⟩
  have inner : Form (· ≠ []) word := nameless.imp fun inner starts => by
    rintro rfl
    obtain ⟨_, _, _⟩ := starts
    contradiction
  exact .colon named (Language.nil_mem_kstar _) inner nonempty

/-- The line `p:(a="b")`. -/
def namelessLine : Line :=
  [⟨.word, ['p'], ⟨0, 1, 1⟩⟩, ⟨.symbol .colon, [':'], ⟨1, 1, 2⟩⟩,
    ⟨.symbol .openParen, ['('], ⟨2, 1, 3⟩⟩, ⟨.word, ['a'], ⟨3, 1, 4⟩⟩,
    ⟨.symbol .equals, ['='], ⟨4, 1, 5⟩⟩, ⟨.quoted, ['b'], ⟨5, 1, 6⟩⟩,
    ⟨.symbol .closeParen, [')'], ⟨8, 1, 9⟩⟩]

/-- Attributes alone are a tag line, but behind a colon they are not read as one. -/
theorem not_elements_tag_iff_nameless :
    namelessLine.IsTag "p:(a=\"b\")".toList ∧
      ¬ ((∃ elements, LineTree.elements "p:(a=\"b\")".toList none [⟨namelessLine, 0, []⟩] =
          .ok elements) ↔ Form (· ≠ []) namelessLine.skipSpace.kinds) := by
  have tag : namelessLine.IsTag "p:(a=\"b\")".toList := by
    refine .whole (by cbv) rfl rfl ?_
    rintro _ _ ⟨rfl⟩
    rfl
  have failed : LineTree.elements "p:(a=\"b\")".toList none [⟨namelessLine, 0, []⟩] =
      .error (.unexpectedToken ['('] 1 3) := by
    cbv
  have form : Form (· ≠ []) namelessLine.skipSpace.kinds :=
    form_colon_nameless (mem_left_iff.mpr ⟨.selectors 1 true, rfl, rfl⟩) (List.cons_ne_nil _ _)
  refine ⟨tag, fun same => ?_⟩
  obtain ⟨elements, read⟩ := same.mpr form
  rw [failed] at read
  contradiction

/-- A tag line that is not read is blamed for the leftmost token that cannot be right. -/
theorem elements_tag_error (tag : line.IsTag source) (indent : Nat) {error : ParseError}
    (failed : LineTree.elements source none [⟨line, indent, []⟩] = .error error) :
    LeftmostError {word | Form StartsTag word} line.skipSpace error := by
  have checked := Stage.check_read source tag.leftOf tag.starts
  rw [tag.elements] at failed
  cases taken : TagLine.read source line.skipSpace with
  | ok =>
    rw [taken] at failed
    contradiction
  | error =>
    rw [taken] at failed checked
    cases failed
    have first : Stage.colon ≠ .block := by simp
    exact (Stage.check_error tag.leftOf first checked).form (TagLine.startsTag_kinds.mpr tag.starts)

/-- The line `p(a "b")`. -/
def signlessLine : Line :=
  [⟨.word, ['p'], ⟨0, 1, 1⟩⟩, ⟨.symbol .openParen, ['('], ⟨1, 1, 2⟩⟩,
    ⟨.word, ['a'], ⟨2, 1, 3⟩⟩, ⟨.space, [' '], ⟨3, 1, 4⟩⟩, ⟨.quoted, ['b'], ⟨4, 1, 5⟩⟩,
    ⟨.symbol .closeParen, [')'], ⟨7, 1, 8⟩⟩]

/-- The value is blamed if there is no sign in front of it. -/
theorem elements_tag_error_signless :
    LeftmostError {word | Form StartsTag word} signlessLine (.unexpectedToken ['b'] 1 5) := by
  have tag : signlessLine.IsTag "p(a \"b\")".toList := by
    refine .whole (by cbv) rfl rfl ?_
    rintro _ _ ⟨rfl⟩
    rfl
  exact elements_tag_error tag 0 (by cbv)

/-- The line `p:(a)`. -/
def valuelessLine : Line :=
  [⟨.word, ['p'], ⟨0, 1, 1⟩⟩, ⟨.symbol .colon, [':'], ⟨1, 1, 2⟩⟩,
    ⟨.symbol .openParen, ['('], ⟨2, 1, 3⟩⟩, ⟨.word, ['a'], ⟨3, 1, 4⟩⟩,
    ⟨.symbol .closeParen, [')'], ⟨4, 1, 5⟩⟩]

/-- The parenthesis is blamed, although attributes alone are a tag line. -/
theorem not_elements_tag_error_valueless :
    valuelessLine.IsTag "p:(a)".toList ∧
      LineTree.elements "p:(a)".toList none [⟨valuelessLine, 0, []⟩] =
        .error (.unexpectedToken ['('] 1 3) ∧
      ¬ LeftmostError {word | Form (· ≠ []) word} valuelessLine.skipSpace
        (.unexpectedToken ['('] 1 3) := by
  have tag : valuelessLine.IsTag "p:(a)".toList := by
    refine .whole (by cbv) rfl rfl ?_
    rintro _ _ ⟨rfl⟩
    rfl
  refine ⟨tag, by cbv, fun leftmost => ?_⟩
  generalize same : ParseError.unexpectedToken ['('] 1 3 = error at leftmost
  cases leftmost with
  | ended => contradiction
  | @token before behind t split viable stuck =>
    -- Only the third token stands in that column.
    obtain _ | ⟨_, _ | ⟨_, _ | ⟨_, _ | ⟨_, _ | ⟨_, before⟩⟩⟩⟩⟩ := before
    case cons.cons.nil =>
      cases split
      refine stuck [.word, .symbol .equals, .quoted, .symbol .closeParen] ?_
      exact form_colon_nameless (mem_left_iff.mpr ⟨.selectors 1 true, rfl, rfl⟩) (by simp)
    case cons.cons.cons.cons.cons =>
      have length := congrArg List.length split
      simp [valuelessLine, Line.skipSpace] at length
    all_goals
      cases split
      contradiction

end LineTree

end IndentMarkup
