import IndentMarkup.Proofs.Line.FinalFeed
import IndentMarkup.Proofs.Statement.Alike

/-! Statements of a line that ends in a dot, and of the same line with a block marker in place of the
dot. A tag is read alike from both, unless it is nothing but the dot: a block marker starts no tag. -/
namespace IndentMarkup

/-- The lines differ in the last token, a dot in the one and a block marker in the other. -/
inductive Line.Fed (q : Position) : Line → Line → Prop where
  | last : Fed q [.dotAt q] [.blockAt q]
  | cons (t : Token) {rest rest' : Line} (later : Fed q rest rest') :
      Fed q (t :: rest) (t :: rest')

/-- What is left of the lines behind a tag: the dot has been read, or it has not been reached. -/
inductive Line.FedBehind (q : Position) : Line → Line → Prop where
  | read : FedBehind q [] [.blockAt q]
  | cons (t : Token) {rest rest' : Line} (later : Fed q rest rest') :
      FedBehind q (t :: rest) (t :: rest')

/-- A tag stands at the end of the line, maybe behind others and their colons, and it is nothing but a
dot. -/
inductive Line.LoneDot : Line → Prop where
  | dot {t : Token} (dot : t.kind = .symbol .dot) : LoneDot [t]
  | behind {line rest : Line} {head : TagHead} {t : Token}
      (starts : line.startsWithAny TagLine.startKinds = true)
      (read : TagLine.readHead line = .ok (head, t :: rest)) (colon : t.kind = .symbol .colon)
      (later : LoneDot (Line.skipSpace rest)) : LoneDot line

variable {source : Text} {q : Position} {line line' : Line}

namespace Line.Fed

theorem of_append (q : Position) (front : Line) :
    Fed q (front ++ [.dotAt q]) (front ++ [.blockAt q]) := by
  induction front with
  | nil => exact .last
  | cons t front ih => exact .cons t ih

theorem ne_nil (fed : Fed q line line') : line ≠ [] ∧ line' ≠ [] := by
  cases fed <;> exact ⟨List.cons_ne_nil _ _, List.cons_ne_nil _ _⟩

theorem getLast? (fed : Fed q line line') :
    line.getLast? = some (.dotAt q) ∧ line'.getLast? = some (.blockAt q) := by
  induction fed with
  | last => exact ⟨rfl, rfl⟩
  | cons t later ih => simp [List.getLast?_cons, ih]

/-- A block marker counts for its dot. -/
theorem sourceText (fed : Fed q line line') (source : Text) :
    line.sourceText source = line'.sourceText source := by
  rw [Line.sourceText, Line.sourceText, fed.getLast?.1, fed.getLast?.2]
  cases fed <;> rfl

theorem trimmedText (fed : Fed q line line') (source : Text) :
    line.trimmedText source = line'.trimmedText source := by
  rw [Line.trimmedText, Line.trimmedText, fed.sourceText]

theorem requiredText (fed : Fed q line line') (source : Text) :
    line.requiredText source = line'.requiredText source := by
  rw [Line.requiredText, Line.requiredText, fed.trimmedText]

theorem skipSpace (fed : Fed q line line') : Fed q line.skipSpace line'.skipSpace := by
  induction fed with
  | last => exact .last
  | @cons t rest rest' later ih =>
    by_cases space : t.kind = .space
    · simpa [Line.skipSpace, space] using ih
    · simpa [Line.skipSpace, space] using Fed.cons t later

theorem isBlank (fed : Fed q line line') : line.isBlank = false ∧ line'.isBlank = false := by
  induction fed with
  | last => exact ⟨rfl, rfl⟩
  | cons t later ih =>
    simp only [Line.isBlank, List.all_cons, Bool.and_eq_false_iff] at ih ⊢
    exact ⟨.inr ih.1, .inr ih.2⟩

theorem indent (fed : Fed q line line') : line.indent = line'.indent := by
  cases fed <;> rfl

theorem startsWith (fed : Fed q line line') (kind : Token.Kind) (other : kind ≠ .symbol .dot)
    (other' : kind ≠ .symbol .block) : line.startsWith kind = line'.startsWith kind := by
  cases fed with
  | last => simp [Line.startsWith, Token.dotAt, Token.blockAt, other.symm, other'.symm]
  | cons => rfl

theorem expect (fed : Fed q line line') (kind : Token.Kind) (other : kind ≠ .symbol .dot)
    (other' : kind ≠ .symbol .block) :
    Agree AnyErrors (fun taken taken' => taken.1 = taken'.1 ∧ Fed q taken.2 taken'.2)
      (line.expect kind) (line'.expect kind) := by
  rw [Line.expect, Line.expect, ← fed.startsWith kind other other']
  split
  next starts =>
    cases fed with
    | last => simp [Line.startsWith, Token.dotAt, other.symm] at starts
    | cons t later =>
      rw [Line.next, Line.next]
      split
      · exact .error trivial
      · exact .ok ⟨rfl, later⟩
  next => exact .error trivial

end Line.Fed

/-- The same was read, and what is left of the lines is related. -/
def Line.SameRead {α : Type} (left : Line → Line → Prop) (first second : α × Line) : Prop :=
  first.1 = second.1 ∧ left first.2 second.2

namespace TagLine

theorem readName_fed (fed : Line.Fed q line line') :
    Line.SameRead (Line.Fed q) (readName line) (readName line') := by
  cases fed with
  | last => exact ⟨rfl, .last⟩
  | cons t later =>
    rw [readName, readName]
    split
    · exact ⟨rfl, later⟩
    · exact ⟨rfl, .cons t later⟩

theorem readSelectors_block (head : TagHead) (q : Position) :
    readSelectors head [.blockAt q] = .ok (head, [.blockAt q]) := by
  simp [readSelectors, Token.blockAt]

theorem readSelectors_fed (head : TagHead) (fed : Line.Fed q line line') :
    Agree AnyErrors (Line.SameRead (Line.FedBehind q)) (readSelectors head line)
      (readSelectors head line') := by
  fun_induction readSelectors head line generalizing line' with
  | case1 => exact absurd rfl fed.ne_nil.1
  | case2 head t dot =>
    cases fed with
    | last =>
      rw [readSelectors_block]
      exact .ok ⟨rfl, .read⟩
    | cons _ later => exact absurd rfl later.ne_nil.1
  | case3 head t dot name left named ih =>
    cases fed with
    | cons _ later =>
      cases later with
      | last => contradiction
      | cons _ later => simpa [readSelectors, dot, named] using ih later
  | case4 head t dot name left unnamed =>
    cases fed with
    | cons _ later =>
      cases later with
      | last => simpa [readSelectors, dot, Token.Kind.isName] using Agree.error trivial
      | cons => simpa [readSelectors, dot, unnamed] using Agree.error trivial
  | case5 head t rest dot hash taken =>
    cases fed with
    | last => contradiction
    | cons _ later =>
      rw [readSelectors.eq_def]
      simp only [if_neg dot, if_pos hash, if_pos taken]
      exact .error trivial
  | case6 head t dot hash fresh =>
    cases fed with
    | last => contradiction
    | cons _ later => exact absurd rfl later.ne_nil.1
  | case7 head t dot hash fresh name left named ih =>
    cases fed with
    | cons _ later =>
      cases later with
      | last => contradiction
      | cons _ later => simpa [readSelectors, dot, hash, fresh, named] using ih later
  | case8 head t dot hash fresh name left unnamed =>
    cases fed with
    | cons _ later =>
      cases later with
      | last => simpa [readSelectors, dot, hash, fresh, Token.Kind.isName] using Agree.error trivial
      | cons => simpa [readSelectors, dot, hash, fresh, unnamed] using Agree.error trivial
  | case9 head t rest dot hash =>
    cases fed with
    | last => contradiction
    | cons _ later =>
      rw [readSelectors.eq_def]
      simp only [if_neg dot, if_neg hash]
      exact .ok ⟨rfl, .cons t later⟩

theorem readSelectors_behind (head : TagHead) (behind : Line.FedBehind q line line') :
    Agree AnyErrors (Line.SameRead (Line.FedBehind q)) (readSelectors head line)
      (readSelectors head line') := by
  cases behind with
  | read =>
    rw [readSelectors, readSelectors_block]
    exact .ok ⟨rfl, .read⟩
  | cons t later => exact readSelectors_fed head (.cons t later)

theorem readAttributes_fed (stage : AttributeStage) (head : TagHead)
    (fed : Line.Fed q line line') :
    Agree AnyErrors (Line.SameRead (Line.Fed q)) (readAttributes stage head line)
      (readAttributes stage head line') := by
  induction fed generalizing stage head with
  | last => cases stage <;> simpa [readAttributes, Token.Kind.isName] using Agree.error trivial
  | cons t later ih =>
    cases stage with
    | between =>
      rw [readAttributes, readAttributes]
      split
      · exact ih _ _
      · split
        · exact .ok ⟨rfl, later⟩
        · split
          · exact ih _ _
          · exact .error trivial
    | named name =>
      rw [readAttributes, readAttributes]
      split
      · exact ih _ _
      · split
        · exact ih _ _
        · exact .error trivial
    | assigned name =>
      rw [readAttributes, readAttributes]
      split
      · exact ih _ _
      · split
        · exact ih _ _
        · exact .error trivial

theorem readParentheses_behind (head : TagHead) (behind : Line.FedBehind q line line') :
    Agree AnyErrors
      (Line.SameRead fun left left' => Line.Fed q left left' ∨ Line.FedBehind q left left')
      (readParentheses head line) (readParentheses head line') := by
  cases behind with
  | read =>
    rw [readParentheses, readParentheses, if_neg (by simp)]
    exact .ok ⟨rfl, .inr .read⟩
  | cons t later =>
    rw [readParentheses, readParentheses]
    split
    · exact (readAttributes_fed .between head later).imp fun _ _ same => ⟨same.1, .inl same.2⟩
    · exact .ok ⟨rfl, .inr (.cons t later)⟩

theorem readHead_fed (fed : Line.Fed q line line') :
    Agree AnyErrors (Line.SameRead (Line.FedBehind q)) (readHead line) (readHead line') := by
  have name := readName_fed fed
  unfold readHead
  generalize readName line = first, readName line' = second at name
  obtain ⟨name, rest⟩ := first
  obtain ⟨rfl, fed⟩ := name
  refine (readSelectors_fed _ fed).bind ?_
  rintro ⟨head, rest⟩ ⟨_, rest'⟩ ⟨rfl, behind⟩
  refine (readParentheses_behind head behind).bind ?_
  rintro ⟨head, rest⟩ ⟨_, rest'⟩ ⟨rfl, fed | behind⟩
  · exact readSelectors_fed head fed
  · exact readSelectors_behind head behind

/-- The tag lines are the same, or they end in a tag that holds nothing in the one and an empty text
in the other. -/
inductive SameLeaf : TagLine → TagLine → Prop where
  | same (line : TagLine) : SameLeaf line line
  | empty (head : TagHead) : SameLeaf (.plain head none) (.textBlock head)
  | around (head : TagHead) {inner inner' : TagLine} (inside : SameLeaf inner inner') :
      SameLeaf (.around head inner) (.around head inner')

/-- Without nested lines both are one element. -/
theorem SameLeaf.element {line line' : TagLine} (same : SameLeaf line line') :
    line.element [] [] = line'.element [] [] := by
  induction same with
  | same => rfl
  | empty => rfl
  | around head inside ih => rw [TagLine.element, TagLine.element, ih]

end TagLine

/-- The lines are read to their ends, or something is left of both. -/
def Line.BothRead (q : Position) (left left' : Line) : Prop :=
  (left = [] ∧ left' = []) ∨ Line.Fed q left left'

namespace TagLine

/-- How a tag is read from both lines if it starts there. -/
structure ReadFed (source : Text) (q : Position) (line line' : Line) : Prop where
  starts : ¬ line.LoneDot → line.startsWithAny startKinds = line'.startsWithAny startKinds
  agree : line.startsWithAny startKinds = true → ¬ line.LoneDot →
    Agree AnyErrors (fun first second => SameLeaf first.1 second.1 ∧
      Line.BothRead q first.2 second.2) (read source line) (read source line')
  fails : line.LoneDot → line'.startsWithAny startKinds = true → Fails (read source line')

theorem readTail_fed {head : TagHead} {t : Token} {rest rest' : Line}
    (later : Line.Fed q rest rest')
    (inner : ReadFed source q rest.skipSpace rest'.skipSpace)
    (tagged : t.kind = .symbol .colon → ¬ (Line.skipSpace rest).LoneDot) :
    Agree AnyErrors (fun first second => SameLeaf first.1 second.1 ∧
      Line.BothRead q first.2 second.2) (readTail source head (t :: rest))
        (readTail source head (t :: rest')) := by
  have expression : Agree AnyErrors (fun first second : TagLine × Line =>
      SameLeaf first.1 second.1 ∧ Line.BothRead q first.2 second.2)
      ((Line.requiredText source (Line.skipSpace rest)).map fun value =>
        (.plain head (some (.expression value)), []))
      ((Line.requiredText source (Line.skipSpace rest')).map fun value =>
        (.plain head (some (.expression value)), [])) := by
    rw [later.skipSpace.requiredText]
    cases Line.requiredText source (Line.skipSpace rest') with
    | error => exact .error trivial
    | ok => exact .ok ⟨.same _, .inl ⟨rfl, rfl⟩⟩
  rw [readTail, readTail]
  split
  · exact expression
  · exact expression
  · rw [later.trimmedText]
    split <;> exact .ok ⟨.same _, .inl ⟨rfl, rfl⟩⟩
  · exact .ok ⟨.same _, .inr later⟩
  next colon =>
    rw [← inner.starts (tagged colon)]
    split
    next starts =>
      refine (inner.agree starts (tagged colon)).map ?_
      rintro ⟨first, left⟩ ⟨second, left'⟩ ⟨same, both⟩
      exact ⟨.around head same, both⟩
    · exact .error trivial
  · exact .error trivial

theorem read_fed (source : Text) {line line' : Line} (fed : Line.Fed q line line') :
    ReadFed source q line line' := by
  cases fed with
  | last =>
    refine ⟨fun other => absurd (.dot rfl) other, fun _ other => absurd (.dot rfl) other, ?_⟩
    intro _ starts
    simp [Line.startsWithAny, startKinds] at starts
  | @cons t rest rest' later =>
    have heads := readHead_fed (.cons t later)
    refine ⟨fun _ => rfl, fun starts tagged => ?_, fun tagged starts => ?_⟩
    · rw [read_eq_bind, read_eq_bind]
      generalize taken : readHead (t :: rest) = result, readHead (t :: rest') = result' at heads
      cases heads with
      | error => exact .error trivial
      | @ok value value' same =>
        obtain ⟨⟨head, left⟩, ⟨_, left'⟩⟩ := value, value'
        obtain ⟨rfl, behind⟩ := same
        change Agree AnyErrors _ (readTail source head left) (readTail source head left')
        cases behind with
        | read => exact .ok ⟨.empty head, .inl ⟨rfl, rfl⟩⟩
        | @cons u left left' behind =>
          have decreasing := length_behind_lt taken
          exact readTail_fed behind (read_fed source behind.skipSpace)
            fun colon lone => tagged (.behind starts taken colon lone)
    · cases tagged with
      | dot => exact absurd rfl later.ne_nil.1
      | @behind _ left head u _ taken colon lone =>
        rw [taken] at heads
        rw [read_eq_bind]
        generalize readHead (t :: rest') = result at heads
        cases heads with
        | @ok _ value' same =>
          obtain ⟨_, left'⟩ := value'
          obtain ⟨rfl, behind⟩ := same
          change Fails (readTail source head left')
          cases behind with
          | @cons _ _ left' behind =>
            have decreasing := length_behind_lt taken
            rw [readTail, colon]
            dsimp only
            split
            next starts =>
              exact ((read_fed source behind.skipSpace).fails lone starts).map _
            · exact .error _
termination_by line.length
decreasing_by all_goals exact decreasing

end TagLine

/-- A word in front of a blank is a tag by itself. -/
theorem TagLine.readHead_word_space {t : Token} {rest : Line} (word : t.kind = .word)
    (space : rest.startsWith .space = true) :
    readHead (t :: rest) = .ok ({ name := t.text }, rest) := by
  cases rest with
  | nil => contradiction
  | cons u rest =>
    have kind : u.kind = .space := by simpa [Line.startsWith] using space
    have stops (head : TagHead) : readSelectors head (u :: rest) = .ok (head, u :: rest) := by
      rw [readSelectors.eq_def]
      simp [kind]
    simp [readHead, readName, word, stops, readParentheses, kind, bind, Except.bind]

namespace Statement

/-- The statements are the same, but for a tag that holds nothing or an empty text. -/
inductive SameLeaf : Statement → Statement → Prop where
  | same (statement : Statement) : SameLeaf statement statement
  | tag {line line' : TagLine} (same : TagLine.SameLeaf line line') :
      SameLeaf (.tag line) (.tag line')

/-- How a statement is read from both lines. -/
def BothAgree (q : Position) (run run' : Except ParseError (Statement × Line)) : Prop :=
  Agree AnyErrors (fun first second => SameLeaf first.1 second.1 ∧
    Line.BothRead q first.2 second.2) run run'

theorem readMarker_fed (source : Text) (kind : Marker) (fed : Line.Fed q line line') :
    BothAgree q (readMarker source kind line) (readMarker source kind line') := by
  rw [readMarker_eq, readMarker_eq, fed.skipSpace.requiredText]
  cases Line.requiredText source (Line.skipSpace line') with
  | error => exact .error trivial
  | ok => exact .ok ⟨.same _, .inl ⟨rfl, rfl⟩⟩

theorem readCondition_fed (source : Text) (fed : Line.Fed q line line') :
    BothAgree q (readCondition source line) (readCondition source line') := by
  rw [readCondition_eq, readCondition_eq]
  refine (fed.expect .space (by simp) (by simp)).bind ?_
  rintro ⟨_, rest⟩ ⟨_, rest'⟩ ⟨-, fed⟩
  dsimp only
  rw [fed.requiredText]
  cases Line.requiredText source rest' with
  | error => exact .error trivial
  | ok => exact .ok ⟨.same _, .inl ⟨rfl, rfl⟩⟩

theorem readPiped_fed (source : Text) (fed : Line.Fed q line line') :
    readPiped source line = readPiped source line' := by
  cases fed with
  | last =>
    have text := (Line.Fed.last (q := q)).trimmedText source
    simpa using text
  | cons t later =>
    rw [readPiped_cons, readPiped_cons]
    split
    · rw [later.trimmedText]
    · rw [(Line.Fed.cons t later).trimmedText]

theorem read_fed (source : Text) (fed : Line.Fed q line line') (tagged : ¬ line.LoneDot) :
    BothAgree q (read source line) (read source line') := by
  cases fed with
  | last => exact absurd (.dot rfl) tagged
  | @cons t rest rest' later =>
    have tag (starts : t.kind ∈ TagLine.startKinds) : BothAgree q
        ((TagLine.read source (t :: rest)).map fun taken => (Statement.tag taken.1, taken.2))
        ((TagLine.read source (t :: rest')).map fun taken => (.tag taken.1, taken.2)) := by
      refine ((TagLine.read_fed source (.cons t later)).agree ?_ tagged).map ?_
      · simpa [Line.startsWithAny] using starts
      · exact fun _ _ same => ⟨.tag same.1, same.2⟩
    have loop : isForMarker t rest = isForMarker t rest' := by
      rw [isForMarker, isForMarker, later.startsWith .space (by simp) (by simp)]
    rw [read, read, ← loop]
    split
    · rw [readComment_eq, readComment_eq, later.trimmedText]
      exact .ok ⟨.same _, .inl ⟨rfl, rfl⟩⟩
    · rw [readComment_eq, readComment_eq, later.trimmedText]
      exact .ok ⟨.same _, .inl ⟨rfl, rfl⟩⟩
    · rw [readPiped_fed source later]
      exact .ok ⟨.same _, .inl ⟨readPiped_left _ _, readPiped_left _ _⟩⟩
    next dot => exact tag (by simp [TagLine.startKinds, dot])
    next hash => exact tag (by simp [TagLine.startKinds, hash])
    · exact readMarker_fed source .each later
    · exact readMarker_fed source .mixin later
    · exact readMarker_fed source .include later
    · exact readCondition_fed source later
    next word =>
      split
      · exact readMarker_fed source .for later
      · exact tag (by simp [TagLine.startKinds, word])
    · exact .error trivial

theorem read_fails (source : Text) (fed : Line.Fed q line line') (tagged : line.LoneDot) :
    Fails (read source line') := by
  cases fed with
  | last => exact .error _
  | @cons t rest rest' later =>
    cases tagged with
    | dot => exact absurd rfl later.ne_nil.1
    | @behind _ left head u starts taken colon lone =>
      have tag : Fails ((TagLine.read source (t :: rest')).map fun taken =>
          (Statement.tag taken.1, taken.2)) :=
        ((TagLine.read_fed source (.cons t later)).fails
          (.behind starts taken colon lone) starts).map _
      have kinds : t.kind = .word ∨ t.kind = .symbol .dot ∨ t.kind = .symbol .hash := by
        simpa [Line.startsWithAny, TagLine.startKinds] using starts
      rcases kinds with word | dot | hash
      · have unspaced : rest'.startsWith .space = false := by
          rw [← later.startsWith .space (by simp) (by simp)]
          refine Bool.eq_false_iff.mpr fun space => ?_
          rw [TagLine.readHead_word_space word space] at taken
          cases taken
          simp [Line.startsWith, colon] at space
        simpa [read, word, isForMarker, unspaced] using tag
      · simpa [read, dot] using tag
      · simpa [read, hash] using tag

theorem ofLine_fed (source : Text) (fed : Line.Fed q line line')
    (tagged : ¬ line.skipSpace.LoneDot) :
    Agree AnyErrors SameLeaf (ofLine source line) (ofLine source line') := by
  refine (read_fed source fed.skipSpace tagged).bind ?_
  rintro ⟨statement, left⟩ ⟨statement', left'⟩ ⟨same, ⟨rfl, rfl⟩ | left⟩
  · exact .ok same
  · obtain ⟨some, some'⟩ := left.ne_nil
    obtain ⟨t, left, rfl⟩ := List.exists_cons_of_ne_nil some
    obtain ⟨t', left', rfl⟩ := List.exists_cons_of_ne_nil some'
    exact .error trivial

theorem ofLine_fails (source : Text) (fed : Line.Fed q line line')
    (tagged : line.skipSpace.LoneDot) : Fails (ofLine source line') :=
  (read_fails source fed.skipSpace tagged).bind _

end Statement

/-- Neither line is an `else`: something stands behind the word. -/
theorem readElse_fails (fed : Line.Fed q line line') :
    Fails (readElse line) ∧ Fails (readElse line') := by
  have taken := fed.skipSpace.expect (.keyword .else) (by simp) (by simp)
  unfold readElse
  generalize line.skipSpace.expect (.keyword .else) = result,
    line'.skipSpace.expect (.keyword .else) = result' at taken
  cases taken with
  | error => exact ⟨.error _, .error _⟩
  | @ok value value' same =>
    obtain ⟨⟨_, rest⟩, ⟨_, rest'⟩⟩ := value, value'
    obtain ⟨some, some'⟩ := same.2.skipSpace.ne_nil
    obtain ⟨t, left, more⟩ := List.exists_cons_of_ne_nil some
    obtain ⟨t', left', more'⟩ := List.exists_cons_of_ne_nil some'
    simp only [bind, Except.bind, more, more']
    exact ⟨.error _, .error _⟩

end IndentMarkup
