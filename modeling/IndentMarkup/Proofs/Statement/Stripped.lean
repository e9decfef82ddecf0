import IndentMarkup.Proofs.Line.Stripped
import IndentMarkup.Proofs.Statement.Alike

/-! Statements of lines without the blanks at their ends. What is read from a line is read from the
line without them. The other way round it may fail: a marker without an argument is a tag. -/
namespace IndentMarkup

variable {source source' : Text} {line line' : Line}

/-- The same was read, and what is left of the second line is left of the first one but for the blanks
at its end. -/
structure Line.ReadStripped {α : Type} (source source' : Text) (first second : α × Line) : Prop where
  read : first.1 = second.1
  left : Line.Stripped source source' first.2 second.2

namespace Line.Stripped

theorem requiredText (stripped : Stripped source source' line line') :
    line.requiredText source = line'.requiredText source' := by
  rw [Line.requiredText, Line.requiredText, stripped.trimmedText]

theorem eq_nil (stripped : Stripped source source' [] line') : line' = [] := by
  cases stripped
  rfl

/-- A token stays if it is none of those that change at the end of a line. -/
theorem exists_cons {t : Token} {rest : Line} (stripped : Stripped source source' (t :: rest) line')
    (apart : t.kind ≠ .space ∧ t.kind ≠ .symbol .inlineValue ∧ t.kind ≠ .symbol .dot) :
    ∃ t' rest', line' = t' :: rest' ∧ t.kind = t'.kind ∧ t.text = t'.text ∧
      Stripped source source' rest rest' := by
  cases stripped with
  | gone space => exact absurd space apart.1
  | value value => exact absurd value apart.2.1
  | block dot => exact absurd dot apart.2.2
  | cons kind text _ later => exact ⟨_, _, rfl, kind, text, later⟩

/-- A token that is asked for is there in both lines, unless it is the blanks at the end. -/
theorem expect (stripped : Stripped source source' line line') (kind : Token.Kind)
    (apart : kind ≠ .symbol .inlineValue ∧ kind ≠ .symbol .dot) :
    (kind = .space ∧ ∃ t, line.expect kind = .ok (t, [])) ∨
      Follows (fun taken taken' => Stripped source source' taken.2 taken'.2) (line.expect kind)
        (line'.expect kind) := by
  have other {t : Token} {rest : Line} (wrong : t.kind ≠ kind) :
      Line.expect kind (t :: rest) = .error (.ofToken t) := by
    simp [Line.expect, Line.startsWith, wrong, Line.unexpected]
  cases stripped with
  | nil => exact .inr (.error _ _)
  | @gone t space =>
    by_cases blank : kind = .space
    · exact .inl ⟨blank, t, by simp [Line.expect, Line.startsWith, Line.next, blank, space]⟩
    · rw [other (by rw [space]; exact Ne.symm blank)]
      exact .inr (.error _ _)
  | value value =>
    rw [other (by rw [value]; exact Ne.symm apart.1)]
    exact .inr (.error _ _)
  | block dot =>
    rw [other (by rw [dot]; exact Ne.symm apart.2)]
    exact .inr (.error _ _)
  | @cons t t' rest rest' own text same later =>
    refine .inr ?_
    rw [Line.expect, Line.expect, Line.startsWith, Line.startsWith, List.head?_cons, List.head?_cons,
      Option.any_some, Option.any_some, ← own]
    split
    · rw [Line.next, Line.next, ← own]
      split
      · exact .error _ _
      · exact .ok later
    · exact .error _ _

end Line.Stripped

theorem Token.Kind.isName_apart {kind : Token.Kind} (named : kind.isName = true) :
    kind ≠ .space ∧ kind ≠ .symbol .inlineValue ∧ kind ≠ .symbol .dot := by
  refine ⟨?_, ?_, ?_⟩ <;> (rintro rfl; contradiction)

namespace TagLine

theorem readName_stripped (stripped : Line.Stripped source source' line line') :
    Line.ReadStripped source source' (readName line) (readName line') := by
  cases stripped with
  | nil => exact ⟨rfl, .nil⟩
  | gone space same => simpa [readName, space] using ⟨rfl, .gone space same⟩
  | value value equals blank same =>
    simpa [readName, value, equals] using ⟨rfl, .value value equals blank same⟩
  | block dot block space blank same =>
    simpa [readName, dot, block] using ⟨rfl, .block dot block space blank same⟩
  | cons kind text same later =>
    rw [readName, readName, ← kind]
    split
    · exact ⟨text, later⟩
    · exact ⟨rfl, .cons kind text same later⟩

theorem readSelectors_stripped (head : TagHead)
    (stripped : Line.Stripped source source' line line') :
    Follows (Line.ReadStripped source source') (readSelectors head line)
      (readSelectors head line') := by
  fun_induction readSelectors head line generalizing line' with
  | case1 head =>
    rw [stripped.eq_nil]
    exact .ok ⟨rfl, .nil⟩
  | case2 head t dot =>
    cases stripped with
    | gone space => simp [space] at dot
    | value value => simp [value] at dot
    | cons kind _ _ later =>
      rw [later.eq_nil]
      simpa [readSelectors, ← kind, dot] using Follows.ok ⟨rfl, .nil⟩
  | case3 head t dot name left named ih =>
    cases stripped with
    | value value => simp [value] at dot
    | block _ _ space => exact absurd space (Token.Kind.isName_apart named).1
    | cons kind _ _ later =>
      obtain ⟨name', left', rfl, kind', text', later⟩ := later.exists_cons (Token.Kind.isName_apart named)
      simpa [readSelectors, ← kind, dot, ← kind', named, ← text'] using ih later
  | case7 head t dot hash fresh name left named ih =>
    obtain ⟨t', rest', rfl, kind, -, later⟩ := stripped.exists_cons (by simp [hash])
    obtain ⟨name', left', rfl, kind', text', later⟩ := later.exists_cons (Token.Kind.isName_apart named)
    simpa [readSelectors, ← kind, dot, hash, fresh, ← kind', named, ← text'] using ih later
  | case9 head t rest dot hash =>
    cases stripped with
    | gone space same => exact .ok ⟨rfl, .gone space same⟩
    | value value equals blank same =>
      rw [readSelectors.eq_def]
      simpa [equals] using Follows.ok ⟨rfl, .value value equals blank same⟩
    | block own => exact absurd own dot
    | cons kind text same later =>
      rw [readSelectors.eq_def]
      simp only [← kind, if_neg dot, if_neg hash]
      exact .ok ⟨rfl, .cons kind text same later⟩
  | _ => exact .error _ _

/-- Attributes do not end in blanks, they end in a parenthesis. -/
theorem readAttributes_blank (stage : AttributeStage) (head : TagHead)
    (blank : line.isBlank = true) : Fails (readAttributes stage head line) := by
  induction line with
  | nil => cases stage <;> exact .error _
  | cons t rest ih =>
    rw [Line.isBlank, List.all_cons, Bool.and_eq_true] at blank
    have space : t.kind = .space := by simpa using blank.1
    cases stage <;> simpa [readAttributes, space] using ih blank.2

theorem readAttributes_stripped (stage : AttributeStage) (head : TagHead)
    (stripped : Line.Stripped source source' line line') :
    Follows (Line.ReadStripped source source') (readAttributes stage head line)
      (readAttributes stage head line') := by
  induction stripped generalizing stage head with
  | nil => exact .of_fails (readAttributes_blank stage head rfl) _
  | gone space => exact .of_fails (readAttributes_blank stage head (by simp [Line.isBlank, space])) _
  | value value equals blank =>
    cases stage with
    | named name => simpa [readAttributes, value] using .of_fails (readAttributes_blank _ head blank) _
    | _ => simpa [readAttributes, value, Token.Kind.isName] using Follows.error _ _
  | block dot =>
    cases stage <;> simpa [readAttributes, dot, Token.Kind.isName] using Follows.error _ _
  | cons kind text _ later ih =>
    cases stage with
    | between =>
      rw [readAttributes, readAttributes, ← kind, ← text]
      split
      · exact ih _ _
      · split
        · exact .ok ⟨rfl, later⟩
        · split
          · exact ih _ _
          · exact .error _ _
    | named name =>
      rw [readAttributes, readAttributes, ← kind]
      split
      · exact ih _ _
      · split
        · exact ih _ _
        · exact .error _ _
    | assigned name =>
      rw [readAttributes, readAttributes, ← kind, ← text]
      split
      · exact ih _ _
      · split
        · exact ih _ _
        · exact .error _ _

theorem readParentheses_stripped (head : TagHead)
    (stripped : Line.Stripped source source' line line') :
    Follows (Line.ReadStripped source source') (readParentheses head line)
      (readParentheses head line') := by
  cases stripped with
  | nil => exact .ok ⟨rfl, .nil⟩
  | gone space same => simpa [readParentheses, space] using Follows.ok ⟨rfl, .gone space same⟩
  | value value equals blank same =>
    simpa [readParentheses, value, equals] using
      Follows.ok ⟨rfl, .value value equals blank same⟩
  | block dot block space blank same =>
    simpa [readParentheses, dot, block] using
      Follows.ok ⟨rfl, .block dot block space blank same⟩
  | cons kind text same later =>
    rw [readParentheses, readParentheses, ← kind]
    split
    · exact readAttributes_stripped .between head later
    · exact .ok ⟨rfl, .cons kind text same later⟩

theorem readHead_stripped (stripped : Line.Stripped source source' line line') :
    Follows (Line.ReadStripped source source') (readHead line) (readHead line') := by
  have name := readName_stripped stripped
  unfold readHead
  generalize readName line = first, readName line' = second at name
  obtain ⟨name, rest⟩ := first
  obtain ⟨rfl, stripped⟩ := name
  refine (readSelectors_stripped _ stripped).bind ?_
  rintro ⟨head, rest⟩ ⟨_, rest'⟩ ⟨rfl, stripped⟩
  refine (readParentheses_stripped head stripped).bind ?_
  rintro ⟨head, rest⟩ ⟨_, rest'⟩ ⟨rfl, stripped⟩
  exact readSelectors_stripped head stripped

/-- A dot in front of a blank names no class. -/
theorem read_dot_space {t u : Token} (source : Text) (dot : t.kind = .symbol .dot)
    (space : u.kind = .space) (rest : Line) : Fails (read source (t :: u :: rest)) := by
  have name : readName (t :: u :: rest) = (TagHead.defaultName, t :: u :: rest) := by
    simp [readName, dot]
  have selectors (head : TagHead) : readSelectors head (t :: u :: rest) = .error (.ofToken u) := by
    simp [readSelectors, dot, space, Token.Kind.isName]
  rw [read_eq_bind, readHead, name]
  dsimp only
  rw [selectors]
  exact .error _

/-- What starts a tag still does so, unless no tag was read from it. -/
theorem starts_stripped (stripped : Line.Stripped source source' line line')
    (starts : line.startsWithAny startKinds = true) :
    Fails (read source line) ∨ line'.startsWithAny startKinds = true := by
  cases stripped with
  | nil => contradiction
  | gone space => simp [Line.startsWithAny, startKinds, space] at starts
  | value value => simp [Line.startsWithAny, startKinds, value] at starts
  | block dot _ space => exact .inl (read_dot_space source dot space _)
  | cons kind => exact .inr (by simpa [Line.startsWithAny, ← kind] using starts)

theorem read_stripped {line line' : Line} (stripped : Line.Stripped source source' line line') :
    Follows (Line.ReadStripped source source') (read source line) (read source' line') := by
  have heads := readHead_stripped stripped
  rw [read_eq_bind, read_eq_bind]
  generalize taken : readHead line = result, readHead line' = result' at heads
  cases heads with
  | error => exact .error _ _
  | @ok value value' same =>
    obtain ⟨⟨head, rest⟩, ⟨other, rest'⟩⟩ := value, value'
    obtain ⟨rfl, stripped⟩ : head = other ∧ Line.Stripped source source' rest rest' :=
      ⟨same.read, same.left⟩
    change Follows _ (readTail source head rest) (readTail source' head rest')
    cases stripped with
    | nil => exact .ok ⟨rfl, .nil⟩
    | gone space =>
      simp only [readTail, space]
      exact .ok ⟨rfl, .nil⟩
    | value value equals blank =>
      rw [readTail, value]
      dsimp only
      rw [Line.skipSpace_eq_nil blank]
      exact .error _ _
    | block dot =>
      rw [readTail, dot]
      exact .error _ _
    | @cons t t' rest rest' kind text same later =>
      rw [readTail, readTail, ← kind]
      split
      · rw [later.skipSpace.requiredText]
        exact (Follows.refl _).map fun _ _ same => ⟨by rw [same], .nil⟩
      · rw [later.skipSpace.requiredText]
        exact (Follows.refl _).map fun _ _ same => ⟨by rw [same], .nil⟩
      · rw [later.trimmedText]
        split <;> exact .ok ⟨rfl, .nil⟩
      · exact .ok ⟨rfl, later⟩
      · split
        next starts =>
          have decreasing := length_behind_lt taken
          rcases starts_stripped later.skipSpace starts with fails | starts'
          · exact .of_fails (fails.map _) _
          · rw [if_pos starts']
            refine (read_stripped later.skipSpace).map ?_
            rintro ⟨inner, left⟩ ⟨_, left'⟩ ⟨rfl, stripped⟩
            exact ⟨rfl, stripped⟩
        · exact .error _ _
      · exact .error _ _
termination_by line.length

end TagLine

namespace Statement

theorem readComment_stripped (buffered : Bool)
    (stripped : Line.Stripped source source' line line') :
    Line.ReadStripped source source' (readComment source buffered line)
      (readComment source' buffered line') := by
  rw [readComment_eq, readComment_eq, stripped.trimmedText]
  exact ⟨rfl, .nil⟩

theorem readMarker_stripped (kind : Marker) (stripped : Line.Stripped source source' line line') :
    Follows (Line.ReadStripped source source') (readMarker source kind line)
      (readMarker source' kind line') := by
  rw [readMarker_eq, readMarker_eq, stripped.skipSpace.requiredText]
  exact (Follows.refl _).map fun _ _ same => ⟨by rw [same], .nil⟩

theorem readMarker_blank (source : Text) (kind : Marker) (blank : line.isBlank = true) :
    Fails (readMarker source kind line) := by
  rw [readMarker_eq, Line.skipSpace_eq_nil blank]
  exact .error _

theorem readCondition_stripped (stripped : Line.Stripped source source' line line') :
    Follows (Line.ReadStripped source source') (readCondition source line)
      (readCondition source' line') := by
  rcases stripped.expect .space (by simp) with ⟨-, t, taken⟩ | follows
  · rw [readCondition, taken]
    exact .error _ _
  · rw [readCondition_eq, readCondition_eq]
    refine follows.bind fun _ _ later => ?_
    dsimp only
    rw [later.requiredText]
    exact (Follows.refl _).bind fun _ _ same => .ok ⟨by rw [same], .nil⟩

theorem readPiped_stripped (stripped : Line.Stripped source source' line line') :
    Line.ReadStripped source source' (readPiped source line) (readPiped source' line') := by
  cases stripped with
  | nil => exact ⟨rfl, .nil⟩
  | @gone t space =>
    rw [readPiped_cons, if_pos space]
    exact ⟨rfl, .nil⟩
  | value value equals blank same => simpa [value, equals, same] using ⟨rfl, .nil⟩
  | block dot block space blank same => simpa [dot, block, same] using ⟨rfl, .nil⟩
  | cons kind text same later =>
    rw [readPiped_cons, readPiped_cons, ← kind]
    refine ⟨?_, .nil⟩
    split
    · rw [later.trimmedText]
    · rw [same]

theorem isForMarker_stripped {t t' : Token} (text : t.text = t'.text)
    (stripped : Line.Stripped source source' line line') :
    line.isBlank = true ∧ isForMarker t line = true ∨ isForMarker t line = isForMarker t' line' := by
  simp only [isForMarker, text]
  cases stripped with
  | nil => exact .inr rfl
  | gone space =>
    by_cases loop : t'.text = ['f', 'o', 'r']
    · exact .inl ⟨by simp [Line.isBlank, space], by simp [loop, Line.startsWith, space]⟩
    · exact .inr (by simp [loop])
  | value value equals => exact .inr (by simp [Line.startsWith, value, equals])
  | block dot block => exact .inr (by simp [Line.startsWith, dot, block])
  | cons kind => exact .inr (by simp [Line.startsWith, kind])

theorem read_stripped (stripped : Line.Stripped source source' line line') :
    Follows (Line.ReadStripped source source') (read source line) (read source' line') := by
  cases stripped with
  | nil => exact .error _ _
  | gone space => simpa [read, space] using Follows.error _ _
  | value value => simpa [read, value] using Follows.error _ _
  | @block t t' u rest dot block space =>
    simp only [read, dot]
    exact .of_fails ((TagLine.read_dot_space source dot space rest).map _) _
  | @cons t t' rest rest' kind text same later =>
    have tag : Follows (Line.ReadStripped source source')
        ((TagLine.read source (t :: rest)).map fun result => (Statement.tag result.1, result.2))
        ((TagLine.read source' (t' :: rest')).map fun result => (.tag result.1, result.2)) := by
      refine (TagLine.read_stripped (.cons kind text same later)).map ?_
      rintro ⟨inner, left⟩ ⟨_, left'⟩ ⟨rfl, stripped⟩
      exact ⟨rfl, stripped⟩
    have loop := isForMarker_stripped text later
    rw [read, read, ← kind]
    split
    · exact .ok (readComment_stripped true later)
    · exact .ok (readComment_stripped false later)
    · exact .ok (readPiped_stripped later)
    · exact tag
    · exact tag
    · exact readMarker_stripped .each later
    · exact readMarker_stripped .mixin later
    · exact readMarker_stripped .include later
    · exact readCondition_stripped later
    · rcases loop with ⟨blank, loop⟩ | loop
      · rw [if_pos loop]
        exact .of_fails (readMarker_blank source .for blank) _
      · rw [← loop]
        split
        · exact readMarker_stripped .for later
        · exact tag
    · exact .error _ _

/-- A statement of a line is the statement of the line without the blanks at its end. -/
theorem ofLine_stripped (stripped : Line.Stripped source source' line line') :
    Follows Eq (ofLine source line) (ofLine source' line') := by
  refine (read_stripped stripped.skipSpace).bind ?_
  rintro ⟨statement, left⟩ ⟨_, left'⟩ ⟨rfl, stripped⟩
  cases left with
  | nil =>
    obtain rfl : left' = [] := stripped.eq_nil
    exact .ok rfl
  | cons => exact .error _ _

end Statement

theorem readElse_stripped (stripped : Line.Stripped source source' line line') :
    Follows Eq (readElse line) (readElse line') := by
  obtain ⟨other, -⟩ | follows := stripped.skipSpace.expect (.keyword .else) (by simp)
  · contradiction
  · refine follows.bind fun taken taken' later => ?_
    have left := later.skipSpace
    dsimp only
    generalize Line.skipSpace taken.2 = rest, Line.skipSpace taken'.2 = rest' at left
    cases rest with
    | nil =>
      rw [left.eq_nil]
      exact .ok rfl
    | cons => exact .error _ _

end IndentMarkup
