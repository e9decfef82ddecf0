import IndentMarkup.Proofs.Line.Alike
import IndentMarkup.Statement.Basic
import IndentMarkup.Template.Parse

/-! Lines that look alike say the same. Each reader of a statement takes the same from either
line and leaves what looks alike, or fails on both for related reasons. -/
namespace IndentMarkup

variable {E : ParseError → ParseError → Prop} [Std.Refl E] {source source' : Text}
  {line line' : Line}

namespace TagLine

omit [Std.Refl E] in
theorem readName_alike (alike : Line.Alike E source source' line line') :
    Line.ReadAlike E source source' (readName line) (readName line') := by
  cases alike with
  | nil => exact ⟨rfl, .nil⟩
  | cons kind text blame span later =>
    rw [readName, readName, ← kind]
    split
    · exact ⟨text, later⟩
    · exact ⟨rfl, .cons kind text blame span later⟩

theorem readSelectors_alike (head : TagHead) (alike : Line.Alike E source source' line line') :
    Agree E (Line.ReadAlike E source source') (readSelectors head line)
      (readSelectors head line') := by
  fun_induction readSelectors head line generalizing line' with
  | case1 head =>
    cases alike
    exact .ok ⟨rfl, .nil⟩
  | case2 head t dot =>
    obtain _ | ⟨kind, text, blame, span, ⟨⟩⟩ := alike
    simpa [readSelectors, ← kind, dot] using Agree.ok ⟨rfl, .nil⟩
  | case3 head t dot name left named ih =>
    obtain _ | ⟨kind, text, blame, span, _ | ⟨kind', text', _, _, later⟩⟩ := alike
    simpa [readSelectors, ← kind, dot, ← kind', named, ← text'] using ih later
  | case4 head t dot name left unnamed =>
    obtain _ | ⟨kind, text, blame, span, _ | ⟨kind', _, blame', _, _⟩⟩ := alike
    simp only [readSelectors, ← kind, dot, ← kind', unnamed]
    exact .error blame'
  | case5 head t rest dot hash taken =>
    obtain _ | ⟨kind, text, blame, span, _⟩ := alike
    rw [readSelectors.eq_def]
    simp only [← kind, if_neg dot, if_pos hash, if_pos taken]
    exact .error blame
  | case6 head t dot hash fresh =>
    obtain _ | ⟨kind, text, blame, span, ⟨⟩⟩ := alike
    simpa [readSelectors, ← kind, dot, hash, fresh] using Agree.error (Std.Refl.refl _)
  | case7 head t dot hash fresh name left named ih =>
    obtain _ | ⟨kind, text, blame, span, _ | ⟨kind', text', _, _, later⟩⟩ := alike
    simpa [readSelectors, ← kind, dot, hash, fresh, ← kind', named, ← text'] using ih later
  | case8 head t dot hash fresh name left unnamed =>
    obtain _ | ⟨kind, text, blame, span, _ | ⟨kind', _, blame', _, _⟩⟩ := alike
    simpa [readSelectors, ← kind, dot, hash, fresh, ← kind', unnamed] using Agree.error blame'
  | case9 head t rest dot hash =>
    obtain _ | ⟨kind, text, blame, span, later⟩ := alike
    rw [readSelectors.eq_def]
    simp only [← kind, if_neg dot, if_neg hash]
    exact .ok ⟨rfl, .cons kind text blame span later⟩

theorem readAttributes_alike (stage : AttributeStage) (head : TagHead)
    (alike : Line.Alike E source source' line line') :
    Agree E (Line.ReadAlike E source source') (readAttributes stage head line)
      (readAttributes stage head line') := by
  induction alike generalizing stage head with
  | nil => cases stage <;> exact .error (Std.Refl.refl _)
  | cons kind text blame span later ih =>
    cases stage with
    | between =>
      rw [readAttributes, readAttributes, ← kind, ← text]
      split
      · exact ih _ _
      · split
        · exact .ok ⟨rfl, later⟩
        · split
          · exact ih _ _
          · exact .error blame
    | named name =>
      rw [readAttributes, readAttributes, ← kind]
      split
      · exact ih _ _
      · split
        · exact ih _ _
        · exact .error blame
    | assigned name =>
      rw [readAttributes, readAttributes, ← kind, ← text]
      split
      · exact ih _ _
      · split
        · exact ih _ _
        · exact .error blame

theorem readParentheses_alike (head : TagHead)
    (alike : Line.Alike E source source' line line') :
    Agree E (Line.ReadAlike E source source') (readParentheses head line)
      (readParentheses head line') := by
  cases alike with
  | nil => exact .ok ⟨rfl, .nil⟩
  | cons kind text blame span later =>
    rw [readParentheses, readParentheses, ← kind]
    split
    · exact readAttributes_alike .between head later
    · exact .ok ⟨rfl, .cons kind text blame span later⟩

theorem readHead_alike (alike : Line.Alike E source source' line line') :
    Agree E (Line.ReadAlike E source source') (readHead line) (readHead line') := by
  have name := readName_alike alike
  unfold readHead
  generalize readName line = first, readName line' = second at name
  obtain ⟨name, rest⟩ := first
  obtain ⟨rfl, alike⟩ := name
  refine (readSelectors_alike _ alike).bind ?_
  rintro ⟨head, rest⟩ ⟨_, rest'⟩ ⟨rfl, alike⟩
  refine (readParentheses_alike head alike).bind ?_
  rintro ⟨head, rest⟩ ⟨_, rest'⟩ ⟨rfl, alike⟩
  exact readSelectors_alike head alike

/-- What a tag line says behind its first tag. Its text is all that is left of the line. -/
def readTail (source : Text) (head : TagHead) : Line → Except ParseError (TagLine × Line)
  | [] => .ok (.plain head none, [])
  | t :: rest =>
    match t.kind with
    | .symbol .inlineValue | .symbol .equals =>
      (Line.requiredText source (Line.skipSpace rest)).map fun value =>
        (.plain head (some (.expression value)), [])
    | .space =>
      match Line.trimmedText source rest with
      | [] => .ok (.plain head none, [])
      | value => .ok (.plain head (some (.text value)), [])
    | .symbol .block => .ok (.textBlock head, rest)
    | .symbol .colon =>
      if (Line.skipSpace rest).startsWithAny startKinds then
        (read source (Line.skipSpace rest)).map fun (inner, left) => (.around head inner, left)
      else .error (Line.skipSpace rest).unexpected
    | _ => .error (.ofToken t)

theorem read_eq_bind (source : Text) (line : Line) :
    read source line = readHead line >>= fun (head, rest) => readTail source head rest := by
  rw [read]
  split
  next failed => rw [failed]; rfl
  next taken => rw [taken]; rfl
  next head t rest taken =>
    rw [taken]
    change _ = readTail source head (t :: rest)
    rw [readTail, Line.readText_eq, Line.readRequired_eq]
    cases Line.requiredText source (Line.skipSpace rest) <;>
      rcases Line.trimmedText source rest with _ | ⟨c, value⟩ <;> rfl

/-- The line goes on behind the colon with a shorter one. -/
theorem length_behind_lt {line rest : Line} {head : TagHead} {t : Token}
    (taken : readHead line = .ok (head, t :: rest)) : (Line.skipSpace rest).length < line.length := by
  have shorter := length_readHead_le taken
  have skipped := Line.length_skipSpace_le rest
  simp only [List.length_cons] at shorter
  omega

theorem read_alike {line line' : Line} (alike : Line.Alike E source source' line line') :
    Agree E (Line.ReadAlike E source source') (read source line) (read source' line') := by
  have heads := readHead_alike alike
  rw [read_eq_bind, read_eq_bind]
  generalize taken : readHead line = result, readHead line' = result' at heads
  cases heads with
  | error same => exact .error same
  | @ok value value' same =>
    obtain ⟨⟨head, rest⟩, ⟨other, rest'⟩⟩ := value, value'
    obtain ⟨rfl, alike⟩ : head = other ∧ Line.Alike E source source' rest rest' :=
      ⟨same.read, same.left⟩
    change Agree E _ (readTail source head rest) (readTail source' head rest')
    cases alike with
    | nil => exact .ok ⟨rfl, .nil⟩
    | @cons t t' rest rest' kind text blame span later =>
      rw [readTail, readTail, ← kind]
      split
      · exact later.skipSpace.requiredText.map fun _ _ same => ⟨by rw [same], .nil⟩
      · exact later.skipSpace.requiredText.map fun _ _ same => ⟨by rw [same], .nil⟩
      · rw [later.trimmedText]
        split <;> exact .ok ⟨rfl, .nil⟩
      · exact .ok ⟨rfl, later⟩
      · rw [later.skipSpace.startsWithAny]
        split
        · have decreasing := length_behind_lt taken
          refine (read_alike later.skipSpace).map ?_
          rintro ⟨inner, left⟩ ⟨_, left'⟩ ⟨rfl, alike⟩
          exact ⟨rfl, alike⟩
        · exact .error later.skipSpace.unexpected
      · exact .error blame
termination_by line.length

end TagLine

namespace Statement

omit [Std.Refl E] in
theorem readComment_alike (buffered : Bool) (alike : Line.Alike E source source' line line') :
    Line.ReadAlike E source source' (readComment source buffered line)
      (readComment source' buffered line') := by
  rw [readComment_eq, readComment_eq, alike.trimmedText]
  exact ⟨rfl, .nil⟩

theorem readMarker_alike (kind : Marker) (alike : Line.Alike E source source' line line') :
    Agree E (Line.ReadAlike E source source') (readMarker source kind line)
      (readMarker source' kind line') := by
  rw [readMarker_eq, readMarker_eq]
  exact alike.skipSpace.requiredText.map fun _ _ same => ⟨by rw [same], .nil⟩

theorem readCondition_alike (alike : Line.Alike E source source' line line') :
    Agree E (Line.ReadAlike E source source') (readCondition source line)
      (readCondition source' line') := by
  rw [readCondition_eq, readCondition_eq]
  refine (alike.expect .space).bind fun _ _ taken => ?_
  exact taken.left.requiredText.bind fun _ _ same => .ok ⟨by rw [same], .nil⟩

omit [Std.Refl E] in
theorem readPiped_alike (alike : Line.Alike E source source' line line') :
    Line.ReadAlike E source source' (readPiped source line) (readPiped source' line') := by
  cases alike with
  | nil => exact ⟨rfl, .nil⟩
  | cons kind text blame span later =>
    rw [readPiped_cons, readPiped_cons, ← kind]
    refine ⟨?_, .nil⟩
    split
    · rw [later.trimmedText]
    · rw [(Line.Alike.cons kind text blame span later).trimmedText]

theorem read_alike (alike : Line.Alike E source source' line line') :
    Agree E (Line.ReadAlike E source source') (read source line) (read source' line') := by
  cases alike with
  | nil => exact .error (Std.Refl.refl _)
  | @cons t t' rest rest' kind text blame span later =>
    have tag : Agree E (Line.ReadAlike E source source')
        ((TagLine.read source (t :: rest)).map fun (line, left) => (Statement.tag line, left))
        ((TagLine.read source' (t' :: rest')).map fun (line, left) => (.tag line, left)) := by
      refine (TagLine.read_alike (.cons kind text blame span later)).map ?_
      rintro ⟨inner, left⟩ ⟨_, left'⟩ ⟨rfl, alike⟩
      exact ⟨rfl, alike⟩
    have loop : isForMarker t rest = isForMarker t' rest' := by
      rw [isForMarker, isForMarker, text, later.startsWith]
    rw [read, read, ← kind, ← loop]
    split
    · exact .ok (readComment_alike true later)
    · exact .ok (readComment_alike false later)
    · exact .ok (readPiped_alike later)
    · exact tag
    · exact tag
    · exact readMarker_alike .each later
    · exact readMarker_alike .mixin later
    · exact readMarker_alike .include later
    · exact readCondition_alike later
    · split
      · exact readMarker_alike .for later
      · exact tag
    · exact .error blame

/-- Two lines that look alike behind their leading blanks are the same statement. -/
theorem ofLine_alike (alike : Line.Alike E source source' line.skipSpace line'.skipSpace) :
    Agree E Eq (ofLine source line) (ofLine source' line') := by
  refine (read_alike alike).bind ?_
  rintro ⟨statement, left⟩ ⟨_, left'⟩ ⟨rfl, alike⟩
  cases alike with
  | nil => exact .ok rfl
  | cons _ _ blame => exact .error blame

end Statement

/-- And the same `else`. -/
theorem readElse_alike (alike : Line.Alike E source source' line.skipSpace line'.skipSpace) :
    Agree E Eq (readElse line) (readElse line') := by
  refine (alike.expect (.keyword .else)).bind fun taken taken' same => ?_
  have rest := same.left.skipSpace
  dsimp only
  generalize Line.skipSpace taken.2 = left, Line.skipSpace taken'.2 = left' at rest
  cases rest with
  | nil => exact .ok rfl
  | cons _ _ blame => exact .error blame

end IndentMarkup
