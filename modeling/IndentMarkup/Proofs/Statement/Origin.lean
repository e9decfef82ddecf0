import IndentMarkup.Proofs.Statement.Alike

/-! Where a statement comes from. Every reader takes names from tokens of its line and text from
the source of its end, and what it complains of is a token of the line or that the line ends. -/
namespace IndentMarkup

/-- The error is about one of the tokens, or that there are no more of them. -/
inductive ParseError.Blames (tokens : List Token) : ParseError → Prop where
  | token {t : Token} (member : t ∈ tokens) : Blames tokens (.ofToken t)
  | ended : Blames tokens .unexpectedEnd

theorem ParseError.Blames.mono {tokens more : List Token} (inside : tokens ⊆ more)
    {error : ParseError} (blames : Blames tokens error) : Blames more error := by
  cases blames with
  | token member => exact .token (inside member)
  | ended => exact .ended

/-- What is read comes from the line, and an end of the line is left; or it is blamed. -/
def Line.Reads {α : Type} (whole : Line) (P : α → Prop)
    (run : Except ParseError (α × Line)) : Prop :=
  Meets (ParseError.Blames whole) (fun result => P result.1 ∧ result.2 <:+ whole) run

/-- The text is a name in the line. -/
def Line.HasName (line : Line) (name : Text) : Prop :=
  ∃ t ∈ line, t.kind.isName = true ∧ t.text = name

/-- The head is made of tokens. -/
structure TagHead.MadeOf (line : Line) (head : TagHead) : Prop where
  name : head.name = defaultName ∨ ∃ t ∈ line, t.kind = .word ∧ t.text = head.name
  id : ∀ id ∈ head.id, line.HasName id
  classes : ∀ value ∈ head.classes, ∃ t ∈ line, t.text = value
  attributes : ∀ a ∈ head.attributes, a.name.map Char.toLower ≠ ['c', 'l', 'a', 's', 's'] ∧
    line.HasName a.name ∧ ∃ t ∈ line, t.text = a.value

/-- The end of a line that has no blank in front, or that stands behind one. -/
structure Line.BehindBlanks (line rest : Line) : Prop where
  within : rest <:+ line
  blanks : rest.startsWith .space = false ∨ ∃ t, t.kind = .space ∧ t :: rest <:+ line

inductive Content.ReadFrom (source : Text) (line : Line) : Content → Prop where
  | text {rest : Line} (within : rest <:+ line) (solid : rest.trimmedText source ≠ []) :
      ReadFrom source line (.text (rest.trimmedText source))
  | expression {rest : Line} (behind : line.BehindBlanks rest)
      (solid : rest.trimmedText source ≠ []) :
      ReadFrom source line (.expression (rest.trimmedText source))

inductive TagLine.ReadFrom (source : Text) (line : Line) : TagLine → Prop where
  | plain {head : TagHead} {content : Option Content} (made : head.MadeOf line)
      (held : ∀ c ∈ content, c.ReadFrom source line) : ReadFrom source line (.plain head content)
  | textBlock {head : TagHead} (made : head.MadeOf line) : ReadFrom source line (.textBlock head)
  | around {head : TagHead} {inner : TagLine} (made : head.MadeOf line)
      (inside : ReadFrom source line inner) : ReadFrom source line (.around head inner)

inductive Statement.ReadFrom (source : Text) (line : Line) : Statement → Prop where
  | tag {tagLine : TagLine} (read : tagLine.ReadFrom source line) :
      ReadFrom source line (.tag tagLine)
  | piped {rest : Line} (behind : line.BehindBlanks rest) :
      ReadFrom source line (.piped (rest.trimmedText source))
  | comment {rest : Line} (buffered : Bool) (within : rest <:+ line) :
      ReadFrom source line (.comment (rest.trimmedText source) buffered)
  | marker {rest : Line} (kind : Marker) (behind : line.BehindBlanks rest)
      (solid : rest.trimmedText source ≠ []) :
      ReadFrom source line (.marker kind (rest.trimmedText source))
  | condition {rest : Line} (behind : line.BehindBlanks rest)
      (solid : rest.trimmedText source ≠ []) :
      ReadFrom source line (.condition (rest.trimmedText source))

variable {source : Text} {whole line : Line}

namespace Line

theorem suffix_of_cons {t : Token} (within : t :: line <:+ whole) : line <:+ whole :=
  (List.suffix_cons t line).trans within

theorem mem_of_cons {t : Token} (within : t :: line <:+ whole) : t ∈ whole :=
  within.subset (List.mem_cons_self ..)

theorem blames_unexpected (within : line <:+ whole) :
    ParseError.Blames whole line.unexpected := by
  cases line with
  | nil => exact .ended
  | cons t rest => exact .token (mem_of_cons within)

theorem skipSpace_suffix (line : Line) : line.skipSpace <:+ line :=
  List.dropWhile_suffix _

theorem skipSpace_behindBlanks (within : line <:+ whole) : whole.BehindBlanks line.skipSpace :=
  ⟨line.skipSpace_suffix.trans within, .inl line.skipSpace_solid⟩

theorem expect_reads (within : line <:+ whole) (kind : Token.Kind) :
    Meets (ParseError.Blames whole)
      (fun taken => taken.1.kind = kind ∧ taken.1 :: taken.2 <:+ whole) (line.expect kind) := by
  rw [expect]
  cases line with
  | nil => exact .error .ended
  | cons t rest =>
    by_cases same : t.kind = kind
    · rw [if_pos (by simp [startsWith, same]), next]
      split
      next mark =>
        have blamed : ParseError.ofToken t = .invalidToken := if_pos mark
        exact .error (blamed ▸ .token (mem_of_cons within))
      next => exact .ok ⟨same, within⟩
    · rw [if_neg (by simp [startsWith, same])]
      exact .error (.token (mem_of_cons within))

theorem requiredText_meets (source : Text) (whole line : Line) :
    Meets (ParseError.Blames whole) (fun text => text = line.trimmedText source ∧ text ≠ [])
      (line.requiredText source) := by
  rw [requiredText]
  split
  · exact .error .ended
  next solid => exact .ok ⟨rfl, solid⟩

end Line

namespace TagHead.MadeOf

variable {head : TagHead} {name value : Text}

theorem addClass (made : head.MadeOf whole) (named : whole.HasName name) :
    (head.addClass name).MadeOf whole := by
  refine ⟨made.name, made.id, fun text member => ?_, made.attributes⟩
  rcases List.mem_append.mp member with old | new
  · exact made.classes text old
  · obtain rfl := List.mem_singleton.mp new
    obtain ⟨t, inside, -, same⟩ := named
    exact ⟨t, inside, same⟩

theorem setId (made : head.MadeOf whole) (named : whole.HasName name) :
    TagHead.MadeOf whole { head with id := some name } := by
  refine ⟨made.name, ?_, made.classes, made.attributes⟩
  rintro _ ⟨rfl⟩
  exact named

theorem addAttribute (made : head.MadeOf whole) (named : whole.HasName name)
    (valued : ∃ t ∈ whole, t.text = value) : (head.addAttribute name value).MadeOf whole := by
  unfold TagHead.addAttribute
  split
  · refine ⟨made.name, made.id, fun text member => ?_, made.attributes⟩
    rcases List.mem_append.mp member with old | new
    · exact made.classes text old
    · obtain rfl := List.mem_singleton.mp new
      exact valued
  next other =>
    refine ⟨made.name, made.id, made.classes, fun a member => ?_⟩
    rcases List.mem_append.mp member with old | new
    · exact made.attributes a old
    · obtain rfl := List.mem_singleton.mp new
      exact ⟨other, named, valued⟩

end TagHead.MadeOf

namespace TagLine

theorem readName_madeOf (line : Line) :
    TagHead.MadeOf line { name := (readName line).1 } ∧ (readName line).2 <:+ line := by
  unfold readName
  split
  · exact ⟨⟨.inl rfl, nofun, nofun, nofun⟩, List.suffix_rfl⟩
  next t rest =>
    split
    next word =>
      exact ⟨⟨.inr ⟨t, List.mem_cons_self .., word, rfl⟩, nofun, nofun, nofun⟩,
        List.suffix_cons t rest⟩
    next => exact ⟨⟨.inl rfl, nofun, nofun, nofun⟩, List.suffix_rfl⟩

theorem readSelectors_reads {head : TagHead} (within : line <:+ whole)
    (made : head.MadeOf whole) : whole.Reads (TagHead.MadeOf whole) (readSelectors head line) := by
  fun_induction readSelectors head line with
  | case1 => exact .ok ⟨made, within⟩
  | case2 => exact .ok ⟨made, Line.suffix_of_cons within⟩
  | case3 _ t dot name left named ih =>
    have more := Line.suffix_of_cons within
    exact ih (Line.suffix_of_cons more) (made.addClass ⟨name, Line.mem_of_cons more, named, rfl⟩)
  | case4 => exact .error (.token (Line.mem_of_cons (Line.suffix_of_cons within)))
  | case5 => exact .error (.token (Line.mem_of_cons within))
  | case6 => exact .error .ended
  | case7 _ t _ hash free name left named ih =>
    have more := Line.suffix_of_cons within
    exact ih (Line.suffix_of_cons more) (made.setId ⟨name, Line.mem_of_cons more, named, rfl⟩)
  | case8 => exact .error (.token (Line.mem_of_cons (Line.suffix_of_cons within)))
  | case9 => exact .ok ⟨made, within⟩

/-- An attribute that is being read has its name from a token. -/
def AttributeStage.NamedBy (line : Line) : AttributeStage → Prop
  | .between => True
  | .named name => line.HasName name
  | .assigned name => line.HasName name

theorem readAttributes_reads {stage : AttributeStage} {head : TagHead} (within : line <:+ whole)
    (named : stage.NamedBy whole) (made : head.MadeOf whole) :
    whole.Reads (TagHead.MadeOf whole) (readAttributes stage head line) := by
  fun_induction readAttributes stage head line with
  | case1 => exact .error .ended
  | case2 _ _ _ _ ih => exact ih (Line.suffix_of_cons within) trivial made
  | case3 => exact .ok ⟨made, Line.suffix_of_cons within⟩
  | case4 _ t _ _ _ name ih =>
    exact ih (Line.suffix_of_cons within) ⟨t, Line.mem_of_cons within, name, rfl⟩ made
  | case5 => exact .error (.token (Line.mem_of_cons within))
  | case6 _ _ _ _ _ ih => exact ih (Line.suffix_of_cons within) named made
  | case7 _ _ _ _ _ _ ih => exact ih (Line.suffix_of_cons within) named made
  | case8 => exact .error (.token (Line.mem_of_cons within))
  | case9 _ _ _ _ _ ih => exact ih (Line.suffix_of_cons within) named made
  | case10 _ _ t _ _ _ ih =>
    exact ih (Line.suffix_of_cons within) trivial
      (made.addAttribute named ⟨t, Line.mem_of_cons within, rfl⟩)
  | case11 => exact .error (.token (Line.mem_of_cons within))

theorem readParentheses_reads {head : TagHead} (within : line <:+ whole)
    (made : head.MadeOf whole) :
    whole.Reads (TagHead.MadeOf whole) (readParentheses head line) := by
  unfold readParentheses
  split
  · exact .ok ⟨made, within⟩
  · split
    · exact readAttributes_reads (Line.suffix_of_cons within) trivial made
    · exact .ok ⟨made, within⟩

theorem readHead_reads (within : line <:+ whole) :
    whole.Reads (TagHead.MadeOf whole) (readHead line) := by
  obtain ⟨named, left⟩ := readName_madeOf line
  have start : TagHead.MadeOf whole { name := (readName line).1 } := by
    refine ⟨named.name.imp id ?_, nofun, nofun, nofun⟩
    rintro ⟨t, member, word⟩
    exact ⟨t, within.subset member, word⟩
  refine (readSelectors_reads (left.trans within) start).bind fun selected first => ?_
  refine (readParentheses_reads first.2 first.1).bind fun listed second => ?_
  exact readSelectors_reads second.2 second.1

/-- A chain of tags goes on with a shorter line. -/
theorem readTail_reads {head : TagHead} (made : head.MadeOf whole) (within : line <:+ whole)
    (inner : ∀ left : Line, left.length < line.length → left <:+ whole →
      whole.Reads (ReadFrom source whole) (read source left)) :
    whole.Reads (ReadFrom source whole) (readTail source head line) := by
  have nothing : ([] : Line) <:+ whole := List.nil_suffix
  cases line with
  | nil => exact .ok ⟨.plain made nofun, nothing⟩
  | cons t rest =>
    have later := Line.suffix_of_cons within
    have skipped := Line.skipSpace_behindBlanks later
    have expression : whole.Reads (ReadFrom source whole)
        ((Line.requiredText source (Line.skipSpace rest)).map fun value =>
          (TagLine.plain head (some (.expression value)), [])) := by
      refine (Line.requiredText_meets source whole _).map ?_
      rintro _ ⟨rfl, solid⟩
      refine ⟨.plain made ?_, nothing⟩
      rintro _ ⟨rfl⟩
      exact .expression skipped solid
    rw [readTail]
    split
    · exact expression
    · exact expression
    · split
      · exact .ok ⟨.plain made nofun, nothing⟩
      next solid =>
        refine .ok ⟨.plain made ?_, nothing⟩
        rintro _ ⟨rfl⟩
        exact .text later solid
    · exact .ok ⟨.textBlock made, later⟩
    · split
      · have shorter := Nat.lt_succ_of_le (Line.length_skipSpace_le rest)
        refine (inner _ shorter skipped.within).map fun _ own => ?_
        exact ⟨.around made own.1, own.2⟩
      · exact .error (Line.blames_unexpected skipped.within)
    · exact .error (.token (Line.mem_of_cons within))

theorem read_reads (source : Text) {line : Line} (within : line <:+ whole) :
    whole.Reads (ReadFrom source whole) (read source line) := by
  have heads := readHead_reads within
  rw [read_eq_bind]
  generalize taken : readHead line = result at heads
  cases heads with
  | error blames => exact .error blames
  | ok holds =>
    have shorter := length_readHead_le taken
    exact readTail_reads holds.1 holds.2 fun left less within => read_reads source within
termination_by line.length
decreasing_by omega

end TagLine

namespace Statement

theorem readPiped_from (source : Text) (within : line <:+ whole) :
    (readPiped source line).1.ReadFrom source whole := by
  cases line with
  | nil =>
    have nothing : whole.BehindBlanks [] := ⟨List.nil_suffix, .inl rfl⟩
    exact .piped nothing
  | cons t later =>
    rw [readPiped_cons]
    by_cases blank : t.kind = .space
    · rw [if_pos blank]
      exact .piped ⟨Line.suffix_of_cons within, .inr ⟨t, blank, within⟩⟩
    · rw [if_neg blank]
      exact .piped ⟨within, .inl (by simpa [Line.startsWith] using blank)⟩

theorem readMarker_reads (source : Text) (kind : Marker) (within : line <:+ whole) :
    whole.Reads (ReadFrom source whole) (readMarker source kind line) := by
  rw [readMarker_eq]
  refine (Line.requiredText_meets source whole _).map ?_
  rintro _ ⟨rfl, solid⟩
  exact ⟨.marker kind (Line.skipSpace_behindBlanks within) solid, List.nil_suffix⟩

theorem readCondition_reads (source : Text) (within : line <:+ whole) :
    whole.Reads (ReadFrom source whole) (readCondition source line) := by
  rw [readCondition_eq]
  refine (Line.expect_reads within .space).bind ?_
  rintro ⟨t, rest⟩ ⟨space, left⟩
  refine (Line.requiredText_meets source whole rest).bind ?_
  rintro _ ⟨rfl, solid⟩
  exact .ok ⟨.condition ⟨Line.suffix_of_cons left, .inr ⟨t, space, left⟩⟩ solid, List.nil_suffix⟩

theorem read_reads (source : Text) (within : line <:+ whole) :
    whole.Reads (ReadFrom source whole) (read source line) := by
  cases line with
  | nil => exact .error .ended
  | cons t rest =>
    have later := Line.suffix_of_cons within
    have tag : whole.Reads (ReadFrom source whole)
        ((TagLine.read source (t :: rest)).map fun taken => (Statement.tag taken.1, taken.2)) :=
      (TagLine.read_reads source within).map fun _ taken => ⟨.tag taken.1, taken.2⟩
    rw [read]
    split
    · rw [readComment_eq]
      exact .ok ⟨.comment true later, List.nil_suffix⟩
    · rw [readComment_eq]
      exact .ok ⟨.comment false later, List.nil_suffix⟩
    · refine .ok ⟨readPiped_from source later, ?_⟩
      rw [readPiped_left]
      exact List.nil_suffix
    · exact tag
    · exact tag
    · exact readMarker_reads source .each later
    · exact readMarker_reads source .mixin later
    · exact readMarker_reads source .include later
    · exact readCondition_reads source later
    · split
      · exact readMarker_reads source .for later
      · exact tag
    · exact .error (.token (Line.mem_of_cons within))

/-- The statement of a line comes from that line, and so does the reason why it has none. -/
theorem ofLine_from (source : Text) (line : Line) :
    Meets (ParseError.Blames line) (ReadFrom source line) (ofLine source line) := by
  refine (read_reads source line.skipSpace_suffix).bind ?_
  rintro ⟨statement, left⟩ ⟨origin, within⟩
  cases left with
  | nil => exact .ok origin
  | cons t left => exact .error (.token (Line.mem_of_cons within))

end Statement

theorem readElse_blames (line : Line) :
    Meets (ParseError.Blames line) (fun _ => True) (readElse line) := by
  refine (Line.expect_reads line.skipSpace_suffix (.keyword .else)).bind ?_
  rintro ⟨t, rest⟩ ⟨-, left⟩
  have within := (Line.skipSpace_suffix rest).trans (Line.suffix_of_cons left)
  dsimp only
  generalize Line.skipSpace rest = behind at within
  cases behind with
  | nil => exact .ok trivial
  | cons t later => exact .error (.token (Line.mem_of_cons within))

end IndentMarkup
