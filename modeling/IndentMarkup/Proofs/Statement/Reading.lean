import IndentMarkup.Proofs.Result
import IndentMarkup.Proofs.Statement.Tag
import IndentMarkup.Template.Parse

/-! Reading a printed line back: it says what was printed, and it is read to its end. -/
namespace IndentMarkup

variable {layout : Layout} {source text tail : Text} {p : Position}

theorem Text.Printable.head_solid (kept : text.Printable) (ended : LineEnd tail) :
    ∀ c ∈ (text ++ tail).head?, isInlineBlank c = false := by
  intro c starts
  cases text with
  | nil =>
    cases tail with
    | nil => contradiction
    | cons d tail =>
      obtain rfl := ended
      obtain rfl : '\n' = c := by simpa using starts
      decide
  | cons d text =>
    obtain rfl : d = c := by simpa using starts
    have solid : isBlank d = false := by
      apply Bool.eq_false_iff.mpr
      intro blank
      have shorter := (List.dropWhile_sublist isBlank (l := text)).length_le
      have leading := congrArg List.length kept.leading
      simp only [Text.trimStart, List.dropWhile_cons, blank, if_true, List.length_cons] at leading
      omega
    simp [isInlineBlank, solid]

/-- A text in its place is read as it is, without its ends being touched. -/
theorem Text.Printable.exists_line (kept : text.Printable)
    (placed : p.Before source (text ++ tail)) (ended : LineEnd tail) :
    ∃ line, MakesLine p text tail line ∧ line.sourceText source = text ∧
      line.skipSpace = line := by
  obtain ⟨line, made, same⟩ := exists_line_of_source placed kept.inline ended
  exact ⟨line, made, same, made.skipSpace (kept.head_solid ended)⟩

/-- The blank in front of a text is a token of its own. -/
theorem Text.Printable.exists_spaced_line (kept : text.Printable)
    (placed : p.Before source ([' '] ++ (text ++ tail))) (ended : LineEnd tail) :
    ∃ line : Line, MakesLine p (' ' :: text) tail (⟨.space, [' '], p⟩ :: line) ∧
      line.sourceText source = text ∧ line.skipSpace = line := by
  obtain ⟨line, made, same, solid⟩ := kept.exists_line (placed.advance _) ended
  have blank := StartsLine.blank p (kept.head_solid ended)
  exact ⟨line, blank.makesLine made, same, solid⟩

theorem Line.trimmedText_of_source {line : Line} (trailing : text.trimEnd = text)
    (same : line.sourceText source = text) : line.trimmedText source = text := by
  rw [trimmedText, same, trailing]

theorem Line.requiredText_of_source {line : Line} (trailing : text.trimEnd = text)
    (nonempty : text ≠ []) (same : line.sourceText source = text) :
    line.requiredText source = .ok text := by
  rw [requiredText, trimmedText_of_source trailing same]
  cases text with
  | nil => contradiction
  | cons c rest => rfl

theorem Line.skipSpace_space (line : Line) :
    skipSpace (⟨.space, [' '], p⟩ :: line) = line.skipSpace :=
  rfl

/-- What a line that was printed says when it is read. -/
def PrintedLine.ReadFrom (source : Text) (printed : PrintedLine) (line : Line) : Prop :=
  match printed.statement? with
  | some statement => Statement.ofLine source line = .ok statement
  | none => readElse line = .ok ()

/-- In front of the tail the printed line is one line, and it says again what was printed. -/
def PrintedLine.ReadsBack (layout : Layout) (source : Text) (p : Position) (tail : Text)
    (printed : PrintedLine) : Prop :=
  ∃ line, MakesLine p (printed.print layout) tail line ∧ printed.ReadFrom source line

theorem Statement.ofLine_of_read {line : Line} {statement : Statement}
    (solid : line.skipSpace = line) (taken : read source line = .ok (statement, [])) :
    ofLine source line = .ok statement := by
  simp [ofLine, solid, taken, bind, Except.bind, pure, Except.pure]

theorem comment_readsBack {buffered : Bool}
    (printable : (PrintedLine.comment text buffered).Printable)
    (placed : p.Before source ((PrintedLine.comment text buffered).print layout ++ tail))
    (ended : LineEnd tail) :
    (PrintedLine.comment text buffered).ReadsBack layout source p tail := by
  obtain ⟨inline, trailing, heard⟩ := printable
  cases buffered with
  | true =>
    have apart : (text ++ tail).head? ≠ some '-' := by
      cases text with
      | nil =>
        cases tail with
        | nil => simp
        | cons c tail => obtain rfl := ended; simp
      | cons c text => exact heard rfl
    have begun := StartsLine.comment p apart
    obtain ⟨line, made, same⟩ := exists_line_of_source
      (placed.advance ['/', '/']) inline ended
    refine ⟨_, begun.makesLine made, Statement.ofLine_of_read rfl ?_⟩
    simp [Statement.read, Line.trimmedText_of_source trailing same]
  | false =>
    have begun := StartsLine.symbol (s := .silentComment) p (text ++ tail) rfl rfl
    obtain ⟨line, made, same⟩ := exists_line_of_source
      (placed.advance ['/', '/', '-']) inline ended
    refine ⟨_, begun.makesLine made, Statement.ofLine_of_read rfl ?_⟩
    simp [Statement.read, Line.trimmedText_of_source trailing same]

theorem piped_readsBack (kept : text.Printable)
    (placed : p.Before source ((PrintedLine.piped text).print layout ++ tail))
    (ended : LineEnd tail) :
    (PrintedLine.piped text).ReadsBack layout source p tail := by
  have begun := StartsLine.symbol (s := .pipe) p (' ' :: text ++ tail) rfl rfl
  obtain ⟨line, made, same, -⟩ := kept.exists_spaced_line
    (placed.advance ['|']) ended
  refine ⟨_, begun.makesLine made, Statement.ofLine_of_read rfl ?_⟩
  simp [Statement.read, Line.trimmedText_of_source kept.trailing same]

theorem condition_readsBack (kept : text.Printable) (nonempty : text ≠ [])
    (placed : p.Before source ((PrintedLine.condition text).print layout ++ tail))
    (ended : LineEnd tail) :
    (PrintedLine.condition text).ReadsBack layout source p tail := by
  have ends : EndsWord (' ' :: text ++ tail) := .inl (by decide)
  have begun := StartsLine.keyword (k := .if) p (by decide) ends
  rw [PrintedLine.print, List.append_assoc] at placed
  obtain ⟨line, made, same, -⟩ := kept.exists_spaced_line (placed.advance _) ended
  refine ⟨_, begun.makesLine made, Statement.ofLine_of_read rfl ?_⟩
  have required := Line.requiredText_of_source kept.trailing nonempty same
  simp [Statement.read, Statement.readCondition_eq, Line.expect, Line.startsWith, Line.next,
    required, bind, Except.bind, pure, Except.pure]

/-- Each marker is one word or keyword, and the rest of the line is its argument. -/
theorem Marker.exists_token (kind : Marker) {rest : Text} (p : Position) (ends : EndsWord rest) :
    ∃ t, StartsLine p kind.name.toList [t] rest ∧ t.kind ≠ .space ∧
      ∀ source (line : Line), line.startsWith .space →
        Statement.read source (t :: line) = Statement.readMarker source kind line := by
  have keyword {k : Keyword} (look : k ≠ .var) := StartsLine.keyword p look ends
  cases kind with
  | each => exact ⟨_, keyword (k := .each) (by decide), by simp, fun _ _ _ => rfl⟩
  | mixin => exact ⟨_, keyword (k := .mixin) (by decide), by simp, fun _ _ _ => rfl⟩
  | «include» => exact ⟨_, keyword (k := .include) (by decide), by simp, fun _ _ _ => rfl⟩
  | «for» =>
    have word : StartsLine p ['f', 'o', 'r'] [⟨.word, ['f', 'o', 'r'], p⟩] rest :=
      .word p (by decide) ends (by intro k; cases k <;> decide)
    refine ⟨_, word, by simp, fun source line spaced => ?_⟩
    simp [Statement.read, Statement.isForMarker, spaced]

theorem marker_readsBack {kind : Marker} (kept : text.Printable) (nonempty : text ≠ [])
    (placed : p.Before source ((PrintedLine.marker kind text).print layout ++ tail))
    (ended : LineEnd tail) :
    (PrintedLine.marker kind text).ReadsBack layout source p tail := by
  have ends : EndsWord (' ' :: text ++ tail) := .inl (by decide)
  obtain ⟨t, begun, unspaced, taken⟩ := kind.exists_token p ends
  rw [PrintedLine.print, List.append_assoc] at placed
  obtain ⟨line, made, same, skipped⟩ := kept.exists_spaced_line (placed.advance _) ended
  have solid (rest : Line) : Line.skipSpace (t :: rest) = t :: rest := by
    simp [Line.skipSpace, unspaced]
  have required := Line.requiredText_of_source kept.trailing nonempty same
  refine ⟨_, begun.makesLine made, Statement.ofLine_of_read (solid _) ?_⟩
  rw [List.singleton_append, taken source _ rfl, Statement.readMarker_eq, Line.skipSpace_space,
    skipped, required]
  rfl

theorem else_readsBack (layout : Layout) (source : Text) (p : Position) (ended : LineEnd tail) :
    PrintedLine.otherwise.ReadsBack layout source p tail := by
  have begun := StartsLine.keyword (k := .else) p (by decide) ended.endsWord
  have taken : readElse [⟨.keyword .else, Keyword.else.literal, p⟩] = .ok () := rfl
  exact ⟨_, begun.makesLine (ended.makesLine _), taken⟩

/-- Behind a tag stands its content, or nothing. -/
theorem exists_content {content : Option Content}
    (printable : ∀ held ∈ content, held.Printable)
    (placed : p.Before source (content.elim [] Content.print ++ tail)) (ended : LineEnd tail) :
    ∃ rest, MakesLine p (content.elim [] Content.print) tail rest ∧ FollowsTag rest ∧
      ∀ line head, TagLine.readHead line = .ok (head, rest) →
        TagLine.read source line = .ok (.plain head content, []) := by
  cases content with
  | none =>
    refine ⟨[], ended.makesLine p, trivial, fun line head taken => ?_⟩
    rw [TagLine.read]
    split <;> simp_all
  | some held =>
    have own := printable held rfl
    cases held with
    | text value =>
      obtain ⟨kept, nonempty⟩ := own
      obtain ⟨rest, made, same, -⟩ := kept.exists_spaced_line placed ended
      have trimmed := Line.trimmedText_of_source kept.trailing same
      refine ⟨_, made, .inl rfl, fun line head taken => ?_⟩
      rw [TagLine.read]
      split <;> simp_all
    | expression value =>
      obtain ⟨kept, nonempty⟩ := own
      have begun := StartsLine.symbol (s := .inlineValue) p (value ++ tail) rfl rfl
      obtain ⟨rest, made, same, skipped⟩ := kept.exists_line
        (placed.advance ['=', ' ']) ended
      have required := Line.requiredText_of_source kept.trailing nonempty same
      refine ⟨_, begun.makesLine made, .inr rfl, fun line head taken => ?_⟩
      rw [TagLine.read]
      split <;> simp_all [Except.map]

theorem tag_readsBack {head : TagHead} {content : Option Content}
    (printable : (PrintedLine.tag head content).Printable)
    (placed : p.Before source ((PrintedLine.tag head content).print layout ++ tail))
    (ended : LineEnd tail) :
    (PrintedLine.tag head content).ReadsBack layout source p tail := by
  obtain ⟨named, filled⟩ := printable
  have ends : EndsWord (content.elim [] Content.print ++ tail) := by
    cases content with
    | none => exact ended.endsWord
    | some held =>
      cases held with
      | text value => exact .inl (by decide)
      | expression value => exact endsWord_symbol .inlineValue _
  rw [PrintedLine.print, List.append_assoc] at placed
  obtain ⟨rest, made, follows, taken⟩ := exists_content filled (placed.advance _) ended
  obtain ⟨tokens, starts, heads⟩ := exists_head layout p named ends
  refine ⟨_, starts.makesLine made, Statement.ofLine_of_read rfl ?_⟩
  have other : Statement.isForMarker ⟨.word, head.name, p⟩ (tokens ++ rest) = false := by
    simp [Statement.isForMarker, named.notFor]
  simp [Statement.read, other, taken _ _ (heads rest follows), Except.map]

theorem PrintedLine.readsBack {printed : PrintedLine} (printable : printed.Printable)
    (placed : p.Before source (printed.print layout ++ tail)) (ended : LineEnd tail) :
    printed.ReadsBack layout source p tail := by
  cases printed with
  | tag => exact tag_readsBack printable placed ended
  | piped => exact piped_readsBack printable placed ended
  | comment => exact comment_readsBack printable placed ended
  | marker => exact marker_readsBack printable.1 printable.2 placed ended
  | condition => exact condition_readsBack printable.1 printable.2 placed ended
  | otherwise => exact else_readsBack layout source p ended

theorem PrintedLine.head_solid {printed : PrintedLine} (layout : Layout)
    (printable : printed.Printable) (rest : Text) :
    ∀ c ∈ (printed.print layout ++ rest).head?, isInlineBlank c = false := by
  cases printed with
  | tag head content =>
    intro c starts
    refine not_inlineBlank_of_isWordChar (isWordChar_head printable.1.named
      (head.id.elim [] ('#' :: ·) ++ head.classes.flatMap ('.' :: ·) ++
        Attribute.printList layout head.attributes ++ content.elim [] Content.print ++ rest) c ?_)
    simpa [print, TagHead.print] using starts
  | comment text buffered =>
    cases buffered <;> (rintro c ⟨rfl⟩; decide)
  | marker kind argument =>
    cases kind <;> (rintro c ⟨rfl⟩; decide)
  | _ => rintro c ⟨rfl⟩; decide

/-- A line that says something has a first token, which tells an `else` from all else. -/
theorem PrintedLine.ReadFrom.exists_first {printed : PrintedLine} {line : Line}
    (reads : printed.ReadFrom source line) :
    ∃ t rest, line.skipSpace = t :: rest ∧ t.kind ≠ .keyword .doctype ∧
      (t.kind = .keyword .else ↔ printed = .otherwise) := by
  unfold ReadFrom at reads
  split at reads
  next statement said =>
    obtain ⟨value, taken, -⟩ := bind_ok reads
    cases first : line.skipSpace with
    | nil => simp [first, Statement.read] at taken
    | cons t rest =>
      rw [first] at taken
      have plain : printed ≠ .otherwise := by
        rintro rfl
        simp [statement?] at said
      refine ⟨t, rest, rfl, fun kind => ?_, ⟨fun kind => ?_, fun same => absurd same plain⟩⟩
      · simp [Statement.read, kind] at taken
      · simp [Statement.read, kind] at taken
  next silent =>
    obtain ⟨value, taken, -⟩ := bind_ok reads
    cases first : line.skipSpace with
    | nil => simp [first, Line.expect, Line.startsWith] at taken
    | cons t rest =>
      have kind : t.kind = .keyword .else := by
        by_cases kind : t.kind = .keyword .else
        · exact kind
        · simp [first, Line.expect, Line.startsWith, kind] at taken
      have same : printed = .otherwise := by
        cases printed <;> first | rfl | simp [statement?] at silent
      exact ⟨t, rest, rfl, by simp [kind], by simp [kind, same]⟩

theorem PrintedLine.ReadFrom.isBlank {printed : PrintedLine} {line : Line}
    (reads : printed.ReadFrom source line) : line.isBlank = false := by
  obtain ⟨t, rest, first, -⟩ := reads.exists_first
  apply Bool.eq_false_iff.mpr
  intro blank
  have nothing : line.skipSpace = [] := by
    apply List.dropWhile_eq_nil_iff.mpr
    simpa [Line.isBlank] using blank
  rw [nothing] at first
  contradiction

end IndentMarkup
