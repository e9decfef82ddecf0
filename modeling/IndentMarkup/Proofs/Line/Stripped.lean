import IndentMarkup.Proofs.Line.Trailing

/-! Lines of tokens without the blanks at their ends. Each line of a text has its like in the text
without those blanks, and from every token on both hold the same text, trailing blanks aside. -/
namespace IndentMarkup

variable {source source' : Text}

/-- The second line is the first one without the blanks at its end. The last token in front of them may
be another one then. -/
inductive Line.Stripped (source source' : Text) : Line → Line → Prop where
  | nil : Stripped source source' [] []
  | gone {t : Token} (space : t.kind = .space) (same : Line.trimmedText source [t] = []) :
      Stripped source source' [t] []
  | value {t t' : Token} {rest : Line} (value : t.kind = .symbol .inlineValue)
      (equals : t'.kind = .symbol .equals) (blank : rest.isBlank = true)
      (same : Line.trimmedText source (t :: rest) = Line.trimmedText source' [t']) :
      Stripped source source' (t :: rest) [t']
  | block {t t' u : Token} {rest : Line} (dot : t.kind = .symbol .dot)
      (block : t'.kind = .symbol .block) (space : u.kind = .space)
      (blank : rest.isBlank = true)
      (same : Line.trimmedText source (t :: u :: rest) = Line.trimmedText source' [t']) :
      Stripped source source' (t :: u :: rest) [t']
  | cons {t t' : Token} {rest rest' : Line} (kind : t.kind = t'.kind) (text : t.text = t'.text)
      (same : Line.trimmedText source (t :: rest) = Line.trimmedText source' (t' :: rest'))
      (later : Stripped source source' rest rest') :
      Stripped source source' (t :: rest) (t' :: rest')

namespace Line.Stripped

variable {line line' : Line}

theorem trimmedText (stripped : Stripped source source' line line') :
    line.trimmedText source = line'.trimmedText source' := by
  cases stripped with
  | nil => rfl
  | gone _ same => exact same
  | _ => assumption

theorem isBlank (stripped : Stripped source source' line line') : line.isBlank = line'.isBlank := by
  induction stripped with
  | nil => rfl
  | gone space => simp [Line.isBlank, space]
  | value value equals => simp [Line.isBlank, value, equals]
  | block dot block => simp [Line.isBlank, dot, block]
  | cons kind _ _ _ ih =>
    simp only [Line.isBlank, List.all_cons] at ih ⊢
    rw [kind, ih]

theorem skipSpace (stripped : Stripped source source' line line') :
    Stripped source source' line.skipSpace line'.skipSpace := by
  induction stripped with
  | nil => exact .nil
  | gone space => simpa [Line.skipSpace, space] using Stripped.nil
  | value value equals blank same =>
    simpa [Line.skipSpace, value, equals] using Stripped.value value equals blank same
  | block dot block space blank same =>
    simpa [Line.skipSpace, dot, block] using Stripped.block dot block space blank same
  | @cons t t' rest rest' kind text same later ih =>
    by_cases space : t.kind = .space
    · simpa [Line.skipSpace, space, ← kind] using ih
    · simpa [Line.skipSpace, space, ← kind] using Stripped.cons kind text same later

/-- Lines that are not blank keep their indent. -/
theorem indent (stripped : Stripped source source' line line') (solid : line.isBlank = false) :
    line.indent = line'.indent := by
  cases stripped with
  | nil => rfl
  | gone space => simp [Line.isBlank, space] at solid
  | value value equals => simp [Line.indent, value, equals]
  | block dot block => simp [Line.indent, dot, block]
  | cons kind text => rw [Line.indent, Line.indent, kind, text]

theorem startsWith {kind : Token.Kind} (stripped : Stripped source source' line line')
    (other : kind ∉ [.space, .symbol .inlineValue, .symbol .equals, .symbol .dot, .symbol .block]) :
    line.startsWith kind = line'.startsWith kind := by
  simp only [List.mem_cons, List.not_mem_nil, or_false, not_or] at other
  cases stripped with
  | nil => rfl
  | gone space => simp [Line.startsWith, space, Ne.symm other.1]
  | value value equals => simp [Line.startsWith, value, equals, Ne.symm other.2.1, Ne.symm other.2.2.1]
  | block dot block =>
    simp [Line.startsWith, dot, block, Ne.symm other.2.2.2.1, Ne.symm other.2.2.2.2]
  | cons kind => simp [Line.startsWith, kind]

end Line.Stripped

/-- No string goes on over the end of a line. -/
def Token.StringsInLines (tokens : List Token) : Prop :=
  ∀ t ∈ tokens, t.kind = .quoted → '\n' ∉ t.text

namespace Token.StringsInLines

variable {text : Text} {found : Match} {p : Position}

theorem of_first (closed : StringsInLines (listFrom p text)) (first : FirstToken text found) :
    (found.kind = .quoted → '\n' ∉ found.text) ∧
      StringsInLines (listFrom (p.advance found.taken) found.rest) := by
  rw [listFrom_of_first p first, StringsInLines, List.forall_mem_cons] at closed
  exact closed

theorem cons (p : Position) (first : FirstToken text found)
    (own : found.kind = .quoted → '\n' ∉ found.text)
    (later : StringsInLines (listFrom (p.advance found.taken) found.rest)) :
    StringsInLines (listFrom p text) := by
  rw [listFrom_of_first p first]
  exact List.forall_mem_cons.mpr ⟨own, later⟩

/-- The same holds without the blanks at the ends of lines. -/
theorem trimLines {text : Text} {p : Position} (closed : StringsInLines (listFrom p text))
    (q : Position) :
    StringsInLines (listFrom q text.trimLines) := by
  by_cases nonempty : text = []
  · simp [nonempty, Text.trimLines_nil, StringsInLines]
  obtain ⟨found, first⟩ := exists_first nonempty
  obtain ⟨own, later⟩ := closed.of_first first
  have shorter := first.length_rest_lt
  have behind (q : Position) := later.trimLines q
  cases first.trimLines own with
  | same whole kept => exact whole ▸ cons q kept own (behind _)
  | gone space ended whole => exact whole ▸ behind q
  | value value ended whole =>
    have equals : FirstToken ('=' :: found.rest.trimLines) _ := FirstToken.of_equals
      (ended.head_ne (by decide))
    exact whole ▸ cons q equals nofun (behind _)
  | @block dot apart whole left feed =>
    have block : FirstToken (['.', '\n'] ++ left) _ := FirstToken.of_lone_symbol (s := .block) left rfl
    have newLine : FirstToken (['\n'] ++ left) _ := FirstToken.of_lone_symbol (s := .newLine) left rfl
    have rest := behind (q.advance ['.'])
    rw [feed] at rest
    rw [whole, feed]
    exact cons q block nofun (rest.of_first newLine).2
termination_by text.length

end Token.StringsInLines

/-- The line feeds that a token reaches over are in its text. -/
theorem Token.feed_mem_text {text : Text} {p : Position} {t : Token} (member : t ∈ listFrom p text)
    (quoted : t.kind = .quoted) {k : Nat} (feed : text[k]? = some '\n')
    (behind : t.position.index < p.index + k) (before : p.index + k + 1 < t.stop) : '\n' ∈ t.text := by
  obtain ⟨front, found, rfl, first, rfl⟩ := mem_listFrom member
  have written := first.writtenAs (p.advance front)
  rw [Token.WrittenAs, if_pos quoted] at written
  obtain ⟨mark, -, written⟩ := written
  rw [stop, first.length_taken, written, Position.index_advance] at before
  rw [Position.index_advance] at behind
  simp only [List.length_append, List.length_cons, List.length_nil] at before
  obtain ⟨j, rfl⟩ : ∃ j, k = front.length + (j + 1) := ⟨k - front.length - 1, by omega⟩
  rw [List.getElem?_append_right (by omega), written] at feed
  have own : (found.text ++ mark :: found.rest)[j]? = some '\n' := by simpa using feed
  rw [List.getElem?_append_left (by omega)] at own
  exact List.mem_of_getElem? own

theorem Line.cut_isPrefix (tokens : List Token) : (cut tokens).1 <+: tokens := by
  cases tokens with
  | nil => exact List.prefix_refl _
  | cons t rest =>
    refine (split_isInfix (t :: rest)).1 _ ?_
    rw [split_eq_cut_cons]
    rfl

theorem Line.cut_isSuffix (tokens : List Token) : (cut tokens).2 <:+ tokens := by
  fun_induction cut tokens with
  | case1 => exact List.suffix_refl _
  | case2 t rest => exact List.suffix_cons t rest
  | case3 t rest => exact List.suffix_cons t rest
  | case4 t rest _ _ line later cut ih =>
    rw [cut] at ih
    exact ih.trans (List.suffix_cons t rest)

/-- The first line of such a text is what stands up to its first line feed. -/
theorem Token.StringsInLines.beginsLine {line tail : Text} {p : Position}
    (closed : StringsInLines (listFrom p (line ++ tail))) (within : '\n' ∉ line)
    (ended : LineEnd tail) : BeginsLine p line tail (Line.ofText p (line ++ tail)) := by
  obtain ⟨piece, behind, made, whole, begins⟩ := exists_beginsLine p (line ++ tail)
  have own := begins.made.line
  rw [← whole] at own
  have feedless : '\n' ∉ piece := by
    intro member
    obtain ⟨k, inside, feed⟩ := List.getElem_of_mem member
    have feed' : piece[k]? = some '\n' := List.getElem?_eq_some_iff.mpr ⟨inside, feed⟩
    obtain ⟨t, line_mem, quoted, starts, stops⟩ := begins.quoted k feed'
    rw [← own] at line_mem
    have token : t ∈ listFrom p (line ++ tail) := (Line.cut_isPrefix _).subset line_mem
    refine closed t token quoted (feed_mem_text token quoted ?_ starts stops)
    rw [whole, List.getElem?_append_left inside, feed']
  obtain ⟨left, split, rest⟩ := begins.ended.split within whole
  have nothing : left = [] := by
    refine (lineEnd_append_iff (fun member => feedless ?_) begins.ended).mp (rest ▸ ended)
    exact split ▸ List.mem_append_right _ member
  subst nothing
  rw [List.append_nil] at split
  rw [List.nil_append] at rest
  rw [own, ← split, rest]
  exact begins

namespace Line

variable {text : Text} {p q : Position}

/-- Both texts begin with lines of the same text, blanks at the end aside. -/
theorem trimmedText_ofText (closed : Token.StringsInLines (Token.listFrom p text))
    (placed : p.Before source text) (placed' : q.Before source' text.trimLines) :
    (ofText p text).trimmedText source = (ofText q text.trimLines).trimmedText source' := by
  have closed' := closed.trimLines q
  obtain ⟨line, tail, rfl, within, ended⟩ := text.exists_line
  rw [Text.trimLines_append within ended] at closed' placed' ⊢
  have left := Text.feed_not_mem_trimEnd within
  rw [trimmedText, trimmedText, (closed.beginsLine within ended).sourceText placed,
    (closed'.beginsLine left ended.trimLines).sourceText placed', Text.trimEnd_trimEnd]

theorem ofText_lineEnd (p : Position) (ended : LineEnd text) : ofText p text = [] := by
  simpa using (ended.makesLine p).line

theorem ofText_of_first {found : Match} (first : FirstToken text found)
    (inside : found.kind.endsLine = false) (p : Position) :
    ofText p text = ⟨found.kind, found.text, p⟩ :: ofText (p.advance found.taken) found.rest := by
  have whole := first.append
  obtain ⟨kind, value, taken, rest⟩ := found
  dsimp only at inside whole ⊢
  subst whole
  exact (first.startsLine inside p).line

theorem ofText_block (p : Position) (left : Text) :
    ofText p ('.' :: '\n' :: left) = [⟨.symbol .block, ['.', '\n'], p⟩] :=
  (BeginsLine.block p left).made.line

theorem ofText_ne_nil (p : Position) (open_ : ¬ LineEnd text) : ofText p text ≠ [] := by
  have nonempty : text ≠ [] := by
    rintro rfl
    exact open_ trivial
  obtain ⟨found, first⟩ := Token.exists_first nonempty
  have inside : found.kind ≠ .symbol .newLine := by
    intro newLine
    cases first with
    | symbol =>
      obtain rfl := Token.Kind.symbol.inj newLine
      exact open_ rfl
    | _ => contradiction
  rw [ofText, Token.listFrom_of_first p first, cut, if_neg inside]
  split <;> exact List.cons_ne_nil _ _

/-- A line of which nothing is left was blank. -/
theorem isBlank_ofText (p : Position) (ended : LineEnd text.trimLines) :
    (ofText p text).isBlank = true := by
  obtain ⟨line, tail, rfl, within, behind⟩ := text.exists_line
  have left := Text.feed_not_mem_trimEnd within
  rw [Text.trimLines_append within behind, lineEnd_append_iff left behind.trimLines] at ended
  by_cases nothing : line = []
  · subst nothing
    rw [List.nil_append, ofText_lineEnd p behind]
    rfl
  have blank : ∀ c ∈ line, isInlineBlank c = true := by
    intro c member
    have inside := List.rdropWhile_eq_nil_iff.mp ended c member
    exact isInlineBlank_of_isBlank inside fun feed => within (feed ▸ member)
  have first : FirstToken (line ++ tail) ⟨.space, line, line, tail⟩ := by
    refine .of_blanks nothing blank fun c head => ?_
    cases tail with
    | nil => contradiction
    | cons d tail =>
      obtain rfl := behind
      obtain rfl := Option.some.inj head
      rfl
  rw [ofText_of_first first rfl, ofText_lineEnd _ behind]
  rfl

/-- The first line of the text, and that of the text without the blanks at the ends of lines. -/
theorem Stripped.ofText {text : Text} {p q : Position}
    (closed : Token.StringsInLines (Token.listFrom p text))
    (placed : p.Before source text) (placed' : q.Before source' text.trimLines) :
    Stripped source source' (ofText p text) (ofText q text.trimLines) := by
  have same := trimmedText_ofText closed placed placed'
  by_cases ended : LineEnd text
  · rw [ofText_lineEnd p ended, ofText_lineEnd q ended.trimLines]
    exact .nil
  have nonempty : text ≠ [] := fun none => ended (none ▸ trivial)
  obtain ⟨found, first⟩ := Token.exists_first nonempty
  obtain ⟨own, closed_rest⟩ := closed.of_first first
  have shorter := first.length_rest_lt
  cases first.trimLines own with
  | same whole kept =>
    cases inside : found.kind.endsLine with
    | false =>
      have later := Stripped.ofText closed_rest ((first.append ▸ placed).advance found.taken)
        ((whole ▸ placed').advance found.taken)
      rw [ofText_of_first first inside, whole, ofText_of_first kept inside] at same ⊢
      exact .cons rfl rfl same later
    | true =>
      cases first with
      | @symbol s rest =>
        have ends : s = .newLine ∨ s = .block := by simpa [Token.Kind.endsLine] using inside
        rcases ends with rfl | rfl
        · exact absurd rfl ended
        · have block (p : Position) (rest : Text) :
              Line.ofText p (Symbol.block.literal ++ rest) = _ := ofText_block p rest
          rw [whole, block, block] at same ⊢
          exact .cons rfl rfl same .nil
      | _ => contradiction
  | gone space behind whole =>
    rw [ofText_of_first first (by rw [space]; rfl), ofText_lineEnd _ behind, whole,
      ofText_lineEnd q behind.trimLines] at same ⊢
    exact .gone space same
  | value value behind whole =>
    have equals : FirstToken ('=' :: found.rest.trimLines) _ :=
      FirstToken.of_equals (behind.head_ne (by decide))
    rw [ofText_of_first first (by rw [value]; rfl), whole, ofText_of_first equals rfl,
      ofText_lineEnd _ behind] at same ⊢
    exact .value value rfl (isBlank_ofText _ behind) same
  | @block dot apart whole left feed =>
    have behind : LineEnd found.rest.trimLines := feed ▸ rfl
    have blank := isBlank_ofText (p.advance found.taken) behind
    obtain ⟨u, more, spelled⟩ :=
      List.exists_cons_of_ne_nil (ofText_ne_nil (p.advance found.taken) apart)
    rw [spelled, Line.isBlank, List.all_cons, Bool.and_eq_true] at blank
    rw [ofText_of_first first (by rw [dot]; rfl), whole, feed, spelled, ofText_block] at same ⊢
    exact .block dot rfl (by simpa using blank.1) blank.2 same
termination_by text.length

end Line

/-- The lines of the text and those of the text without the blanks at the ends of lines, where a blank
line at the end of the text may be missing. -/
theorem stripped_split {text : Text} {p q : Position}
    (closed : Token.StringsInLines (Token.listFrom p text))
    (placed : p.Before source text) (placed' : q.Before source' text.trimLines) :
    ∃ lines last, Line.split (Token.listFrom p text) = lines ++ last ∧
      (last = [] ∨ ∃ blank, last = [blank] ∧ blank.isBlank = true) ∧
      List.Forall₂ (Line.Stripped source source') lines
        (Line.split (Token.listFrom q text.trimLines)) := by
  induction text using Text.line_induction generalizing p q with
  | last line within =>
    have first := Line.Stripped.ofText closed placed placed'
    have closed' := closed.trimLines q
    have nothing : LineEnd [] := trivial
    have left := Text.feed_not_mem_trimEnd within
    rw [← List.append_nil line] at closed first closed' ⊢
    rw [Text.trimLines_append within nothing, Text.trimLines_nil] at closed' first ⊢
    by_cases empty : line = []
    · subst empty
      exact ⟨[], [], by simp [Line.split], .inl rfl, by simp [Line.split, Text.trimEnd]⟩
    rw [split_makesLine (closed.beginsLine within nothing).made (by simpa using empty), List.take_nil,
      List.drop_nil, Token.listFrom_nil]
    by_cases gone : line.trimEnd = []
    · rw [gone, List.nil_append, Line.ofText_lineEnd q nothing] at first
      exact ⟨[], _, rfl, .inr ⟨_, rfl, first.isBlank⟩, by simp [gone, Line.split]⟩
    · rw [split_makesLine (closed'.beginsLine left nothing).made (by simpa using gone), List.take_nil,
        List.drop_nil, Token.listFrom_nil]
      exact ⟨[_], [], rfl, .inl rfl, .cons first .nil⟩
  | cons line rest within ih =>
    have first := Line.Stripped.ofText closed placed placed'
    have closed' := closed.trimLines q
    have feed (rest : Text) : LineEnd ('\n' :: rest) := rfl
    have left := Text.feed_not_mem_trimEnd within
    rw [Text.trimLines_append within (feed rest), Text.trimLines_feed] at closed' placed' first ⊢
    have begins := closed.beginsLine within (feed rest)
    have begins' := closed'.beginsLine left (feed rest.trimLines)
    have closed_rest : Token.StringsInLines (Token.listFrom (p.advance (line ++ ['\n'])) rest) := by
      have behind : Line.behind p (line ++ '\n' :: rest) =
          Token.listFrom (p.advance (line ++ ['\n'])) rest := begins.made.behind
      rw [← behind]
      exact fun t member => closed t ((Line.cut_isSuffix _).subset member)
    rw [split_makesLine begins.made (by simp), split_makesLine begins'.made (by simp)]
    rw [List.append_cons] at placed placed'
    obtain ⟨lines, last, split, blank, later⟩ :=
      ih closed_rest (placed.advance _) (placed'.advance _)
    exact ⟨_ :: lines, last, congrArg _ split, blank, .cons first later⟩

end IndentMarkup