import IndentMarkup.Proofs.Line.Margin
import IndentMarkup.Proofs.Template.Body
import IndentMarkup.Proofs.Template.Lines

/-! Templates that differ in their indentation. As long as the lines are indented in the same
order and no text is kept with its indentation, they are the same template. -/
namespace IndentMarkup

/-- The width of the blanks in front of a line. -/
def Text.margin (line : Text) : Nat :=
  (line.takeWhile isBlank).length

/-- The text starts with the keyword and not just with a longer word. -/
def Text.StartsWith (k : Keyword) (text : Text) : Prop :=
  ∃ rest, text = k.literal ++ rest ∧ EndsWord rest

/-- The text holds neither quotation marks nor carriage returns. -/
def Text.isPlain (text : Text) : Bool :=
  text.all fun c => !(['\r', '"', '\''].contains c)

/-- Line by line both texts are the same behind the blanks in front, and the lines that are not
blank are indented in the same order. -/
structure Text.SameButIndents (source source' : Text) : Prop where
  lines : List.Forall₂ (fun line line' => Text.trimStart line = Text.trimStart line')
    (source.splitOn '\n') (source'.splitOn '\n')
  order : ∀ first ∈ (source.splitOn '\n').zip (source'.splitOn '\n'),
    ∀ second ∈ (source.splitOn '\n').zip (source'.splitOn '\n'),
      Text.trimStart first.1 ≠ [] → Text.trimStart second.1 ≠ [] →
        (Text.margin first.1 < Text.margin second.1 ↔
          Text.margin first.2 < Text.margin second.2)

theorem Text.plain_append {first second : Text} (plain : isPlain (first ++ second) = true) :
    isPlain first = true ∧ isPlain second = true := by
  rwa [isPlain, List.all_append, Bool.and_eq_true] at plain

theorem Text.inline_of_plain {line : Text} (plain : line.isPlain = true) (within : '\n' ∉ line) :
    line.isInline = true := by
  refine List.all_eq_true.mpr fun c member => ?_
  have apart : c ≠ '\n' := fun same => within (same ▸ member)
  have own := List.all_eq_true.mp plain c member
  simpa [apart] using own

theorem Text.closed_of_plain {text : Text} (plain : text.isPlain = true) (p : Position) :
    ∀ t ∈ Token.listFrom p text, t.isUnclosed = false := by
  refine Token.closed_of_unquoted (fun c member => ?_) p
  have own := List.all_eq_true.mp plain c member
  simp_all

/-- No comment and no text block has lines nested under it. -/
def Text.NestsNoText (source : Text) : Prop :=
  ∀ tokens, Token.ofText source = .ok tokens →
    ∀ tree ∈ LineTree.within (LineTree.ofLines (Line.split tokens)),
      tree.line.holdsText source = true → tree.nested = []

theorem Text.nestsNoText_iff (source : Text) : source.NestsNoText ↔
    (match Token.ofText source with
      | .ok tokens => (LineTree.within (LineTree.ofLines (Line.split tokens))).all fun tree =>
          !tree.line.holdsText source || tree.nested.isEmpty
      | .error _ => true) = true := by
  rw [NestsNoText]
  cases Token.ofText source with
  | error error => simp
  | ok tokens =>
    simp only [Except.ok.injEq, forall_eq']
    simp [imp_iff_not_or]

variable {I : Nat → Nat → Prop} {source source' : Text}

/-- A line of text with other blanks in front of it, of a width that is related. -/
structure Text.Moved (I : Nat → Nat → Prop) (line line' : Text) : Prop where
  same : trimStart line = trimStart line'
  level : trimStart line ≠ [] → I (margin line) (margin line')

/-- Two lines that are not blank look alike behind their indents, which are related. -/
structure Line.Moved (I : Nat → Nat → Prop) (source source' : Text) (line line' : Line) :
    Prop where
  alike : Line.Alike AnyErrors source source' line.skipSpace line'.skipSpace
  solid : line.isBlank = false
  solid' : line'.isBlank = false
  level : I line.indent line'.indent

theorem exists_single_line {text feed : Text} (p : Position) (inline : text.isInline = true)
    (feeds : feed = [] ∨ feed = ['\n']) (nonempty : text ≠ []) :
    ∃ line, Line.split (Token.listFrom p (text ++ feed)) = [line] := by
  have ended : LineEnd feed := by
    rcases feeds with rfl | rfl
    · trivial
    · exact rfl
  obtain ⟨line, made, -⟩ := exists_line_of_inline p text feed inline ended
  refine ⟨line, ?_⟩
  have rest : feed.drop 1 = [] := by rcases feeds with rfl | rfl <;> rfl
  rw [split_makesLine made (by simp [nonempty]), rest, Token.listFrom_nil]
  rfl

/-- Blanks in front of a line are its indent and nothing else. -/
theorem exists_indented_line (p : Position) {blanks : Text}
    (inside : ∀ c ∈ blanks, isInlineBlank c = true) {c : Char} (solid : isBlank c = false)
    {rest : Text} {line : Line}
    (one : Line.split (Token.listFrom (p.advance blanks) (c :: rest)) = [line]) :
    ∃ whole, Line.split (Token.listFrom p (blanks ++ c :: rest)) = [whole] ∧
      whole.skipSpace = line ∧ whole.isBlank = false ∧ whole.indent = blanks.length := by
  obtain ⟨t, more, lines, split, unspaced⟩ := exists_solid_line (p.advance blanks) solid rest
  rw [one] at split
  obtain ⟨rfl, -⟩ := List.cons.inj split
  by_cases nonempty : blanks = []
  · subst nonempty
    exact ⟨_, one, by simp [Line.skipSpace, unspaced], by simp [Line.isBlank, unspaced],
      by simp [Line.indent, unspaced]⟩
  · have first : FirstToken (blanks ++ c :: rest) ⟨.space, blanks, blanks, c :: rest⟩ :=
      .of_blanks nonempty inside (by simp [isInlineBlank, solid])
    refine ⟨⟨.space, blanks, p⟩ :: t :: more, ?_, by simp [Line.skipSpace, unspaced],
      by simp [Line.isBlank, unspaced], rfl⟩
    rw [Token.listFrom_of_first p first, Line.split, if_neg (by simp), if_neg (by simp), one]

/-- What stands behind the blanks is read alike in both places. -/
theorem exists_moved_lines {blanks blanks' rest feed after after' : Text} {c : Char}
    {p q : Position} (inside : ∀ x ∈ blanks, isInlineBlank x = true)
    (inside' : ∀ x ∈ blanks', isInlineBlank x = true) (level : I blanks.length blanks'.length)
    (solid : isBlank c = false) (inline : Text.isInline (c :: rest) = true)
    (feeds : feed = [] ∨ feed = ['\n'])
    (placed : p.Before source (((blanks ++ c :: rest) ++ feed) ++ after))
    (placed' : q.Before source' (((blanks' ++ c :: rest) ++ feed) ++ after')) :
    ∃ line line', Line.split (Token.listFrom p ((blanks ++ c :: rest) ++ feed)) = [line] ∧
      Line.split (Token.listFrom q ((blanks' ++ c :: rest) ++ feed)) = [line'] ∧
      Line.Moved I source source' line line' := by
  rw [List.append_assoc blanks, List.append_assoc blanks] at placed
  rw [List.append_assoc blanks', List.append_assoc blanks'] at placed'
  obtain ⟨own, one⟩ :=
    exists_single_line (p.advance blanks) inline feeds (List.cons_ne_nil c rest)
  obtain ⟨own', one'⟩ :=
    exists_single_line (q.advance blanks') inline feeds (List.cons_ne_nil c rest)
  have alike := @Line.Alike.split_listFrom AnyErrors source source' _ _ _ _ _
    (placed.advance blanks) (placed'.advance blanks') fun _ _ _ => trivial
  rw [one, one'] at alike
  obtain ⟨line, made, skipped, unblank, indent⟩ := exists_indented_line p inside solid one
  obtain ⟨line', made', skipped', unblank', indent'⟩ := exists_indented_line q inside' solid one'
  rw [List.append_assoc, List.append_assoc]
  refine ⟨line, line', made, made', ?_, unblank, unblank', ?_⟩
  · rw [skipped, skipped']
    exact (List.forall₂_cons.mp alike).1
  · rwa [indent, indent']

theorem filter_solid_blank {text : Text} (blank : ∀ c ∈ text, isBlank c = true) (p : Position) :
    (Line.split (Token.listFrom p text)).filter (!·.isBlank) = [] := by
  have lines := Line.isBlank_of_mem_split (Token.listFrom_blank p blank)
  simpa [List.filter_eq_nil_iff] using lines

theorem Text.isInlineBlank_margin {line : Text} (inline : line.isInline = true) :
    ∀ c ∈ line.takeWhile isBlank, isInlineBlank c = true := by
  intro c member
  have inside := List.all_eq_true.mp inline c ((List.takeWhile_sublist _).subset member)
  exact isInlineBlank_of_isBlank (List.mem_takeWhile_imp member) (by simp_all)

theorem Text.isBlank_of_trimStart {line feed : Text} (nothing : trimStart line = [])
    (feeds : feed = [] ∨ feed = ['\n']) : ∀ c ∈ line ++ feed, isBlank c = true := by
  have blank : ∀ c ∈ line, isBlank c = true := List.dropWhile_eq_nil_iff.mp nothing
  intro c member
  rcases List.mem_append.mp member with member | member
  · exact blank c member
  · rcases feeds with rfl | rfl
    · contradiction
    · obtain rfl := List.mem_singleton.mp member
      decide

/-- A line of text that is moved is read as a line of tokens that is moved. -/
theorem Text.Moved.split {line line' feed after after' : Text} {p q : Position}
    (moved : Text.Moved I line line') (inline : Text.isInline line = true)
    (inline' : Text.isInline line' = true) (feeds : feed = [] ∨ feed = ['\n'])
    (placed : p.Before source ((line ++ feed) ++ after))
    (placed' : q.Before source' ((line' ++ feed) ++ after')) :
    List.Forall₂ (Line.Moved I source source')
      ((Line.split (Token.listFrom p (line ++ feed))).filter (!·.isBlank))
      ((Line.split (Token.listFrom q (line' ++ feed))).filter (!·.isBlank)) := by
  have content := moved.same
  cases begins : trimStart line with
  | nil =>
    rw [filter_solid_blank (isBlank_of_trimStart begins feeds),
      filter_solid_blank (isBlank_of_trimStart (content ▸ begins) feeds)]
    exact .nil
  | cons c rest =>
    have solid : isBlank c = false := by
      have first := List.head?_dropWhile_not isBlank line
      rw [← trimStart, begins] at first
      simpa using first
    have whole : line = line.takeWhile isBlank ++ c :: rest := by
      rw [← begins]
      exact List.takeWhile_append_dropWhile.symm
    have whole' : line' = line'.takeWhile isBlank ++ c :: rest := by
      rw [← begins, content]
      exact List.takeWhile_append_dropWhile.symm
    have level := moved.level (by simp [begins])
    have inside := isInlineBlank_margin inline
    have inside' := isInlineBlank_margin inline'
    have inline_rest : isInline (c :: rest) = true := by
      rw [whole, isInline, List.all_append, Bool.and_eq_true] at inline
      exact inline.2
    rw [margin, margin] at level
    generalize line.takeWhile isBlank = blanks, line'.takeWhile isBlank = blanks' at *
    subst whole whole'
    obtain ⟨made, made', one, one', related⟩ :=
      exists_moved_lines inside inside' level solid inline_rest feeds placed placed'
    rw [one, one', List.filter_cons_of_pos (by simp [related.solid]),
      List.filter_cons_of_pos (by simp [related.solid'])]
    exact .cons related .nil

/-- Lines of text that are moved are read as lines of tokens that are moved, blank ones aside. -/
theorem split_moved {text text' : Text} {p q : Position}
    (moved : List.Forall₂ (Text.Moved I) (text.splitOn '\n') (text'.splitOn '\n'))
    (plain : text.isPlain = true) (plain' : text'.isPlain = true)
    (placed : p.Before source text) (placed' : q.Before source' text') :
    List.Forall₂ (Line.Moved I source source')
      ((Line.split (Token.listFrom p text)).filter (!·.isBlank))
      ((Line.split (Token.listFrom q text')).filter (!·.isBlank)) := by
  induction text using Text.line_induction generalizing text' p q with
  | last line within =>
    rw [Text.splitOn_last within] at moved
    induction text' using Text.line_induction with
    | last line' within' =>
      rw [Text.splitOn_last within'] at moved
      have own := (List.forall₂_cons.mp moved).1
      rw [← List.append_nil line, ← List.append_nil (line ++ [])] at placed
      rw [← List.append_nil line', ← List.append_nil (line' ++ [])] at placed'
      simpa using own.split (Text.inline_of_plain plain within)
        (Text.inline_of_plain plain' within') (.inl rfl) placed placed'
    | cons line' rest' within' =>
      rw [Text.splitOn_feed within', List.forall₂_cons] at moved
      simp at moved
  | cons line rest within ih =>
    rw [Text.splitOn_feed within] at moved
    rw [List.append_cons line] at plain placed ⊢
    obtain ⟨own_line, later⟩ := Text.plain_append plain
    induction text' using Text.line_induction with
    | last line' within' =>
      rw [Text.splitOn_last within', List.forall₂_cons] at moved
      simp at moved
    | cons line' rest' within' =>
      rw [Text.splitOn_feed within', List.forall₂_cons] at moved
      rw [List.append_cons line'] at plain' placed' ⊢
      obtain ⟨own_line', later'⟩ := Text.plain_append plain'
      rw [split_listFrom_append p (Text.endsLine_feed line) (Text.closed_of_plain own_line p),
        split_listFrom_append q (Text.endsLine_feed line') (Text.closed_of_plain own_line' q),
        List.filter_append, List.filter_append]
      have inline := Text.inline_of_plain (Text.plain_append own_line).1 within
      have inline' := Text.inline_of_plain (Text.plain_append own_line').1 within'
      refine List.rel_append ?_ (ih moved.2 later later' (placed.advance _) (placed'.advance _))
      exact moved.1.split inline inline' (.inr rfl) placed placed'

/-- The indents of two lines in the same place. -/
def Text.PairedIndents (source source' : Text) (indent indent' : Nat) : Prop :=
  ∃ pair ∈ (source.splitOn '\n').zip (source'.splitOn '\n'),
    trimStart pair.1 ≠ [] ∧ indent = margin pair.1 ∧ indent' = margin pair.2

namespace Text.SameButIndents

theorem sameOrder (same : Text.SameButIndents source source') :
    LineTree.SameOrder (Text.PairedIndents source source') := by
  rintro _ _ _ _ ⟨first, member, solid, rfl, rfl⟩ ⟨second, member', solid', rfl, rfl⟩
  exact same.order first member second member' solid solid'

theorem moved (same : Text.SameButIndents source source') :
    List.Forall₂ (Text.Moved (Text.PairedIndents source source')) (source.splitOn '\n')
      (source'.splitOn '\n') := by
  rw [List.forall₂_iff_zip]
  obtain ⟨length, lines⟩ := List.forall₂_iff_zip.mp same.lines
  exact ⟨length, fun member => ⟨lines member, fun solid => ⟨_, member, solid, rfl, rfl⟩⟩⟩

end Text.SameButIndents

/-- Where a word ends in a text, it ends in the line. -/
theorem LineEnd.endsWord_line {left tail : Text} (ended : LineEnd tail)
    (ends : EndsWord (left ++ tail)) : EndsWord left := by
  cases left with
  | nil => trivial
  | cons c left =>
    refine ends.imp_right ?_
    rintro ⟨s, starts⟩
    rcases List.prefix_or_prefix_of_prefix starts (List.prefix_append (c :: left) tail) with
      inside | ⟨beyond, spelled⟩
    · exact ⟨s, inside⟩
    · cases beyond with
      | nil => exact ⟨s, by simp [← spelled]⟩
      | cons d beyond =>
        -- A symbol that reaches into the tail ends in its line feed, so it is the dot's.
        obtain ⟨after, whole⟩ := starts
        rw [← spelled, List.append_assoc] at whole
        have tail_eq := List.append_cancel_left whole
        rw [← tail_eq] at ended
        obtain rfl : d = '\n' := ended
        obtain rfl : beyond = [] := s.feed_last spelled.symm
        have last : s.literal.getLast? = some '\n' := by
          rw [← spelled]
          exact List.getLast?_concat
        cases s <;> simp [Symbol.literal] at last spelled
        obtain ⟨rfl, rfl⟩ := spelled
        exact ⟨.dot, List.prefix_refl _⟩

theorem FirstToken.starts_keyword {text : Text} {found : Match} {k : Keyword}
    (first : FirstToken text found) (kind : found.kind = .keyword k) :
    ∃ rest, text = k.literal ++ rest ∧ EndsWord rest := by
  cases first with
  | keyword bare ends =>
    obtain rfl := Token.Kind.keyword.inj kind
    exact ⟨_, rfl, ends⟩
  | _ => contradiction

theorem Text.exists_first_line (text : Text) :
    ∃ line tail, text = line ++ tail ∧ LineEnd tail ∧ (text.splitOn '\n').head? = some line := by
  induction text using Text.line_induction with
  | last line within => exact ⟨line, [], by simp, trivial, by rw [splitOn_last within]; rfl⟩
  | cons line rest within =>
    exact ⟨line, '\n' :: rest, rfl, rfl, by rw [splitOn_feed within]; rfl⟩

namespace Template

/-- Without the keyword at the front no line names a document type. -/
theorem doctypeOf_unnamed {text : Text}
    (unnamed : ∀ line ∈ (text.splitOn '\n').head?,
      ¬ Text.StartsWith .doctype (Text.trimStart line)) :
    doctypeOf text (linesOf text) = .ok none := by
  by_cases nonempty : text = []
  · subst nonempty
    rw [linesOf, Token.listFrom_nil]
    rfl
  obtain ⟨found, first⟩ := Token.exists_first nonempty
  have kind : found.kind ≠ .keyword .doctype := by
    intro kind
    obtain ⟨rest, spelled, ends⟩ := first.starts_keyword kind
    obtain ⟨line, tail, whole, ended, head⟩ := Text.exists_first_line text
    obtain ⟨left, rfl, rfl⟩ :=
      ended.split (Keyword.feed_not_mem .doctype) (spelled.symm.trans whole)
    exact unnamed _ head ⟨left, rfl, ended.endsWord_line ends⟩
  rw [linesOf, Token.listFrom_of_first _ first, Line.split]
  split
  · rfl
  · split
    · exact if_neg kind
    · split
      · exact if_neg kind
      · exact if_neg kind

theorem elementsOf_moved {lines lines' : List Line} (order : LineTree.SameOrder I)
    (moved : List.Forall₂ (Line.Moved I source source') (lines.filter (!·.isBlank))
      (lines'.filter (!·.isBlank)))
    (bare : ∀ tree ∈ LineTree.within (LineTree.ofLines lines),
      tree.line.holdsText source = true → tree.nested = []) :
    Agree AnyErrors Eq (elementsOf source lines) (elementsOf source' lines') := by
  have parallel : LineTree.Parallel (Line.Moved I source source') I
      (LineTree.solid (LineTree.ofLines lines)) (LineTree.solid (LineTree.ofLines lines')) := by
    rw [← LineTree.ofLines_filter, ← LineTree.ofLines_filter]
    refine .ofLines order (fun line line' same => ⟨by rw [same.solid, same.solid'], ?_⟩) moved
    simpa [LineTree.indentBefore, same.solid, same.solid'] using same.level
  have bare_solid : ∀ tree ∈ LineTree.within (LineTree.solid (LineTree.ofLines lines)),
      tree.line.holdsText source = true → tree.nested = [] := by
    intro tree member holds
    obtain ⟨whole, found, line, nested⟩ := LineTree.exists_of_mem_solid member
    rw [nested, bare whole found (line ▸ holds), LineTree.solid]
  have bare_solid' : ∀ tree ∈ LineTree.within (LineTree.solid (LineTree.ofLines lines')),
      tree.line.holdsText source' = true → tree.nested = [] := by
    intro tree' member holds
    obtain ⟨tree, found, same, below⟩ := parallel.exists_of_mem member
    rw [← LineTree.holdsText_alike same.alike] at holds
    rw [bare_solid tree found holds] at below
    generalize tree'.nested = nested at below
    cases below
    rfl
  have similar := parallel.similar order (fun _ _ same => by rw [same.solid, same.solid'])
    (fun _ _ same => same.alike) (by
      intro tree member holds nested' below
      rw [bare_solid tree member holds] at below ⊢
      cases below
      rfl)
  have left : LineTree.Similar Eq source source (LineTree.ofLines lines) _ :=
    LineTree.similar_solid (fun _ => LineTree.nested_eq_nil_of_solid) bare_solid
  have right : LineTree.Similar Eq source' source' (LineTree.ofLines lines') _ :=
    LineTree.similar_solid (fun _ => LineTree.nested_eq_nil_of_solid) bare_solid'
  rw [elementsOf, elementsOf, (left.elements_agree .closed).eq, (right.elements_agree .closed).eq]
  exact similar.elements_agree .closed

/-- A template can be indented in another way, as long as the order of the indents is kept and
no text is nested that would be kept with its indents. -/
theorem parse_reindent (plain : source.isPlain = true) (plain' : source'.isPlain = true)
    (same : source.SameButIndents source')
    (unnamed : ∀ line ∈ (source.splitOn '\n').head?,
      ¬ Text.StartsWith .doctype (Text.trimStart line))
    (bare : source.NestsNoText) (template : Template) :
    parse source = .ok template ↔ parse source' = .ok template := by
  have unnamed' : ∀ line' ∈ (source'.splitOn '\n').head?,
      ¬ Text.StartsWith .doctype (Text.trimStart line') := by
    have heads := same.lines
    generalize source.splitOn '\n' = lines, source'.splitOn '\n' = lines' at heads unnamed
    cases heads with
    | nil => simp
    | cons first => simpa [first] using unnamed
  have returns {text : Text} (plain : text.isPlain = true) : '\r' ∉ text := fun member => by
    simpa using List.all_eq_true.mp plain '\r' member
  have moved := split_moved (p := .start) (q := .start) same.moved plain plain' rfl rfl
  have agree := elementsOf_moved same.sameOrder moved (bare _ (Token.ofText_eq_listFrom source))
  have named := doctypeOf_unnamed unnamed
  have named' := doctypeOf_unnamed unnamed'
  rw [parse_eq (returns plain), parse_eq (returns plain'), named, named', body_of_doctypeOf named,
    body_of_doctypeOf named']
  exact (agree.map fun _ _ same => congrArg (Template.mk none) same).ok_iff template

/-- Four blanks or a tab, blank lines and the `else` of a condition included. -/
theorem parse_reindent_tabs :
    parse "ul\n\tli: a x\n\n\tif c\n\t\tp\n\telse\n\t\t//d".toList = .ok ⟨none, [
      .tag { name := ['u', 'l'] } none [
        .tag { name := ['l', 'i'] } none [.tag { name := ['a'] } (some (.text ['x'])) []],
        .conditional ['c'] [.tag { name := ['p'] } none []] [.comment ['d'] true]]]⟩ := by
  have own : parse "ul\n    li: a x\n \n    if c\n        p\n    else\n        //d".toList =
      .ok ⟨none, [
        .tag { name := ['u', 'l'] } none [
          .tag { name := ['l', 'i'] } none [.tag { name := ['a'] } (some (.text ['x'])) []],
          .conditional ['c'] [.tag { name := ['p'] } none []] [.comment ['d'] true]]]⟩ := by
    cbv
  have bare : Text.NestsNoText
      "ul\n    li: a x\n \n    if c\n        p\n    else\n        //d".toList :=
    (Text.nestsNoText_iff _).mpr (by cbv)
  refine (parse_reindent ?_ ?_ ⟨?_, ?_⟩ ?_ bare _).mp own
  · decide
  · decide
  · decide
  · decide
  · intro line head
    obtain rfl : ['u', 'l'] = line := Option.some.inj head
    rintro ⟨rest, spelled, -⟩
    have first : ['u', 'l'] = Keyword.doctype.literal ++ rest := spelled
    simp [Keyword.literal] at first

end Template

end IndentMarkup
