import IndentMarkup.Proofs.Statement.LastDot
import IndentMarkup.Proofs.Template.Append

/-! Templates with a line feed behind their end. It changes nothing, unless the last line is a tag that
is nothing but a dot: that is read at the end of the text, but not in front of a line feed. -/
namespace IndentMarkup

variable {source source' : Text} {q : Position} {trees trees' : List LineTree}

namespace LineTree

/-- No text is held by the `else` of a condition. -/
theorem holdsText_claimed {condition : Option OpenCondition} {own : OpenCondition}
    {tree : LineTree} (claimed : condition.filter (·.claims tree) = some own) :
    tree.line.holdsText source = false := by
  have claims := (Option.filter_eq_some_iff.mp claimed).2
  have marked := (Bool.and_eq_true_iff.mp claims).2
  rw [Line.holdsText]
  split
  next statement said => exact absurd said (Statement.ofLine_else marked statement)
  next => rfl

/-- A last line without anything under it. -/
theorem elementsFrom_leaf {line line' : Line} {indent : Nat} {statement statement' : Statement}
    (same : Statement.SameLeaf statement statement') (closed : List Element) :
    elementsFrom source closed ⟨line, indent, []⟩ [] statement =
      elementsFrom source closed ⟨line', indent, []⟩ [] statement' := by
  cases same with
  | same => cases statement <;> simp only [elementsFrom, LineTree.children]
  | @tag first second same =>
    simp only [elementsFrom, LineTree.children, elements, Option.map_none, Option.toList_none,
      element_tag_leaf, same.element]

section Behind

variable {later later' : List LineTree}

/-- One statement in front of lines that differ. -/
theorem elementsFrom_agree (closed : List Element) (tree : LineTree) (statement : Statement)
    (behind : ∀ condition, Agree AnyErrors Eq (elements source condition later)
      (elements source condition later')) :
    Agree AnyErrors Eq (elementsFrom source closed tree later statement)
      (elementsFrom source closed tree later' statement) := by
  obtain ⟨predicate, rfl⟩ | plain := statement.condition_or_plain
  · exact .bind_right _ fun branch => (behind _).bind_left _
  · rw [elementsFrom_of_ne _ _ plain, elementsFrom_of_ne _ _ plain]
    exact .bind_right _ fun element => (behind _).bind_left _

theorem elementsFrom_fails (closed : List Element) (tree : LineTree) (statement : Statement)
    (behind : ∀ condition, Fails (elements source condition later')) :
    Fails (elementsFrom source closed tree later' statement) := by
  obtain ⟨predicate, rfl⟩ | plain := statement.condition_or_plain
  · exact .behind _ fun _ => (behind _).bind _
  · rw [elementsFrom_of_ne _ _ plain]
    exact .behind _ fun _ => (behind _).bind _

/-- The difference is behind the first line. -/
theorem elements_beside (tree : LineTree) (behind : ∀ condition,
      Agree AnyErrors Eq (elements source condition later) (elements source condition later'))
    (condition : Option OpenCondition) :
    Agree AnyErrors Eq (elements source condition (tree :: later))
      (elements source condition (tree :: later')) := by
  by_cases blank : tree.isBlank = true
  · rw [elements_blank blank, elements_blank blank]
    exact behind condition
  have solid : tree.isBlank = false := by simpa using blank
  cases claimed : condition.filter (·.claims tree) with
  | some own =>
    rw [elements_else solid claimed, elements_else solid claimed]
    exact .bind_right _ fun _ => .bind_right _ fun branch => (behind none).bind_left _
  | none =>
    rw [elements_statement solid claimed, elements_statement solid claimed]
    exact .bind_right _ fun statement => elementsFrom_agree _ tree statement behind

theorem fails_beside (tree : LineTree)
    (behind : ∀ condition, Fails (elements source condition later'))
    (condition : Option OpenCondition) : Fails (elements source condition (tree :: later')) := by
  by_cases blank : tree.isBlank = true
  · rw [elements_blank blank]
    exact behind condition
  have solid : tree.isBlank = false := by simpa using blank
  cases claimed : condition.filter (·.claims tree) with
  | some own =>
    rw [elements_else solid claimed]
    exact .behind _ fun _ => .behind _ fun _ => (behind none).bind _
  | none =>
    rw [elements_statement solid claimed]
    exact .behind _ fun statement => elementsFrom_fails _ tree statement behind

end Behind

/-- The forests differ in their last lines alone, a dot in the one and a block marker in the other. -/
inductive LastFed (q : Position) : List LineTree → List LineTree → Prop where
  | here {line line' : Line} {indent : Nat} (fed : Line.Fed q line line') :
      LastFed q [⟨line, indent, []⟩] [⟨line', indent, []⟩]
  | inside {line : Line} {indent : Nat} {nested nested' : List LineTree}
      (solid : line.isBlank = false) (below : LastFed q nested nested') :
      LastFed q [⟨line, indent, nested⟩] [⟨line, indent, nested'⟩]
  | beside (tree : LineTree) {later later' : List LineTree} (behind : LastFed q later later') :
      LastFed q (tree :: later) (tree :: later')

/-- The last line is read as a statement, and its last tag is nothing but a dot. -/
inductive EndsLone (source : Text) : List LineTree → Prop where
  | here {line : Line} {indent : Nat} (lone : line.skipSpace.LoneDot) :
      EndsLone source [⟨line, indent, []⟩]
  | inside {line : Line} {indent : Nat} {nested : List LineTree}
      (structural : line.holdsText source = false) (below : EndsLone source nested) :
      EndsLone source [⟨line, indent, nested⟩]
  | beside (tree : LineTree) {later : List LineTree} (behind : EndsLone source later) :
      EndsLone source (tree :: later)

namespace EndsLone

theorem lone {line : Line} {indent : Nat} (ends : EndsLone source [⟨line, indent, []⟩]) :
    line.skipSpace.LoneDot := by
  cases ends with
  | here lone => exact lone
  | inside _ below => contradiction
  | beside _ behind => contradiction

theorem of_inside {line : Line} {indent : Nat} {nested : List LineTree}
    (ends : EndsLone source [⟨line, indent, nested⟩]) (nonempty : nested ≠ []) :
    line.holdsText source = false ∧ EndsLone source nested := by
  cases ends with
  | here => contradiction
  | inside structural below => exact ⟨structural, below⟩
  | beside _ behind => contradiction

theorem of_beside {tree : LineTree} {later : List LineTree}
    (ends : EndsLone source (tree :: later)) (nonempty : later ≠ []) : EndsLone source later := by
  cases ends with
  | here => contradiction
  | inside => contradiction
  | beside _ behind => exact behind

theorem congr (ends : EndsLone source trees)
    (same : ∀ line ∈ forestLines trees, line.holdsText source = line.holdsText source') :
    EndsLone source' trees := by
  induction ends with
  | here lone => exact .here lone
  | @inside line indent nested structural below ih =>
    refine .inside ?_ (ih fun line member => same line (by simp [forestLines, lines, member]))
    rw [← same line (by simp [forestLines, lines]), structural]
  | beside tree behind ih =>
    exact .beside tree (ih fun line member => same line (by simp [forestLines, member]))

end EndsLone

namespace LastFed

theorem ne_nil (fed : LastFed q trees trees') : trees ≠ [] ∧ trees' ≠ [] := by
  cases fed <;> exact ⟨List.cons_ne_nil _ _, List.cons_ne_nil _ _⟩

theorem head_indent (fed : LastFed q trees trees') :
    trees.head?.map indent = trees'.head?.map indent := by
  cases fed <;> rfl

/-- A line that is not blank is among them. -/
theorem find (fed : LastFed q trees trees') :
    (∃ tree, trees.find? (!·.isBlank) = some tree) ∧
      ∃ tree, trees'.find? (!·.isBlank) = some tree := by
  induction fed with
  | here fed => simp [isBlank, fed.isBlank]
  | inside solid => simp [isBlank, solid]
  | beside tree behind ih =>
    by_cases blank : tree.isBlank = true
    · simpa [blank] using ih
    · simp [blank]

theorem sameText (fed : LastFed q trees trees') (source : Text) :
    List.Forall₂ (SameText source source) (forestLines trees) (forestLines trees') := by
  have same (lines : List Line) : List.Forall₂ (SameText source source) lines lines :=
    List.forall₂_same.mpr fun _ _ => ⟨rfl, rfl, rfl⟩
  induction fed with
  | here fed =>
    simp only [forestLines, lines, List.append_nil]
    refine .cons ⟨?_, fed.indent, fed.sourceText source⟩ .nil
    rw [fed.isBlank.1, fed.isBlank.2]
  | inside solid below ih =>
    simp only [forestLines, lines, List.append_nil]
    exact .cons ⟨rfl, rfl, rfl⟩ ih
  | beside tree behind ih =>
    simp only [forestLines]
    exact List.rel_append (same tree.lines) ih

/-- The last line stays among the deeper ones in front, or it stays behind them. -/
theorem takeWhile (fed : LastFed q trees trees') (width : Nat) :
    (LastFed q (trees.takeWhile (width < ·.indent)) (trees'.takeWhile (width < ·.indent)) ∧
      trees.dropWhile (width < ·.indent) = [] ∧ trees'.dropWhile (width < ·.indent) = []) ∨
    (trees.takeWhile (width < ·.indent) = trees'.takeWhile (width < ·.indent) ∧
      LastFed q (trees.dropWhile (width < ·.indent)) (trees'.dropWhile (width < ·.indent))) := by
  induction fed with
  | @here line line' indent fed =>
    by_cases deeper : width < indent
    · exact .inl (by simpa [deeper] using LastFed.here fed)
    · exact .inr (by simpa [deeper] using LastFed.here fed)
  | @inside line indent nested nested' solid below =>
    by_cases deeper : width < indent
    · exact .inl (by simpa [deeper] using LastFed.inside solid below)
    · exact .inr (by simpa [deeper] using LastFed.inside solid below)
  | @beside tree later later' behind ih =>
    by_cases deeper : width < tree.indent
    · refine ih.imp (fun ⟨taken, left⟩ => ?_) fun ⟨taken, left⟩ => ?_
      · simpa [deeper] using And.intro (LastFed.beside tree taken) left
      · simpa [deeper] using And.intro taken left
    · exact .inr (by simpa [deeper] using LastFed.beside tree behind)

theorem graft (fed : LastFed q trees trees') (line : Line) :
    LastFed q (LineTree.graft line trees) (LineTree.graft line trees') := by
  by_cases blank : line.isBlank = true
  · rw [graft_blank blank, graft_blank blank, fed.head_indent]
    exact .beside _ fed
  · have indent (trees : List LineTree) : indentBefore line trees = line.indent := if_neg blank
    rw [LineTree.graft, LineTree.graft, indent, indent]
    obtain ⟨taken, left, left'⟩ | ⟨taken, left⟩ := fed.takeWhile line.indent
    · rw [left, left']
      exact .inside (by simpa using blank) taken
    · rw [taken]
      exact .beside _ left

theorem ofLines {line line' : Line} (fed : Line.Fed q line line') (front : List Line) :
    LastFed q (ofLines (front ++ [line])) (LineTree.ofLines (front ++ [line'])) := by
  induction front with
  | nil =>
    have indent : indentBefore line [] = indentBefore line' [] := by
      rw [indentBefore, indentBefore, if_neg (by simp [fed.isBlank]),
        if_neg (by simp [fed.isBlank]), fed.indent]
    change LastFed q [⟨line, indentBefore line [], []⟩] [⟨line', indentBefore line' [], []⟩]
    rw [← indent]
    exact .here fed
  | cons other front ih => exact ih.graft other

variable {nested nested' : List LineTree} {statement : Statement}
  {children children' : Except ParseError (List Element)}

/-- One statement on lines that differ below it. -/
theorem element_agree (below : LastFed q nested nested')
    (inside : statement.holdsText = false → Agree AnyErrors Eq children children') :
    Agree AnyErrors Eq (statement.element source nested children)
      (statement.element source nested' children') := by
  have text := blockText_congr (below.sameText source)
  cases statement with
  | tag line =>
    rw [Statement.element, Statement.element]
    split
    · exact .ok (by rw [text])
    next bare =>
      exact (inside (Bool.eq_false_iff.mpr bare)).map fun _ _ same => by rw [same]
  | piped value =>
    obtain ⟨⟨_, first⟩, ⟨_, first'⟩⟩ := below.find
    rw [Statement.element, Statement.element, first, first']
    exact .error trivial
  | comment value buffered => exact .ok (by rw [text])
  | marker kind argument => exact (inside rfl).map fun _ _ same => by rw [same]
  | condition predicate => exact (inside rfl).map fun _ _ same => by rw [same]

theorem element_fails (below : LastFed q nested nested') (bare : statement.holdsText = false)
    (inside : Fails children') : Fails (statement.element source nested' children') := by
  cases statement with
  | tag line =>
    have unheld : ¬ line.holdsText = true := Bool.eq_false_iff.mp bare
    rw [Statement.element, if_neg unheld]
    exact inside.map _
  | piped value =>
    obtain ⟨-, ⟨_, first⟩⟩ := below.find
    rw [Statement.element, first]
    exact .error _
  | comment value buffered => contradiction
  | marker kind argument => exact inside.map _
  | condition predicate => exact inside.map _

/-- And with nothing behind them. -/
theorem elementsFrom_inside (below : LastFed q nested nested') (closed : List Element)
    (line : Line) (indent : Nat) (inside : statement.holdsText = false → Agree AnyErrors Eq
      (LineTree.children source ⟨line, indent, nested⟩)
      (LineTree.children source ⟨line, indent, nested'⟩)) :
    Agree AnyErrors Eq (elementsFrom source closed ⟨line, indent, nested⟩ [] statement)
      (elementsFrom source closed ⟨line, indent, nested'⟩ [] statement) := by
  obtain ⟨predicate, rfl⟩ | plain := statement.condition_or_plain
  · exact (inside rfl).bind_left _
  · rw [elementsFrom_of_ne _ _ plain, elementsFrom_of_ne _ _ plain]
    exact (below.element_agree inside).bind_left _

/-- The first line itself differs, and it is the last one. -/
theorem elements_here {line line' : Line} (fed : Line.Fed q line line')
    (tagged : ¬ line.skipSpace.LoneDot) (indent : Nat) (condition : Option OpenCondition) :
    Agree AnyErrors Eq (elements source condition [⟨line, indent, []⟩])
      (elements source condition [⟨line', indent, []⟩]) := by
  have solid : isBlank ⟨line, indent, []⟩ = false := fed.isBlank.1
  have solid' : isBlank ⟨line', indent, []⟩ = false := fed.isBlank.2
  have claims (own : OpenCondition) :
      own.claims ⟨line, indent, []⟩ = own.claims ⟨line', indent, []⟩ := by
    rw [OpenCondition.claims, OpenCondition.claims,
      fed.skipSpace.startsWith (.keyword .else) (by simp) (by simp)]
  cases claimed : condition.filter (·.claims ⟨line, indent, []⟩) with
  | some own =>
    -- something stands behind the `else`, be it the dot or the block marker
    obtain ⟨_, wrong⟩ := (readElse_fails fed).1.exists_error
    obtain ⟨_, wrong'⟩ := (readElse_fails fed).2.exists_error
    have claimed' := claimed
    simp only [claims] at claimed'
    rw [elements_else solid claimed, elements_else solid' claimed', wrong, wrong']
    exact .error trivial
  | none =>
    have unclaimed := claimed
    simp only [claims] at unclaimed
    rw [elements_statement solid claimed, elements_statement solid' unclaimed]
    refine (Statement.ofLine_fed source fed tagged).bind fun statement statement' same => ?_
    rw [elementsFrom_leaf same]
    exact Agree.refl _

/-- The difference is below the first line, which is read alike then. -/
theorem elements_inside {line : Line} (solid : line.isBlank = false)
    (below : LastFed q nested nested') (inside : line.holdsText source = false →
      Agree AnyErrors Eq (elements source none nested) (elements source none nested'))
    (indent : Nat) (condition : Option OpenCondition) :
    Agree AnyErrors Eq (elements source condition [⟨line, indent, nested⟩])
      (elements source condition [⟨line, indent, nested'⟩]) := by
  have solid : isBlank ⟨line, indent, nested⟩ = false := solid
  have solid' : isBlank ⟨line, indent, nested'⟩ = false := solid
  have children (structural : line.holdsText source = false) :
      Agree AnyErrors Eq (LineTree.children source ⟨line, indent, nested⟩)
        (LineTree.children source ⟨line, indent, nested'⟩) := by
    simpa only [LineTree.children] using inside structural
  cases claimed : condition.filter (·.claims ⟨line, indent, nested⟩) with
  | some own =>
    have claimed' : condition.filter (·.claims ⟨line, indent, nested'⟩) = some own := claimed
    rw [elements_else solid claimed, elements_else solid' claimed']
    exact .bind_right _ fun _ => (children (holdsText_claimed claimed)).bind_left _
  | none =>
    have claimed' : condition.filter (·.claims ⟨line, indent, nested'⟩) = none := claimed
    rw [elements_statement solid claimed, elements_statement solid' claimed']
    cases said : Statement.ofLine source line with
    | error => exact .error trivial
    | ok statement =>
      have kept : line.holdsText source = statement.holdsText := by rw [Line.holdsText, said]
      change Agree AnyErrors Eq (elementsFrom ..) (elementsFrom ..)
      exact below.elementsFrom_inside _ line indent fun bare => children (kept.trans bare)

theorem fails_inside {line : Line} (solid : line.isBlank = false)
    (below : LastFed q nested nested') (structural : line.holdsText source = false)
    (inside : Fails (elements source none nested')) (indent : Nat)
    (condition : Option OpenCondition) :
    Fails (elements source condition [⟨line, indent, nested'⟩]) := by
  have solid : isBlank ⟨line, indent, nested'⟩ = false := solid
  have children : Fails (LineTree.children source ⟨line, indent, nested'⟩) := by
    simpa only [LineTree.children] using inside
  cases claimed : condition.filter (·.claims ⟨line, indent, nested'⟩) with
  | some own =>
    rw [elements_else solid claimed]
    exact .behind _ fun _ => children.bind _
  | none =>
    rw [elements_statement solid claimed]
    cases said : Statement.ofLine source line with
    | error => exact .error _
    | ok statement =>
      have bare : statement.holdsText = false := by rwa [Line.holdsText, said] at structural
      change Fails (elementsFrom ..)
      obtain ⟨predicate, rfl⟩ | plain := statement.condition_or_plain
      · exact children.bind _
      · rw [elementsFrom_of_ne _ _ plain]
        exact (below.element_fails bare children).bind _

/-- The block marker is read as the dot is, unless the dot is a tag by itself. -/
theorem elements_agree (fed : LastFed q trees trees') (unended : ¬ EndsLone source trees)
    (condition : Option OpenCondition) :
    Agree AnyErrors Eq (elements source condition trees) (elements source condition trees') := by
  induction fed generalizing condition with
  | here fed => exact elements_here fed (fun lone => unended (.here lone)) _ condition
  | inside solid below ih =>
    refine elements_inside solid below (fun structural => ?_) _ condition
    exact ih (fun ends => unended (.inside structural ends)) none
  | beside tree _ ih => exact elements_beside tree (ih fun ends => unended (.beside tree ends)) _

theorem elements_fails (fed : LastFed q trees trees') (ends : EndsLone source trees)
    (condition : Option OpenCondition) : Fails (elements source condition trees') := by
  induction fed generalizing condition with
  | @here line line' indent fed =>
    have solid : isBlank ⟨line', indent, []⟩ = false := fed.isBlank.2
    cases claimed : condition.filter (·.claims ⟨line', indent, []⟩) with
    | some own =>
      rw [elements_else solid claimed]
      exact (readElse_fails fed).2.bind _
    | none =>
      rw [elements_statement solid claimed]
      exact (Statement.ofLine_fails source fed ends.lone).bind _
  | inside solid below ih =>
    obtain ⟨structural, deeper⟩ := ends.of_inside below.ne_nil.1
    exact fails_inside solid below structural (ih deeper none) _ condition
  | beside tree behind ih => exact fails_beside tree (ih (ends.of_beside behind.ne_nil.1)) condition

end LastFed

end LineTree

namespace Template

variable {line line' : Line}

theorem readDoctype_fed (source : Text) (fed : Line.Fed q line line') :
    Agree AnyErrors Eq (readDoctype source line) (readDoctype source line') := by
  refine (fed.expect .space (by simp) (by simp)).bind ?_
  rintro ⟨_, rest⟩ ⟨_, rest'⟩ ⟨-, fed⟩
  dsimp only
  rw [Line.readRest_eq, Line.readRest_eq, fed.sourceText]
  exact Agree.refl _

theorem doctypeOf_fed (source : Text) (fed : Line.Fed q line line') (front : List Line) :
    Agree AnyErrors Eq (doctypeOf source (front ++ [line]))
      (doctypeOf source (front ++ [line'])) := by
  by_cases nonempty : front = []
  · subst nonempty
    cases fed with
    | last => exact .ok rfl
    | cons t later =>
      rw [List.nil_append, List.nil_append, doctypeOf, doctypeOf]
      split
      · exact (readDoctype_fed source later).map fun _ _ same => congrArg some same
      · exact .ok rfl
  · rw [doctypeOf_append nonempty, doctypeOf_append nonempty]
    exact Agree.refl _

/-- The last line names the document type, or it is in the body. -/
theorem body_fed (fed : Line.Fed q line line') (front : List Line) :
    (body (front ++ [line]) = [] ∧ body (front ++ [line']) = []) ∨
      ∃ kept, body (front ++ [line]) = kept ++ [line] ∧
        body (front ++ [line']) = kept ++ [line'] := by
  by_cases nonempty : front = []
  · subst nonempty
    cases fed with
    | last => exact .inr ⟨[], rfl, rfl⟩
    | cons t later =>
      rw [List.nil_append, List.nil_append, body, body]
      split
      · exact .inl ⟨rfl, rfl⟩
      · exact .inr ⟨[], rfl, rfl⟩
  · exact .inr ⟨body front, body_append nonempty _, body_append nonempty _⟩

theorem elementsOf_fed (source : Text) (fed : Line.Fed q line line') (front : List Line) :
    (¬ LineTree.EndsLone source (LineTree.ofLines (body (front ++ [line]))) →
      Agree AnyErrors Eq (elementsOf source (body (front ++ [line])))
        (elementsOf source (body (front ++ [line'])))) ∧
    (LineTree.EndsLone source (LineTree.ofLines (body (front ++ [line]))) →
      Fails (elementsOf source (body (front ++ [line'])))) := by
  obtain ⟨nothing, nothing'⟩ | ⟨kept, last, last'⟩ := body_fed fed front
  · rw [nothing, nothing']
    exact ⟨fun _ => Agree.refl _, fun ends => by cases ends⟩
  · rw [last, last']
    have trees := LineTree.LastFed.ofLines fed kept
    exact ⟨fun unended => trees.elements_agree unended none,
      fun ends => trees.elements_fails ends none⟩

/-- Carriage returns aside, the text ends in a dot, and the dot is the whole last tag of a statement. -/
def EndsInLoneDot (text : Text) : Prop :=
  text.normalize.getLast? = some '.' ∧
    LineTree.EndsLone text.normalize (LineTree.ofLines (body (linesOf text.normalize)))

/-- Whether the text ends so does not depend on the source that it is read in. -/
theorem endsLone_in_front {text : Text} (second : Text) :
    LineTree.EndsLone text (LineTree.ofLines (body (linesOf text))) ↔
      LineTree.EndsLone (text ++ second) (LineTree.ofLines (body (linesOf text))) := by
  have before : Position.start.Before text (text ++ []) := (List.append_nil text).symm
  have before' : Position.start.Before (text ++ second) (text ++ second) := rfl
  have alike : List.Forall₂ (Line.Alike Eq text (text ++ second)) (linesOf text) (linesOf text) :=
    Line.Alike.split_listFrom before before' fun _ _ same => by rw [same.eq]
  have own := List.forall₂_same.mp (body_alike alike)
  have holds : ∀ line ∈ LineTree.forestLines (LineTree.ofLines (body (linesOf text))),
      line.holdsText text = line.holdsText (text ++ second) := by
    rw [LineTree.forestLines_ofLines]
    exact fun line member => LineTree.holdsText_alike (own line member).skipSpace
  exact ⟨fun ends => ends.congr holds, fun ends => ends.congr fun line member =>
    (holds line member).symm⟩

/-- A line feed behind the end of a text. -/
theorem parse_feed_agree {text : Text} (plain : '\r' ∉ text) :
    (¬ (text.getLast? = some '.' ∧
        LineTree.EndsLone text (LineTree.ofLines (body (linesOf text)))) →
      Agree AnyErrors Eq (parse text) (parse (text ++ ['\n']))) ∧
    (text.getLast? = some '.' ∧
        LineTree.EndsLone text (LineTree.ofLines (body (linesOf text))) →
      Fails (parse (text ++ ['\n']))) := by
  have plain' : '\r' ∉ text ++ ['\n'] := by simpa using plain
  rw [parse_in_front plain ['\n'], parse_eq plain', endsLone_in_front ['\n']]
  generalize source_eq : text ++ ['\n'] = source
  have fed := Token.listFrom_feed .start text
  rw [source_eq] at fed
  obtain ⟨undotted, tokens⟩ | ⟨dotted, before, q, own, tokens⟩ := fed
  · refine ⟨fun _ => ?_, fun ends => absurd ends.1 undotted⟩
    have lines : linesOf source = linesOf text ∨ linesOf source = linesOf text ++ [[]] := by
      rw [linesOf, linesOf, tokens]
      exact Line.split_feed rfl
    rcases lines with same | more
    · rw [same]
      exact Agree.refl _
    · rw [more, doctypeOf_append_blank rfl, elementsOf_append_blank rfl]
      exact Agree.refl _
  · obtain ⟨front, start, cut⟩ := Line.exists_split_last before
    have lines : linesOf text = front ++ [start ++ [.dotAt q]] := by
      rw [linesOf, own, cut _ (by simp)]
    have lines' : linesOf source = front ++ [start ++ [.blockAt q]] := by
      rw [linesOf, tokens, cut _ (by simp)]
    have fed := Line.Fed.of_append q start
    have elements := elementsOf_fed source fed front
    rw [lines, lines']
    constructor
    · intro unended
      have same := elements.1 fun ends => unended ⟨dotted, ends⟩
      refine (doctypeOf_fed source fed front).bind fun doctype _ named => ?_
      subst named
      exact same.bind_left _
    · exact fun ends => .behind _ fun _ => (elements.2 ends.2).bind _

/-- A text and the text with a line feed behind it are the same template, or neither is one, unless
the text is one and ends in a lone dot: with the line feed it is none then. -/
theorem parse_feed (text : Text) :
    ((∀ template, parse text = .ok template ↔ parse (text ++ ['\n']) = .ok template) ↔
      ¬ (EndsInLoneDot text ∧ ∃ template, parse text = .ok template)) ∧
    (EndsInLoneDot text → ∃ error, parse (text ++ ['\n']) = .error error) := by
  have plain : '\r' ∉ text.normalize := by simp [Text.normalize]
  have fed : parse (text.normalize ++ ['\n']) = parse (text ++ ['\n']) := by
    have pieces : (text ++ ['\n']).normalize = text.normalize ++ ['\n'] := by
      simp [Text.normalize]
    rw [← pieces, parse_normalize]
  obtain ⟨agree, fails⟩ := parse_feed_agree plain
  rw [parse_normalize, fed] at agree
  rw [fed] at fails
  refine ⟨⟨fun same => ?_, fun other template => ?_⟩, fun ends => (fails ends).exists_error⟩
  · rintro ⟨ends, template, read⟩
    obtain ⟨error, wrong⟩ := (fails ends).exists_error
    rw [(same template).mp read] at wrong
    contradiction
  · by_cases ends : EndsInLoneDot text
    · obtain ⟨error, wrong⟩ := (fails ends).exists_error
      rw [wrong]
      exact iff_of_false (fun read => other ⟨ends, template, read⟩) (by simp)
    · exact (agree ends).ok_iff template

/-- So a final line feed does matter. -/
theorem not_parse_feed :
    ¬ ∀ text template, parse text = .ok template ↔ parse (text ++ ['\n']) = .ok template := by
  intro promised
  have read : parse ['.'] = .ok ⟨none, [.tag { name := "div".toList } none []]⟩ := by cbv
  have wrong : parse ['.', '\n'] = .error (.unexpectedToken ['.', '\n'] 1 1) := by cbv
  have same : parse ['.', '\n'] = _ := (promised _ _).mp read
  rw [wrong] at same
  contradiction

end Template

end IndentMarkup
