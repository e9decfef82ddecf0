import IndentMarkup.Proofs.Template.Lines

/-! Reading a printed template gives the template back. By indentation the lines of an
element's children come under its own line, and each line opens the element that was
written there; an `else` finds its `if` right before it. -/
namespace IndentMarkup

variable {source : Text} {layout : Layout} {depth : Nat}

/-- The deeper lines that follow a line become its own, and nothing else does. -/
theorem LineTree.graft_nested {line : Line} {nested later : List LineTree}
    (solid : line.isBlank = false) (deeper : ∀ tree ∈ nested, line.indent < tree.indent)
    (shallow : ∀ tree ∈ later.head?, tree.indent ≤ line.indent) :
    graft line (nested ++ later) = ⟨line, line.indent, nested⟩ :: later := by
  have indent : indentBefore line (nested ++ later) = line.indent := by
    simp [indentBefore, solid]
  have inside : ∀ tree ∈ nested, decide (line.indent < tree.indent) = true := by
    simpa using deeper
  have outside : later.takeWhile (fun tree => decide (line.indent < tree.indent)) = [] ∧
      later.dropWhile (fun tree => decide (line.indent < tree.indent)) = later := by
    cases later with
    | nil => simp
    | cons tree more =>
      have here := shallow tree rfl
      simp [Nat.not_lt.mpr here]
  rw [graft, indent, List.takeWhile_append_of_pos inside, List.dropWhile_append_of_pos inside,
    outside.1, outside.2, List.append_nil]

/-- Sibling lines give the elements, whichever `if` may be open in front of them. -/
def LineTree.ReadAs (source : Text) (trees : List LineTree) (elements : List Element) : Prop :=
  ∀ condition : Option OpenCondition, LineTree.elements source condition trees =
    .ok ((condition.map (·.close [])).toList ++ elements)

namespace LineTree.ReadAs

theorem nil : ReadAs source [] [] := by
  intro condition
  simp [LineTree.elements]

theorem children {line : Line} {indent : Nat} {nested : List LineTree} {elements : List Element}
    (inside : ReadAs source nested elements) :
    LineTree.children source ⟨line, indent, nested⟩ = .ok elements := by
  simpa [LineTree.children] using inside none

end LineTree.ReadAs

/-- No line but an `else` is taken into the condition in front of it. -/
theorem PrintedLine.ReadFrom.unclaimed {printed : PrintedLine} {tree : LineTree}
    (reads : printed.ReadFrom source tree.line) (other : printed ≠ .otherwise)
    (condition : Option OpenCondition) : condition.filter (·.claims tree) = none := by
  obtain ⟨t, rest, first, -, kind⟩ := reads.exists_first
  have plain : t.kind ≠ .keyword .else := fun same => other (kind.mp same)
  rw [Option.filter_eq_none_iff]
  intro open_ _
  simp [OpenCondition.claims, first, Line.startsWith, plain]

namespace LineTree.ReadAs

variable {tree : LineTree} {later : List LineTree} {elements : List Element}

/-- A line that is not an `if` gives one element of its own. -/
theorem cons {printed : PrintedLine} {statement : Statement} {element : Element}
    (reads : printed.ReadFrom source tree.line) (said : printed.statement? = some statement)
    (unconditional : ∀ predicate, statement ≠ .condition predicate)
    (own : statement.element source tree.nested (tree.children source) = .ok element)
    (rest : ReadAs source later elements) :
    ReadAs source (tree :: later) (element :: elements) := by
  intro condition
  have other : printed ≠ .otherwise := by
    rintro rfl
    contradiction
  have line : Statement.ofLine source tree.line = .ok statement := by
    simpa [PrintedLine.ReadFrom, said] using reads
  rw [LineTree.elements, LineTree.isBlank, reads.isBlank, reads.unclaimed other condition, line]
  cases statement with
  | condition predicate => exact absurd rfl (unconditional predicate)
  | _ => simp [own, rest none, bind, Except.bind, pure, Except.pure]

/-- An `if` line waits for its `else`, and the lines behind it decide. -/
theorem cons_condition {predicate : Text} {thenBranch elseBranch : List Element}
    (reads : (PrintedLine.condition predicate).ReadFrom source tree.line)
    (own : tree.children source = .ok thenBranch)
    (rest : LineTree.elements source (some ⟨tree.indent, predicate, thenBranch⟩) later =
      .ok (.conditional predicate thenBranch elseBranch :: elements)) :
    ReadAs source (tree :: later) (.conditional predicate thenBranch elseBranch :: elements) := by
  intro condition
  have line : Statement.ofLine source tree.line = .ok (.condition predicate) := reads
  rw [LineTree.elements, LineTree.isBlank, reads.isBlank, reads.unclaimed nofun condition, line]
  simp [own, rest, bind, Except.bind, pure, Except.pure]

theorem cons_else {condition : OpenCondition} {branch : List Element}
    (reads : PrintedLine.otherwise.ReadFrom source tree.line)
    (beside : condition.indent = tree.indent) (own : tree.children source = .ok branch)
    (rest : ReadAs source later elements) :
    LineTree.elements source (some condition) (tree :: later) =
      .ok (condition.close branch :: elements) := by
  obtain ⟨t, left, first, -, kind⟩ := reads.exists_first
  have claimed : (some condition).filter (·.claims tree) = some condition := by
    simp [OpenCondition.claims, beside, first, Line.startsWith, kind.mpr rfl]
  have line : readElse tree.line = .ok () := reads
  rw [LineTree.elements, LineTree.isBlank, reads.isBlank, claimed]
  simp [line, own, rest none, bind, Except.bind, pure, Except.pure]

end LineTree.ReadAs

/-- In front of lines that are not deeper, the lines make trees of their own, and these are
of the shape. -/
def Layout.Groups (layout : Layout) (depth : Nat) (lines : List Line)
    (shape : List LineTree → Prop) : Prop :=
  ∀ later : List LineTree, (∀ tree ∈ later.head?, tree.indent ≤ depth * layout.step.length) →
    ∃ trees, lines.foldr LineTree.graft later = trees ++ later ∧
      (∀ tree ∈ trees, tree.indent = depth * layout.step.length) ∧ shape trees

namespace Layout.Groups

theorem nil : layout.Groups depth [] (· = []) :=
  fun _ _ => ⟨[], rfl, by simp, rfl⟩

theorem imp {lines : List Line} {shape wider : List LineTree → Prop}
    (groups : layout.Groups depth lines shape) (weaker : ∀ trees, shape trees → wider trees) :
    layout.Groups depth lines wider := by
  intro later shallow
  obtain ⟨trees, grown, flush, shaped⟩ := groups later shallow
  exact ⟨trees, grown, flush, weaker trees shaped⟩

/-- A line makes one tree with the lines that were written under it, and the lines behind
them go on beside it. -/
theorem tree {line : Line} {nested rest : List Line} {below beside : List LineTree → Prop}
    (solid : line.isBlank = false) (indent : line.indent = depth * layout.step.length)
    (inside : layout.Groups (depth + 1) nested below) (behind : layout.Groups depth rest beside) :
    layout.Groups depth (line :: (nested ++ rest)) fun trees =>
      ∃ children more, trees = ⟨line, line.indent, children⟩ :: more ∧ below children ∧
        beside more := by
  intro later shallow
  have positive := List.length_pos_iff.mpr layout.nonempty
  have step : (depth + 1) * layout.step.length =
      depth * layout.step.length + layout.step.length := Nat.succ_mul _ _
  obtain ⟨more, grown, flush, shaped⟩ := behind later shallow
  have shallow_more : ∀ tree ∈ (more ++ later).head?, tree.indent ≤ line.indent := by
    rw [indent]
    cases more with
    | nil => exact shallow
    | cons first others =>
      rintro tree ⟨rfl⟩
      exact Nat.le_of_eq (flush first (by simp))
  obtain ⟨children, grown_children, flush_children, shaped_children⟩ :=
    inside (more ++ later) fun tree member => by
      have := shallow_more tree member
      omega
  have deeper : ∀ tree ∈ children, line.indent < tree.indent := by
    intro tree member
    rw [flush_children tree member, indent]
    omega
  refine ⟨⟨line, line.indent, children⟩ :: more, ?_, ?_,
    children, more, rfl, shaped_children, shaped⟩
  · rw [List.foldr_cons, List.foldr_append, grown, grown_children,
      LineTree.graft_nested solid deeper shallow_more]
    rfl
  · intro tree member
    rcases List.mem_cons.mp member with rfl | member
    · exact indent
    · exact flush tree member

end Layout.Groups

/-- Lines that stand for one list of entries after another divide where the lists do. -/
theorem forall₂_append_right {α β : Type} {R : α → β → Prop} {lines : List α}
    {first second : List β} (reads : List.Forall₂ R lines (first ++ second)) :
    ∃ begun done, lines = begun ++ done ∧ List.Forall₂ R begun first ∧
      List.Forall₂ R done second :=
  ⟨_, _, (List.take_append_drop first.length lines).symm,
    List.forall₂_take_append _ _ _ reads, List.forall₂_drop_append _ _ _ reads⟩

/-- The lines of a forest are grouped as they were nested. -/
theorem Element.AllPrintable.groups {elements : List Element} {lines : List Line}
    (printable : AllPrintable elements)
    (reads : List.Forall₂ (layout.Reads source) lines (allPrinted layout depth elements)) :
    layout.Groups depth lines (LineTree.ReadAs source · elements) := by
  induction printable generalizing depth lines with
  | nil =>
    obtain rfl := List.forall₂_nil_right_iff.mp reads
    apply Layout.Groups.nil.imp
    rintro _ rfl
    exact .nil
  | tag own inside behind first rest =>
    simp only [allPrinted, Element.printed, List.cons_append] at reads
    obtain ⟨line, _, here, further, rfl⟩ := List.forall₂_cons_right_iff.mp reads
    obtain ⟨nested, done, rfl, below, after⟩ := forall₂_append_right further
    apply (Layout.Groups.tree here.2.isBlank here.1 (first below) (rest after)).imp
    rintro _ ⟨children, more, rfl, under, beside⟩
    exact .cons here.2 rfl (by simp) (by rw [under.children]; rfl) beside
  | text own behind rest =>
    simp only [allPrinted, Element.printed, List.singleton_append] at reads
    obtain ⟨line, done, here, after, rfl⟩ := List.forall₂_cons_right_iff.mp reads
    apply (Layout.Groups.tree here.2.isBlank here.1 .nil (rest after)).imp
    rintro _ ⟨_, more, rfl, rfl, beside⟩
    exact .cons here.2 rfl (by simp) rfl beside
  | @conditional predicate thenBranch elseBranch later own first second behind ih ih' rest =>
    simp only [allPrinted, Element.printed, List.cons_append, List.append_assoc] at reads
    obtain ⟨line, _, here, further, rfl⟩ := List.forall₂_cons_right_iff.mp reads
    obtain ⟨nested, _, rfl, below, beyond⟩ := forall₂_append_right further
    split at beyond
    next omitted =>
      obtain rfl : elseBranch = [] := by simp_all
      apply (Layout.Groups.tree here.2.isBlank here.1 (ih below) (rest beyond)).imp
      rintro _ ⟨children, more, rfl, under, beside⟩
      exact .cons_condition here.2 under.children (beside _)
    next =>
      obtain ⟨elseLine, _, other, within, rfl⟩ := List.forall₂_cons_right_iff.mp beyond
      obtain ⟨elseNested, done, rfl, elseBelow, after⟩ := forall₂_append_right within
      have otherwise :=
        Layout.Groups.tree other.2.isBlank other.1 (ih' elseBelow) (rest after)
      apply (Layout.Groups.tree here.2.isBlank here.1 (ih below) otherwise).imp
      rintro _ ⟨children, _, rfl, under, elseChildren, more, rfl, elseUnder, beside⟩
      have level : line.indent = elseLine.indent := here.1.trans other.1.symm
      exact .cons_condition here.2 under.children
        (LineTree.ReadAs.cons_else other.2 level elseUnder.children beside)
  | comment own behind rest =>
    simp only [allPrinted, Element.printed, List.singleton_append] at reads
    obtain ⟨line, done, here, after, rfl⟩ := List.forall₂_cons_right_iff.mp reads
    apply (Layout.Groups.tree here.2.isBlank here.1 .nil (rest after)).imp
    rintro _ ⟨_, more, rfl, rfl, beside⟩
    exact .cons here.2 rfl (by simp) rfl beside
  | marker own inside behind first rest =>
    simp only [allPrinted, Element.printed, List.cons_append] at reads
    obtain ⟨line, _, here, further, rfl⟩ := List.forall₂_cons_right_iff.mp reads
    obtain ⟨nested, done, rfl, below, after⟩ := forall₂_append_right further
    apply (Layout.Groups.tree here.2.isBlank here.1 (first below) (rest after)).imp
    rintro _ ⟨children, more, rfl, under, beside⟩
    exact .cons here.2 rfl (by simp) (by rw [under.children]; rfl) beside

theorem Layout.Groups.elements_ofLines {lines : List Line} {elements : List Element}
    (groups : layout.Groups 0 lines (LineTree.ReadAs source · elements)) :
    LineTree.elements source none (LineTree.ofLines lines) = .ok elements := by
  obtain ⟨trees, grown, -, readAs⟩ := groups [] (by simp)
  rw [List.append_nil] at grown
  rw [LineTree.ofLines, grown, readAs none]
  rfl

/-- No printed line is taken for a document type. -/
theorem PrintedLine.ReadFrom.head_ne_doctype {printed : PrintedLine} {t : Token} {rest : Line}
    (reads : printed.ReadFrom source (t :: rest)) : t.kind ≠ .keyword .doctype := by
  intro kind
  obtain ⟨first, left, same, other, -⟩ := reads.exists_first
  obtain ⟨rfl, -⟩ : t = first ∧ rest = left := by
    simpa [Line.skipSpace, kind] using same
  exact other kind

theorem Template.ofTokens_elements {elements : List Element} {tokens : List Token}
    {entries : List (Nat × PrintedLine)}
    (reads : List.Forall₂ (layout.Reads source) (Line.split tokens) entries)
    (groups : layout.Groups 0 (Line.split tokens) (LineTree.ReadAs source · elements)) :
    ofTokens source tokens = .ok ⟨none, elements⟩ := by
  have body := groups.elements_ofLines
  unfold ofTokens
  split
  next t rest more split =>
    rw [split] at reads body
    obtain ⟨⟨depth, printed⟩, _, own, -, -⟩ := List.forall₂_cons_left_iff.mp reads
    rw [if_neg own.2.head_ne_doctype, body]
    rfl
  next => rw [body]; rfl

theorem Template.exists_doctype_line {keyword tail : Text} {p : Position}
    (kept : keyword.Printable) (nonempty : keyword ≠ [])
    (placed : p.Before source ((Keyword.doctype.literal ++ ' ' :: keyword) ++ tail))
    (ended : LineEnd tail) :
    ∃ rest, MakesLine p (Keyword.doctype.literal ++ ' ' :: keyword) tail
        (⟨.keyword .doctype, Keyword.doctype.literal, p⟩ :: rest) ∧
      readDoctype source rest = .ok keyword := by
  have ends : EndsWord (' ' :: keyword ++ tail) := .inl (by decide)
  have begun := StartsLine.keyword (k := .doctype) p (by decide) ends
  rw [List.append_assoc] at placed
  obtain ⟨line, made, same, -⟩ := kept.exists_spaced_line (placed.advance _) ended
  refine ⟨_, begun.makesLine made, ?_⟩
  have trimmed : (line.sourceText source).trim = keyword := by
    rw [same, Text.trim, kept.leading, kept.trailing]
  cases keyword with
  | nil => contradiction
  | cons c rest =>
    simp [readDoctype, Line.expect, Line.startsWith, Line.next, trimmed, bind, Except.bind,
      pure, Except.pure]

theorem Template.ofTokens_doctype {keyword : Text} {elements : List Element} {tokens : List Token}
    {t : Token} {rest : Line} {body : List Line}
    (lines : Line.split tokens = (t :: rest) :: body) (kind : t.kind = .keyword .doctype)
    (first : readDoctype source rest = .ok keyword)
    (groups : layout.Groups 0 body (LineTree.ReadAs source · elements)) :
    ofTokens source tokens = .ok ⟨some keyword, elements⟩ := by
  simp [ofTokens, lines, kind, first, groups.elements_ofLines, bind, Except.bind, pure,
    Except.pure]

/-- However it is laid out, a template that can be printed is read from its print. -/
theorem parse_print (layout : Layout) {template : Template} (printable : template.Printable) :
    Template.parse (template.print layout) = .ok template := by
  obtain ⟨doctype, elements⟩ := template
  have entries := printable.elements.printed layout 0
  generalize whole : Template.print layout ⟨doctype, elements⟩ = source
  have normal : source.normalize = source := whole ▸ Template.normalize_print layout printable
  rw [Template.parse, normal, Token.ofText_eq_listFrom]
  cases doctype with
  | none =>
    have body : layout.join ((Element.allPrinted layout 0 elements).map layout.line) = source :=
      whole
    have placed : Position.start.Before source source := rfl
    have reads := layout.split_join entries (body ▸ placed)
    rw [body] at reads
    exact Template.ofTokens_elements reads (printable.elements.groups reads)
  | some keyword =>
    obtain ⟨kept, nonempty⟩ := printable.doctype keyword rfl
    obtain ⟨tail, joined, ended, body⟩ := layout.exists_join_cons
      (Keyword.doctype.literal ++ ' ' :: keyword)
      ((Element.allPrinted layout 0 elements).map layout.line)
    have spelled : source = (Keyword.doctype.literal ++ ' ' :: keyword) ++ tail :=
      whole.symm.trans joined
    have placed : Position.start.Before source
        ((Keyword.doctype.literal ++ ' ' :: keyword) ++ tail) := spelled
    obtain ⟨line, made, first⟩ := Template.exists_doctype_line kept nonempty placed ended
    have later := placed.behind_line
    have lines := split_makesLine made (by simp [Keyword.literal])
    rw [body] at later lines
    have reads := layout.split_join entries later
    rw [spelled] at reads ⊢
    exact Template.ofTokens_doctype lines rfl (spelled ▸ first)
      (printable.elements.groups reads)

/-- A text that ends its line in a dot, a name that is a keyword, a value over two lines and
an `else` without lines all come back. -/
theorem parse_print_rare :
    let layout : Layout := ⟨[' ', '\t'], List.cons_ne_nil _ _, rfl, [',', ' '], rfl, false, true⟩
    let template : Template := ⟨some ['5'], [
      .tag { name := ['p'], id := some ['i', 'f'], classes := [['a'], ['c', 'a', 's', 'e']] }
        (some (.text ['E', 'n', 'd', '.'])) [.text [], .comment ['/', 'x'] true],
      .conditional ['a', '=', ' ', 'b'] [.marker .for ['x'] [.comment [] false]] [],
      .tag { name := ['a'], attributes := [⟨['i', 'f'], ['1', '\n', '2']⟩, ⟨['b'], []⟩] }
        (some (.expression ['-', ' ', 'v', 'a', 'r'])) []]⟩
    template.Printable ∧ Template.parse (template.print layout) = .ok template ∧
      template.print layout = ("doctype 5\np#if.a.case End.\n \t| \n \t///x\nif a= b\n" ++
        " \tfor x\n \t \t//-\nelse\na(if=\"1\n2\", b=\"\")= - var").toList := by
  intro layout template
  have printable : template.Printable := by
    constructor
    · rintro keyword ⟨rfl⟩
      decide
    · exact .tag (by decide) (.text (by decide) (.comment (by decide) .nil))
        (.conditional (by decide) (.marker (by decide) (.comment (by decide) .nil) .nil) .nil
          (.tag (by decide) .nil .nil))
  exact ⟨printable, parse_print layout printable, rfl⟩

end IndentMarkup
