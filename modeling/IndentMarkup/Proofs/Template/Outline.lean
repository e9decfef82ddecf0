import IndentMarkup.Proofs.Template.Body

/-! What each line of a template gives. The nodes of a template are, in the order of the text,
those of its lines, and a line gives the same nodes whether or not others are nested under it.
Only `else` lines and the lines of a text give none. -/
namespace IndentMarkup

/-- What a node says of itself, apart from what it holds. -/
inductive Element.Head where
  | tag (head : TagHead)
  | loneAttribute (name value : Text)
  | text (value : Text)
  | expression (value : Text)
  | conditional (predicate : Text)
  | comment (buffered : Bool)
  | marker (kind : Marker) (argument : Text)
  deriving DecidableEq, Repr

mutual

/-- The heads of an element and of all nodes inside it, in the order of the text. -/
def Element.heads : Element → List Element.Head
  | .tag head _ children => .tag head :: Element.allHeads children
  | .loneAttribute name value => [.loneAttribute name value]
  | .text value => [.text value]
  | .expression value => [.expression value]
  | .conditional predicate thenBranch elseBranch =>
    .conditional predicate :: (Element.allHeads thenBranch ++ Element.allHeads elseBranch)
  | .comment _ buffered => [.comment buffered]
  | .marker kind argument children => .marker kind argument :: Element.allHeads children

def Element.allHeads : List Element → List Element.Head
  | [] => []
  | element :: later => element.heads ++ Element.allHeads later

end

theorem Element.allHeads_append (first second : List Element) :
    Element.allHeads (first ++ second) = Element.allHeads first ++ Element.allHeads second := by
  induction first with
  | nil => simp [allHeads]
  | cons element later ih => simp [allHeads, ih]

/-- The heads of the tags of a line, one for each link of the chain. -/
def TagLine.heads : TagLine → List Element.Head
  | .plain head _ => [.tag head]
  | .textBlock head => [.tag head]
  | .around head inner => .tag head :: inner.heads

/-- The heads that a line gives. -/
def Statement.heads : Statement → List Element.Head
  | .tag line => line.heads
  | .piped text => [.text text]
  | .comment _ buffered => [.comment buffered]
  | .marker kind argument => [.marker kind argument]
  | .condition predicate => [.conditional predicate]

theorem TagLine.heads_element (line : TagLine) (text : Text) (children : List Element) :
    (line.element text children).heads =
      line.heads ++ if line.holdsText then [] else Element.allHeads children := by
  induction line with
  | plain head content => simp [element, heads, holdsText, Element.heads]
  | textBlock head => simp [element, heads, holdsText, Element.heads, Element.allHeads]
  | around head inner ih =>
    simp only [element, heads, holdsText, Element.heads, Element.allHeads, ih, List.append_nil,
      List.cons_append]
    rfl

/-- A statement gives its own heads and those of the elements nested under it. -/
theorem Statement.heads_element {source : Text} {statement : Statement} {nested : List LineTree}
    {children : Except ParseError (List Element)} {element : Element}
    (made : statement.element source nested children = .ok element)
    (blank : nested.find? (!·.isBlank) = none → children = .ok []) :
    if statement.holdsText then element.heads = statement.heads
    else ∃ inner, children = .ok inner ∧
      element.heads = statement.heads ++ Element.allHeads inner := by
  cases statement with
  | tag line =>
    rw [Statement.element] at made
    by_cases holds : line.holdsText = true
    · rw [if_pos holds] at made
      obtain rfl := Except.ok.inj made
      simp [holdsText, holds, heads, line.heads_element]
    · rw [if_neg holds] at made
      cases children with
      | error error => contradiction
      | ok inner =>
        obtain rfl := Except.ok.inj made
        simp [holdsText, holds, heads, line.heads_element]
  | piped text =>
    rw [Statement.element] at made
    split at made
    · contradiction
    next none =>
      obtain rfl := Except.ok.inj made
      exact ⟨[], blank none, rfl⟩
  | comment text buffered =>
    obtain rfl := Except.ok.inj made
    rfl
  | marker kind argument =>
    cases children with
    | error error => contradiction
    | ok inner =>
      obtain rfl := Except.ok.inj made
      exact ⟨inner, rfl, rfl⟩
  | condition predicate =>
    cases children with
    | error error => contradiction
    | ok inner =>
      obtain rfl := Except.ok.inj made
      exact ⟨inner, rfl, by simp [Element.heads, Element.allHeads, heads]⟩

/-- An `else` adds what is nested under it. -/
theorem OpenCondition.heads_close (condition : OpenCondition) (branch : List Element) :
    (condition.close branch).heads =
      (condition.close []).heads ++ Element.allHeads branch := by
  simp [close, Element.heads, Element.allHeads]

/-- With nothing nested under it, it gives just its own. -/
theorem Statement.exists_element (source : Text) (statement : Statement) :
    ∃ element, statement.element source [] (.ok []) = .ok element ∧
      element.heads = statement.heads := by
  obtain ⟨element, made⟩ : ∃ element, statement.element source [] (.ok []) = .ok element := by
    cases statement with
    | tag line =>
      rw [Statement.element]
      split <;> exact ⟨_, rfl⟩
    | _ => exact ⟨_, rfl⟩
  refine ⟨element, made, ?_⟩
  have heads := Statement.heads_element made fun _ => rfl
  split at heads
  · exact heads
  · obtain ⟨inner, ⟨⟩, heads⟩ := heads
    rw [heads, Element.allHeads, List.append_nil]

/-- By itself the line is a statement, and these are the heads of its elements. -/
structure Line.Gives (source : Text) (line : Line) (heads : List Element.Head) : Prop where
  alone : (Template.elementsOf source [line]).map Element.allHeads = .ok heads
  statement : ∃ statement, Statement.ofLine source line = .ok statement ∧ heads = statement.heads

namespace LineTree

variable {source : Text}

theorem elements_nil : elements source none [] = .ok [] := by
  rw [elements]
  rfl

theorem elements_of_blank {trees : List LineTree} (blank : trees.find? (!·.isBlank) = none) :
    elements source none trees = .ok [] := by
  induction trees with
  | nil => exact elements_nil
  | cons tree later ih =>
    rw [List.find?_eq_none, List.forall_mem_cons] at blank
    rw [elements_blank (by simpa using blank.1)]
    exact ih (List.find?_eq_none.mpr blank.2)

theorem gives_of_statement {line : Line} {statement : Statement} (solid : line.isBlank = false)
    (said : Statement.ofLine source line = .ok statement) :
    line.Gives source statement.heads := by
  refine ⟨?_, statement, said, rfl⟩
  have alone : Template.elementsOf source [line] =
      elementsFrom source [] ⟨line, indentBefore line [], []⟩ [] statement := by
    refine (@elements_statement source none ⟨line, _, []⟩ solid rfl []).trans ?_
    rw [said]
    rfl
  have inside : LineTree.children source ⟨line, indentBefore line [], []⟩ = .ok [] := by
    rw [children, elements_nil]
  rw [alone]
  obtain ⟨predicate, rfl⟩ | plain := statement.condition_or_plain
  · rw [elementsFrom, inside]
    simp [bind, Except.bind, elements, Except.map, pure, Except.pure, OpenCondition.close,
      Element.allHeads, Element.heads, Statement.heads]
  · obtain ⟨element, made, heads⟩ := statement.exists_element source
    rw [elementsFrom_of_ne _ _ plain, inside, made]
    simp [bind, Except.bind, elements_nil, Except.map, pure, Except.pure, Element.allHeads, heads]

mutual

/-- The lines of a tree that give nodes: blank lines and `else` give none, nor do lines of a
text. -/
def structuralLines (source : Text) : LineTree → List Line
  | ⟨line, _, nested⟩ =>
    if line.isBlank then []
    else if line.skipSpace.startsWith (.keyword .else) then structural source nested
    else if line.holdsText source then [line]
    else line :: structural source nested

def structural (source : Text) : List LineTree → List Line
  | [] => []
  | tree :: later => tree.structuralLines source ++ structural source later

end

theorem structuralLines_eq (tree : LineTree) :
    tree.structuralLines source =
      if tree.isBlank then []
      else if tree.line.skipSpace.startsWith (.keyword .else) then structural source tree.nested
      else if tree.line.holdsText source then [tree.line]
      else tree.line :: structural source tree.nested := by
  obtain ⟨line, indent, nested⟩ := tree
  rw [structuralLines]
  rfl

theorem structural_blank {line : Line} (blank : line.isBlank = true) (indent : Nat)
    (nested later : List LineTree) :
    structural source (⟨line, indent, nested⟩ :: later) = structural source later := by
  rw [structural, structuralLines, if_pos blank, List.nil_append]

/-- A statement stands in front of those of the lines nested under it, unless they are its text. -/
theorem structural_statement {tree : LineTree} {statement : Statement} (solid : tree.isBlank = false)
    (said : Statement.ofLine source tree.line = .ok statement) (later : List LineTree) :
    structural source (tree :: later) =
      tree.line :: ((if statement.holdsText then [] else structural source tree.nested) ++
        structural source later) := by
  have unmarked : ¬ tree.line.skipSpace.startsWith (.keyword .else) = true :=
    fun marked => Statement.ofLine_else marked statement said
  have holds : tree.line.holdsText source = statement.holdsText := by rw [Line.holdsText, said]
  rw [structural, structuralLines_eq, if_neg (by simp [solid]), if_neg unmarked, holds]
  split <;> rfl

theorem structural_else {tree : LineTree} (solid : tree.isBlank = false)
    (marked : tree.line.skipSpace.startsWith (.keyword .else) = true) (later : List LineTree) :
    structural source (tree :: later) =
      structural source tree.nested ++ structural source later := by
  rw [structural, structuralLines_eq, if_neg (by simp [solid]), if_pos marked]

/-- The elements of the trees have the heads that the lines give, behind those of a condition
that is open in front of them. -/
def Outlined (source : Text) (trees : List LineTree) : Prop :=
  ∀ ⦃condition : Option OpenCondition⦄ ⦃made : List Element⦄,
    elements source condition trees = .ok made →
      ∃ own, List.Forall₂ (Line.Gives source) (structural source trees) own ∧
        Element.allHeads made =
          Element.allHeads (condition.map (·.close [])).toList ++ own.flatten

variable {tree : LineTree} {later : List LineTree} {condition : Option OpenCondition}
  {made : List Element}

theorem Outlined.inside (inside : Outlined source tree.nested) {branch : List Element}
    (read : tree.children source = .ok branch) :
    ∃ own, List.Forall₂ (Line.Gives source) (structural source tree.nested) own ∧
      Element.allHeads branch = own.flatten := by
  obtain ⟨line, indent, nested⟩ := tree
  rw [children] at read
  exact inside read

/-- The lines of a branch behind `else` give heads, and the `else` line gives none. -/
theorem heads_else {own : OpenCondition} (inside : Outlined source tree.nested)
    (behind : Outlined source later) (solid : tree.isBlank = false)
    (claimed : condition.filter (·.claims tree) = some own)
    (read : elements source condition (tree :: later) = .ok made) :
    ∃ heads, List.Forall₂ (Line.Gives source) (structural source (tree :: later)) heads ∧
      Element.allHeads made =
        Element.allHeads (condition.map (·.close [])).toList ++ heads.flatten := by
  rw [elements_else solid claimed] at read
  obtain ⟨rfl, claims⟩ := Option.filter_eq_some_iff.mp claimed
  obtain ⟨-, -, read⟩ := bind_ok read
  obtain ⟨branch, below, read⟩ := bind_ok read
  obtain ⟨more, beside, ⟨⟩⟩ := bind_ok read
  obtain ⟨first, gives, heads⟩ := inside.inside below
  obtain ⟨second, gives', heads'⟩ := behind beside
  have marked : tree.line.skipSpace.startsWith (.keyword .else) = true := by
    rw [OpenCondition.claims, Bool.and_eq_true] at claims
    exact claims.2
  rw [structural_else solid marked]
  refine ⟨first ++ second, List.rel_append gives gives', ?_⟩
  rw [Element.allHeads, own.heads_close, heads, heads']
  simp [Element.allHeads]

/-- A statement gives its own heads, and those of the lines nested under it unless it holds
text. -/
theorem heads_statement (inside : Outlined source tree.nested) (behind : Outlined source later)
    (solid : tree.isBlank = false) (unclaimed : condition.filter (·.claims tree) = none)
    (read : elements source condition (tree :: later) = .ok made) :
    ∃ heads, List.Forall₂ (Line.Gives source) (structural source (tree :: later)) heads ∧
      Element.allHeads made =
        Element.allHeads (condition.map (·.close [])).toList ++ heads.flatten := by
  rw [elements_statement solid unclaimed] at read
  obtain ⟨statement, said, read⟩ := bind_ok read
  have own := gives_of_statement solid said
  rw [structural_statement solid said]
  obtain ⟨predicate, rfl⟩ | plain := statement.condition_or_plain
  · rw [elementsFrom] at read
    obtain ⟨branch, below, read⟩ := bind_ok read
    obtain ⟨more, beside, ⟨⟩⟩ := bind_ok read
    obtain ⟨first, gives, heads⟩ := inside.inside below
    obtain ⟨second, gives', heads'⟩ := behind beside
    refine ⟨_, .cons own (List.rel_append gives gives'), ?_⟩
    simp [Element.allHeads_append, Element.allHeads, heads, heads', OpenCondition.close,
      Element.heads, Statement.heads]
  · rw [elementsFrom_of_ne _ _ plain] at read
    obtain ⟨element, said, read⟩ := bind_ok read
    obtain ⟨more, beside, ⟨⟩⟩ := bind_ok read
    obtain ⟨second, gives', heads'⟩ := behind beside
    have kept := Statement.heads_element said fun blank => by
      obtain ⟨line, indent, nested⟩ := tree
      exact elements_of_blank blank
    split
    next holds =>
      rw [if_pos holds] at kept
      refine ⟨_, .cons own gives', ?_⟩
      simp [Element.allHeads_append, Element.allHeads, kept, heads']
    next plain =>
      rw [if_neg plain] at kept
      obtain ⟨inner, below, kept⟩ := kept
      obtain ⟨first, gives, heads⟩ := inside.inside below
      refine ⟨_, .cons own (List.rel_append gives gives'), ?_⟩
      simp [Element.allHeads_append, Element.allHeads, kept, heads, heads']

theorem outlined (source : Text) (trees : List LineTree) : Outlined source trees := by
  induction trees using forest_induction with
  | nil =>
    intro condition made read
    rw [elements] at read
    obtain rfl := Except.ok.inj read
    exact ⟨[], .nil, by simp⟩
  | cons line indent nested later inside behind =>
    intro condition made read
    cases blank : isBlank ⟨line, indent, nested⟩ with
    | true =>
      rw [elements_blank blank] at read
      rw [structural_blank blank]
      exact behind read
    | false =>
      cases claimed : condition.filter (·.claims ⟨line, indent, nested⟩) with
      | some own => exact heads_else inside behind blank claimed read
      | none => exact heads_statement inside behind blank claimed read

theorem structural_append (first second : List LineTree) :
    structural source (first ++ second) = structural source first ++ structural source second := by
  induction first with
  | nil => rfl
  | cons tree later ih => simp [structural, ih]

theorem dropWhile_deeper (trees : List LineTree) {width inner : Nat} (deeper : width < inner) :
    (trees.dropWhile (inner < ·.indent)).dropWhile (width < ·.indent) =
      trees.dropWhile (width < ·.indent) := by
  induction trees with
  | nil => rfl
  | cons tree later ih =>
    by_cases inside : inner < tree.indent
    · have below : width < tree.indent := deeper.trans inside
      simpa [inside, below] using ih
    · simp [inside]

/-- Without the leading lines that are deeper, and blank ones among them, the same lines are
left before and after they are grouped. -/
theorem structural_dropWhile (lines : List Line) (width : Nat) :
    structural source ((ofLines lines).dropWhile (width < ·.indent)) =
      structural source
        (ofLines (lines.dropWhile fun line => line.isBlank || width < line.indent)) := by
  induction lines with
  | nil => rfl
  | cons line lines ih =>
    rw [ofLines_cons]
    by_cases blank : line.isBlank = true
    · rw [List.dropWhile_cons_of_pos (by simp [blank]), ← ih, graft_blank blank]
      generalize ofLines lines = trees
      cases trees with
      | nil => simp [structural, structuralLines, blank]
      | cons tree more =>
        by_cases deeper : width < tree.indent
        · simp [deeper]
        · simp [deeper, structural_blank blank]
    · have own : indentBefore line (ofLines lines) = line.indent := if_neg blank
      rw [graft, own]
      by_cases deeper : width < line.indent
      · rw [List.dropWhile_cons_of_pos (by simpa using deeper), dropWhile_deeper _ deeper, ih,
          List.dropWhile_cons_of_pos (by simp [deeper])]
      · rw [List.dropWhile_cons_of_neg (by simpa using deeper),
          List.dropWhile_cons_of_neg (by simp [blank, deeper]), ofLines_cons, graft, own]

end LineTree

namespace Template

/-- The lines that give nodes, told by their indents: a line that holds text takes in the deeper
lines behind it. -/
def outline (source : Text) : List Line → List Line
  | [] => []
  | line :: later =>
    if line.isBlank || line.skipSpace.startsWith (.keyword .else) then outline source later
    else if line.holdsText source then
      line :: outline source (later.dropWhile fun next => next.isBlank || line.indent < next.indent)
    else line :: outline source later
termination_by lines => lines.length
decreasing_by
  all_goals simp only [List.length_cons, Nat.lt_succ_iff]
  · exact Nat.le_refl _
  · exact (List.dropWhile_sublist _).length_le
  · exact Nat.le_refl _

theorem structural_ofLines (source : Text) (lines : List Line) :
    LineTree.structural source (LineTree.ofLines lines) = outline source lines := by
  fun_induction outline source lines with
  | case1 => simp [LineTree.ofLines, LineTree.structural]
  | case2 line later passed ih =>
    rw [← ih, LineTree.ofLines_cons]
    by_cases blank : line.isBlank = true
    · rw [LineTree.graft_blank blank, LineTree.structural_blank blank]
    · have marked : line.skipSpace.startsWith (.keyword .else) = true := by
        simpa [blank] using passed
      rw [LineTree.graft, LineTree.structural, LineTree.structuralLines, if_neg blank,
        if_pos marked, ← LineTree.structural_append, List.takeWhile_append_dropWhile]
  | case3 line later kept holds ih =>
    obtain ⟨solid, unmarked⟩ := not_or.mp (mt (Bool.or_eq_true_iff).mpr kept)
    have own : LineTree.indentBefore line (LineTree.ofLines later) = line.indent := if_neg solid
    rw [← ih, LineTree.ofLines_cons, LineTree.graft, own, LineTree.structural,
      LineTree.structuralLines, if_neg solid, if_neg unmarked, if_pos holds,
      List.singleton_append, LineTree.structural_dropWhile]
  | case4 line later kept plain ih =>
    obtain ⟨solid, unmarked⟩ := not_or.mp (mt (Bool.or_eq_true_iff).mpr kept)
    rw [← ih, LineTree.ofLines_cons, LineTree.graft, LineTree.structural,
      LineTree.structuralLines, if_neg solid, if_neg unmarked, if_neg plain, List.cons_append,
      ← LineTree.structural_append, List.takeWhile_append_dropWhile]

/-- The nodes of a template are those that its lines give by themselves, in the order of the
lines. -/
theorem heads_of_parse {text : Text} {template : Template} (read : parse text = .ok template) :
    ∃ own, List.Forall₂ (Line.Gives text.normalize)
        (outline text.normalize (body (linesOf text.normalize))) own ∧
      Element.allHeads template.elements = own.flatten := by
  have plain : '\r' ∉ text.normalize := by simp [Text.normalize]
  have normal : parse text.normalize = parse text := by
    simp only [parse, Text.normalize_idem]
  rw [← normal, parse_eq plain] at read
  obtain ⟨doctype, -, read⟩ := bind_ok read
  obtain ⟨elements, made, ⟨⟩⟩ := bind_ok read
  obtain ⟨own, gives, heads⟩ := LineTree.outlined _ _ made
  rw [structural_ofLines] at gives
  exact ⟨own, gives, heads⟩

/-- A chain of tags gives one node for each, what stands under the block marker gives none, and
the branches of a condition follow each other. -/
theorem heads_of_parse_chain :
    ∃ text template, parse text = .ok template ∧
      Element.allHeads template.elements = [.conditional ['a'], .tag { name := ['b'] },
        .tag { name := ['c'] }, .text ['d'], .comment true] ∧
      ∃ own, List.Forall₂ (Line.Gives (Text.normalize text))
          (outline (Text.normalize text) (body (linesOf (Text.normalize text)))) own ∧
        Element.allHeads template.elements = own.flatten := by
  have read : parse "doctype 5\nif a\n b: c.\n  else\n\n |d\nelse\n //e\n  f".toList =
      .ok ⟨some ['5'], [.conditional ['a']
        [.tag { name := ['b'] } none [.tag { name := ['c'] } (some (.text "else".toList)) []],
          .text ['d']] [.comment "e\nf".toList true]]⟩ := by
    cbv
  exact ⟨_, _, read, by simp [Element.allHeads, Element.heads], heads_of_parse read⟩

end Template

end IndentMarkup
