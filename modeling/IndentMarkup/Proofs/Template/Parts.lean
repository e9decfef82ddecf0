import IndentMarkup.Proofs.Line.Nesting
import IndentMarkup.Proofs.Template.Siblings

/-! The nodes of a template and the lines that they come from. What becomes of sibling lines is said
once as a relation, with an `if` line and its `else` taken together, and what holds of the nodes
follows by induction on it. -/
namespace IndentMarkup

mutual

/-- An element and all nodes inside it, in the order of the text. -/
def Element.parts : Element → List Element
  | .tag head content children => .tag head content children :: Element.within children
  | .conditional predicate thenBranch elseBranch =>
    .conditional predicate thenBranch elseBranch ::
      (Element.within thenBranch ++ Element.within elseBranch)
  | .marker kind argument children => .marker kind argument children :: Element.within children
  | .loneAttribute name value => [.loneAttribute name value]
  | .text value => [.text value]
  | .expression value => [.expression value]
  | .comment body buffered => [.comment body buffered]

def Element.within : List Element → List Element
  | [] => []
  | element :: later => element.parts ++ Element.within later

end

/-- What a tag line says of each link of its chain. -/
def TagLine.links : TagLine → List TagLine
  | .around head inner => .plain head none :: inner.links
  | line => [line]

/-- What a line says of each node that it gives. -/
def Statement.links : Statement → List Statement
  | .tag line => line.links.map .tag
  | statement => [statement]

/-- The node is what the statement says, whatever it holds besides. -/
inductive Statement.GivesPart : Statement → Element → Prop where
  | tag {head : TagHead} {content : Option Content} {children : List Element} :
      GivesPart (.tag (.plain head content)) (.tag head content children)
  | textBlock {head : TagHead} {body : Option Content} :
      GivesPart (.tag (.textBlock head)) (.tag head body [])
  | piped {text : Text} : GivesPart (.piped text) (.text text)
  | comment {text : Text} {buffered : Bool} :
      GivesPart (.comment text buffered) (.comment text buffered)
  | commentBody {text body : Text} {buffered : Bool} :
      GivesPart (.comment text buffered) (.comment (text ++ '\n' :: body) buffered)
  | marker {kind : Marker} {argument : Text} {children : List Element} :
      GivesPart (.marker kind argument) (.marker kind argument children)
  | condition {predicate : Text} {thenBranch elseBranch : List Element} :
      GivesPart (.condition predicate) (.conditional predicate thenBranch elseBranch)

theorem TagLine.parts_element (line : TagLine) (text : Text) (children : List Element) :
    ∃ own, List.Forall₂ Statement.GivesPart (Statement.tag line).links own ∧
      (line.element text children).parts =
        own ++ if line.holdsText then [] else Element.within children := by
  induction line with
  | plain head content =>
    refine ⟨[.tag head content children], .cons .tag .nil, ?_⟩
    simp [element, holdsText, Element.parts]
  | textBlock head =>
    refine ⟨[(textBlock head).element text children], .cons .textBlock .nil, ?_⟩
    simp [element, holdsText, Element.parts, Element.within]
  | around head inner ih =>
    obtain ⟨own, gives, parts⟩ := ih
    refine ⟨(around head inner).element text children :: own, .cons .tag gives, ?_⟩
    simp only [element, holdsText, Element.parts, Element.within, parts, List.append_nil,
      List.cons_append]
    rfl

/-- An element is one node for each link, and then what is nested under it if that is no text. -/
theorem Statement.parts_element {source : Text} {statement : Statement} {nested : List LineTree}
    {children : Except ParseError (List Element)} {element : Element}
    (made : statement.element source nested children = .ok element)
    (blank : nested.find? (!·.isBlank) = none → children = .ok []) :
    ∃ own inner, List.Forall₂ GivesPart statement.links own ∧
      element.parts = own ++ Element.within inner ∧
      if statement.holdsText then inner = [] else children = .ok inner := by
  cases statement with
  | tag line =>
    rw [Statement.element] at made
    by_cases holds : line.holdsText = true
    · rw [if_pos holds] at made
      obtain rfl := Except.ok.inj made
      obtain ⟨own, gives, parts⟩ := line.parts_element (blockText source nested) []
      exact ⟨own, [], gives, by simp [parts, Element.within], by simp [holdsText, holds]⟩
    · rw [if_neg holds] at made
      cases children with
      | error error => contradiction
      | ok inner =>
        obtain rfl := Except.ok.inj made
        obtain ⟨own, gives, parts⟩ := line.parts_element [] inner
        exact ⟨own, inner, gives, by simp [parts, holds], by simp [holdsText, holds]⟩
  | piped text =>
    rw [Statement.element] at made
    split at made
    · contradiction
    next none =>
      obtain rfl := Except.ok.inj made
      exact ⟨_, [], .cons .piped .nil, rfl, blank none⟩
  | comment text buffered =>
    obtain rfl := Except.ok.inj made
    refine ⟨_, [], .cons ?_ .nil, rfl, rfl⟩
    split
    · exact .comment
    · exact .commentBody
  | marker kind argument =>
    cases children with
    | error error => contradiction
    | ok inner =>
      obtain rfl := Except.ok.inj made
      exact ⟨_, inner, .cons .marker .nil, rfl, rfl⟩
  | condition predicate =>
    cases children with
    | error error => contradiction
    | ok inner =>
      obtain rfl := Except.ok.inj made
      refine ⟨[.conditional predicate inner []], inner, .cons .condition .nil, ?_, rfl⟩
      simp [Element.parts, Element.within]

namespace LineTree

variable {source : Text}

/-- What becomes of sibling lines. A blank line is passed over. An `if` line takes the next line that
is not blank if that says `else` at the same indent, and any other line makes an element by
itself. No statement says `else`, so such a line behind an `if` is never left over. -/
inductive Become (source : Text) : List LineTree → List Element → Prop where
  | nil : Become source [] []
  | blank {tree : LineTree} {later : List LineTree} {elements : List Element}
      (blank : tree.isBlank = true) (behind : Become source later elements) :
      Become source (tree :: later) elements
  | statement {tree : LineTree} {later : List LineTree} {statement : Statement}
      {element : Element} {elements : List Element} (solid : tree.isBlank = false)
      (said : Statement.ofLine source tree.line = .ok statement)
      (plain : ∀ predicate, statement ≠ .condition predicate)
      (made : statement.element source tree.nested (tree.children source) = .ok element)
      (inside : ∀ inner, tree.children source = .ok inner → Become source tree.nested inner)
      (behind : Become source later elements) : Become source (tree :: later) (element :: elements)
  | condition {tree : LineTree} {later : List LineTree} {predicate : Text}
      {branch elements : List Element} (solid : tree.isBlank = false)
      (said : Statement.ofLine source tree.line = .ok (.condition predicate))
      (read : tree.children source = .ok branch) (inside : Become source tree.nested branch)
      (behind : Become source later elements) :
      Become source (tree :: later) (.conditional predicate branch [] :: elements)
  | branches {tree other : LineTree} {blanks later : List LineTree} {predicate : Text}
      {thenBranch elseBranch elements : List Element} (solid : tree.isBlank = false)
      (said : Statement.ofLine source tree.line = .ok (.condition predicate))
      (read : tree.children source = .ok thenBranch) (inside : Become source tree.nested thenBranch)
      (blank : ∀ tree ∈ blanks, tree.isBlank = true) (solid' : other.isBlank = false)
      (level : tree.indent = other.indent)
      (marked : other.line.skipSpace.startsWith (.keyword .else) = true)
      (bare : readElse other.line = .ok ())
      (read' : other.children source = .ok elseBranch)
      (inside' : Become source other.nested elseBranch) (behind : Become source later elements) :
      Become source (tree :: (blanks ++ other :: later))
        (.conditional predicate thenBranch elseBranch :: elements)

/-- What becomes of the lines behind an `if` that is open: it takes its `else`, or it is closed
without one. -/
inductive Resume (source : Text) (own : OpenCondition) : List LineTree → List Element → Prop where
  | closed {trees : List LineTree} {elements : List Element} (behind : Become source trees elements) :
      Resume source own trees (own.close [] :: elements)
  | claimed {other : LineTree} {blanks later : List LineTree} {branch elements : List Element}
      (blank : ∀ tree ∈ blanks, tree.isBlank = true) (solid : other.isBlank = false)
      (claims : own.claims other = true) (bare : readElse other.line = .ok ())
      (read : other.children source = .ok branch) (inside : Become source other.nested branch)
      (behind : Become source later elements) :
      Resume source own (blanks ++ other :: later) (own.close branch :: elements)

theorem Resume.blank {own : OpenCondition} {tree : LineTree} {later : List LineTree}
    {elements : List Element} (blank : tree.isBlank = true)
    (resume : Resume source own later elements) : Resume source own (tree :: later) elements := by
  cases resume with
  | closed behind => exact .closed (.blank blank behind)
  | claimed blanks solid claims bare read inside behind =>
    rw [← List.cons_append]
    exact .claimed (List.forall_mem_cons.mpr ⟨blank, blanks⟩) solid claims bare read inside behind

/-- The condition of an `if` line with what it took from the lines behind it. -/
theorem Resume.become {tree : LineTree} {later : List LineTree} {predicate : Text}
    {branch elements : List Element} (solid : tree.isBlank = false)
    (said : Statement.ofLine source tree.line = .ok (.condition predicate))
    (read : tree.children source = .ok branch) (inside : Become source tree.nested branch)
    (resume : Resume source ⟨tree.indent, predicate, branch⟩ later elements) :
    Become source (tree :: later) elements := by
  cases resume with
  | closed behind => exact .condition solid said read inside behind
  | claimed blank solid' claims bare read' inside' behind =>
    rw [OpenCondition.claims, Bool.and_eq_true, decide_eq_true_eq] at claims
    exact .branches solid said read inside blank solid' claims.1 claims.2 bare read' inside' behind

/-- A line that no open condition takes, when what is nested under it and what stands behind it
are known. -/
theorem become_of_elementsFrom {tree : LineTree} {later : List LineTree} {statement : Statement}
    {made : List Element} (solid : tree.isBlank = false)
    (said : Statement.ofLine source tree.line = .ok statement)
    (inside : ∀ inner, tree.children source = .ok inner → Become source tree.nested inner)
    (behind : ∀ rest, elements source none later = .ok rest → Become source later rest)
    (resume : ∀ own rest, elements source (some own) later = .ok rest →
      Resume source own later rest)
    (read : elementsFrom source [] tree later statement = .ok made) :
    Become source (tree :: later) made := by
  obtain ⟨predicate, rfl⟩ | plain := statement.condition_or_plain
  · rw [elementsFrom] at read
    obtain ⟨branch, below, read⟩ := bind_ok read
    obtain ⟨rest, beside, ⟨⟩⟩ := bind_ok read
    exact (resume _ rest beside).become solid said below (inside branch below)
  · rw [elementsFrom_of_ne [] later plain] at read
    obtain ⟨element, made, read⟩ := bind_ok read
    obtain ⟨rest, beside, ⟨⟩⟩ := bind_ok read
    exact .statement solid said plain made inside (behind rest beside)

/-- Lines that are read as elements become those, also behind an `if` that is open. -/
theorem become_of_elements {trees : List LineTree} {made : List Element} :
    (elements source none trees = .ok made → Become source trees made) ∧
      ∀ own, elements source (some own) trees = .ok made → Resume source own trees made := by
  induction trees using forest_induction generalizing made with
  | nil =>
    constructor
    · intro read
      rw [elements] at read
      obtain rfl := Except.ok.inj read
      exact .nil
    · intro own read
      rw [elements] at read
      obtain rfl := Except.ok.inj read
      exact .closed .nil
  | cons line indent nested later inside behind =>
    have below : ∀ inner, LineTree.children source ⟨line, indent, nested⟩ = .ok inner →
        Become source nested inner := by
      intro inner read
      exact inside.1 ((children_eq _).symm.trans read)
    have beside : ∀ statement rest, isBlank ⟨line, indent, nested⟩ = false →
        Statement.ofLine source line = .ok statement →
        elementsFrom source [] ⟨line, indent, nested⟩ later statement = .ok rest →
        Become source (⟨line, indent, nested⟩ :: later) rest :=
      fun statement rest solid said => become_of_elementsFrom solid said below
        (fun rest => behind.1) (fun own rest => behind.2 own)
    cases blank : isBlank ⟨line, indent, nested⟩ with
    | true =>
      simp only [elements_blank blank]
      exact ⟨fun read => .blank blank (behind.1 read), fun own read => (behind.2 own read).blank blank⟩
    | false =>
      constructor
      · intro read
        rw [elements_statement blank rfl] at read
        obtain ⟨statement, said, read⟩ := bind_ok read
        exact beside statement made blank said read
      · intro own read
        by_cases claims : own.claims ⟨line, indent, nested⟩ = true
        · have own_claims : (some own).filter (·.claims ⟨line, indent, nested⟩) = some own := by
            simp [claims]
          rw [elements_else blank own_claims] at read
          obtain ⟨⟨⟩, bare, read⟩ := bind_ok read
          obtain ⟨branch, children, read⟩ := bind_ok read
          obtain ⟨rest, later, ⟨⟩⟩ := bind_ok read
          exact (.claimed (List.forall_mem_nil _) blank claims bare children (below branch children)
            (behind.1 later) : Resume source own ([] ++ _ :: _) _)
        · rw [elements_statement blank (by simp [claims])] at read
          obtain ⟨statement, said, read⟩ := bind_ok read
          rw [elementsFrom_closed] at read
          obtain ⟨rest, made, rfl⟩ := map_ok read
          exact .closed (beside statement rest blank said made)

end LineTree

end IndentMarkup
