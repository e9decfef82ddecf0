import IndentMarkup.Proofs.Statement.Stripped
import IndentMarkup.Proofs.Template.Append
import IndentMarkup.Proofs.Template.Reindent

/-! Templates without the blanks at the ends of their lines. What is read from a source is read from the
source without them, as long as no text is nested that would lose them. -/
namespace IndentMarkup

/-- Every string of the text ends on the line that it begins on. -/
def Text.StringsInLines (text : Text) : Prop :=
  ∀ tokens, Token.ofText text = .ok tokens → Token.StringsInLines tokens

theorem Text.stringsInLines_iff (text : Text) : text.StringsInLines ↔
    (match Token.ofText text with
      | .ok tokens => tokens.all fun t => t.kind ≠ .quoted || !t.text.contains '\n'
      | .error _ => true) = true := by
  rw [StringsInLines]
  cases Token.ofText text with
  | error error => simp
  | ok tokens =>
    simp only [Except.ok.injEq, forall_eq']
    simp [Token.StringsInLines, imp_iff_not_or]

variable {source source' : Text}

namespace LineTree

variable {trees trees' : List LineTree}

/-- Both forests hold a line that is not blank, or neither does. -/
theorem find_stripped (parallel : Parallel (Line.Stripped source source') Eq trees trees')
    (nothing : trees.find? (!·.isBlank) = none) : trees'.find? (!·.isBlank) = none := by
  induction parallel with
  | nil => rfl
  | @cons line line' _ _ _ _ _ _ same _ _ _ _ ih =>
    by_cases blank : line.isBlank = true
    · have blank' : line'.isBlank = true := same.isBlank ▸ blank
      simpa [isBlank, blank'] using ih (by simpa [isBlank, blank] using nothing)
    · simp [isBlank, blank] at nothing

/-- What a statement makes of the lines nested under it, which are none if they are text. -/
theorem element_stripped {statement : Statement}
    (parallel : Parallel (Line.Stripped source source') Eq trees trees')
    (bare : statement.holdsText = true → trees = [])
    {children children' : Except ParseError (List Element)}
    (inside : Follows Eq children children') :
    Follows Eq (statement.element source trees children)
      (statement.element source' trees' children') := by
  have text (holds : statement.holdsText = true) :
      blockText source trees = blockText source' trees' := by
    obtain rfl := bare holds
    cases parallel
    rfl
  cases statement with
  | tag line =>
    rw [Statement.element, Statement.element]
    split
    next holds => exact .ok (by rw [text holds])
    next => exact inside.map fun _ _ same => by rw [same]
  | piped value =>
    rw [Statement.element, Statement.element]
    cases nothing : trees.find? (!·.isBlank) with
    | some => exact .error _ _
    | none =>
      rw [find_stripped parallel nothing]
      exact .ok rfl
  | comment value buffered => exact .ok (by rw [text rfl])
  | marker kind argument => exact inside.map fun _ _ same => by rw [same]
  | condition predicate => exact inside.map fun _ _ same => by rw [same]

/-- The elements of lines are those of the lines without the blanks at their ends. -/
theorem elements_stripped (parallel : Parallel (Line.Stripped source source') Eq trees trees')
    (bare : ∀ tree ∈ within trees, tree.line.holdsText source = true → tree.nested = [])
    (condition : Option OpenCondition) :
    Follows Eq (elements source condition trees) (elements source' condition trees') := by
  induction parallel generalizing condition with
  | nil => rw [elements, elements]; exact .ok rfl
  | @cons line line' indent _ nested nested' later later' same level inside behind ih rest =>
    subst level
    have below := ih fun tree member => bare tree (by simp [within, member])
    have beside := rest fun tree member => bare tree (by simp [within, member])
    have children : Follows Eq (LineTree.children source ⟨line, indent, nested⟩)
        (LineTree.children source' ⟨line', indent, nested'⟩) := by
      simpa only [LineTree.children] using below none
    by_cases blank : line.isBlank = true
    · have blank' : isBlank ⟨line', indent, nested'⟩ = true := same.isBlank.symm.trans blank
      rw [elements_blank (show isBlank ⟨line, indent, nested⟩ = true from blank), elements_blank blank']
      exact beside condition
    have solid : isBlank ⟨line, indent, nested⟩ = false := by simpa [isBlank] using blank
    have solid' : isBlank ⟨line', indent, nested'⟩ = false := by
      simpa [isBlank, ← same.isBlank] using blank
    have claims (own : OpenCondition) :
        own.claims ⟨line, indent, nested⟩ = own.claims ⟨line', indent, nested'⟩ := by
      rw [OpenCondition.claims, OpenCondition.claims, same.skipSpace.startsWith (by simp)]
    cases claimed : condition.filter (·.claims ⟨line, indent, nested⟩) with
    | some own =>
      have claimed' := claimed
      simp only [claims] at claimed'
      rw [elements_else solid claimed, elements_else solid' claimed']
      refine (readElse_stripped same).bind fun _ _ _ => children.bind fun branch _ agree => ?_
      subst agree
      exact (beside none).bind fun _ _ agree => .ok (by rw [agree])
    | none =>
      have claimed' := claimed
      simp only [claims] at claimed'
      rw [elements_statement solid claimed, elements_statement solid' claimed']
      have said := Statement.ofLine_stripped same
      have own := bare ⟨line, indent, nested⟩ (by simp [within])
      unfold Line.holdsText at own
      generalize Statement.ofLine source line = result, Statement.ofLine source' line' = result'
        at said own
      cases said with
      | error => exact .error _ _
      | @ok statement _ agree =>
        subst agree
        obtain ⟨predicate, rfl⟩ | plain := statement.condition_or_plain
        · refine children.bind fun branch _ agree => ?_
          subst agree
          exact (beside _).bind fun _ _ agree => .ok (by rw [agree])
        · change Follows Eq (elementsFrom ..) (elementsFrom ..)
          rw [elementsFrom_of_ne _ _ plain, elementsFrom_of_ne _ _ plain]
          refine (element_stripped inside own children).bind fun _ _ agree => ?_
          subst agree
          exact (beside none).bind fun _ _ agree => .ok (by rw [agree])

end LineTree

namespace Template

variable {lines lines' : List Line}

theorem readDoctype_stripped {line line' : Line} (stripped : Line.Stripped source source' line line') :
    Follows Eq (readDoctype source line) (readDoctype source' line') := by
  rcases stripped.expect .space (by simp) with ⟨-, t, taken⟩ | follows
  · rw [readDoctype, taken]
    exact .error _ _
  · refine follows.bind fun _ _ later => ?_
    have same := congrArg Text.trim later.trimmedText
    rw [Line.trimmedText, Line.trimmedText, Text.trim_trimEnd, Text.trim_trimEnd] at same
    dsimp only
    rw [Line.readRest_eq, Line.readRest_eq, same]
    exact .refl _

theorem doctypeOf_cons (source : Text) (line : Line) (later : List Line) :
    doctypeOf source (line :: later) = if line.startsWith (.keyword .doctype) then
      (readDoctype source line.tail).map some else .ok none := by
  cases line with
  | nil => rfl
  | cons t rest => simp [doctypeOf, Line.startsWith]

theorem body_cons (line : Line) (later : List Line) :
    body (line :: later) = if line.startsWith (.keyword .doctype) then later else line :: later := by
  cases line with
  | nil => rfl
  | cons t rest => simp [body, Line.startsWith]

theorem doctypeOf_stripped (stripped : List.Forall₂ (Line.Stripped source source') lines lines') :
    Follows Eq (doctypeOf source lines) (doctypeOf source' lines') := by
  cases stripped with
  | nil => exact .ok rfl
  | @cons line line' later later' first rest =>
    rw [doctypeOf_cons, doctypeOf_cons, ← first.startsWith (by simp)]
    split
    next named =>
      cases line with
      | nil => contradiction
      | cons t line =>
        have kind : t.kind = .keyword .doctype := by simpa [Line.startsWith] using named
        obtain ⟨t', line', rfl, -, -, behind⟩ := first.exists_cons (by simp [kind])
        exact (readDoctype_stripped behind).map fun _ _ same => by rw [same]
    next => exact .ok rfl

theorem body_stripped (stripped : List.Forall₂ (Line.Stripped source source') lines lines') :
    List.Forall₂ (Line.Stripped source source') (body lines) (body lines') := by
  cases stripped with
  | nil => exact .nil
  | @cons line line' later later' first rest =>
    rw [body_cons, body_cons, ← first.startsWith (by simp)]
    split
    · exact rest
    · exact .cons first rest

theorem elementsOf_stripped (stripped : List.Forall₂ (Line.Stripped source source') lines lines')
    (bare : ∀ tree ∈ LineTree.within (LineTree.ofLines lines),
      tree.line.holdsText source = true → tree.nested = []) :
    Follows Eq (elementsOf source lines) (elementsOf source' lines') := by
  have order : LineTree.SameOrder Eq := by
    rintro m _ n _ rfl rfl
    exact Iff.rfl
  have parallel : LineTree.Parallel (Line.Stripped source source') Eq (LineTree.ofLines lines)
      (LineTree.ofLines lines') := by
    refine .ofLines order (fun line line' same => ⟨same.isBlank, ?_⟩) stripped
    rw [LineTree.indentBefore, LineTree.indentBefore, ← same.isBlank]
    split
    · rfl
    next solid => exact same.indent (by simpa using solid)
  exact LineTree.elements_stripped parallel bare none

/-- The trees of the body are trees of all the lines. -/
theorem within_body (lines : List Line) : ∀ tree ∈ LineTree.within (LineTree.ofLines (body lines)),
    tree ∈ LineTree.within (LineTree.ofLines lines) := by
  cases lines with
  | nil => exact fun _ member => member
  | cons line later =>
    rw [body_cons]
    split
    · intro tree member
      obtain ⟨first, -, -, trees⟩ := LineTree.within_graft line (LineTree.ofLines later)
      rw [LineTree.ofLines_cons, trees]
      exact .tail _ member
    · exact fun _ member => member

/-- Nothing is nested otherwise in front of a blank line at the end. -/
theorem within_append_blank {line : Line} (blank : line.isBlank = true) (lines : List Line) :
    ∀ tree ∈ LineTree.within (LineTree.ofLines lines),
      tree ∈ LineTree.within (LineTree.ofLines (lines ++ [line])) := by
  have flush : ∀ tree ∈ (LineTree.ofLines [line]).head?, tree.indent = 0 := by
    intro tree first
    rw [LineTree.ofLines_head_indent [line] tree first]
    simp [blank]
  intro tree member
  rw [LineTree.ofLines_append_flush lines flush, LineTree.within_append]
  exact List.mem_append_left _ member

/-- Blanks at the ends of lines can be taken away where all strings end on the line that they begin on
and no comment and no text block has lines nested under it: the template is the same. -/
theorem parse_trimLines (plain : '\r' ∉ source)
    (closed : source.StringsInLines) (bare : source.NestsNoText)
    {template : Template} (read : parse source = .ok template) :
    parse source.trimLines = .ok template := by
  have plain' : '\r' ∉ source.trimLines := fun member =>
    plain ((Text.trimLines_sublist source).subset member)
  have tokens := Token.ofText_eq_listFrom source
  obtain ⟨lines, last, split, blank, stripped⟩ :=
    stripped_split (p := .start) (q := .start) (closed _ tokens) rfl rfl
  have trees := bare _ tokens
  -- the blank line that may be missing at the end makes no difference
  obtain ⟨named, elements, held⟩ : doctypeOf source (linesOf source) = doctypeOf source lines ∧
      elementsOf source (body (linesOf source)) = elementsOf source (body lines) ∧
      ∀ tree ∈ LineTree.within (LineTree.ofLines lines),
        tree.line.holdsText source = true → tree.nested = [] := by
    rw [linesOf, split]
    rw [split] at trees
    rcases blank with rfl | ⟨line, rfl, blank⟩
    · rw [List.append_nil] at trees ⊢
      exact ⟨rfl, rfl, trees⟩
    · exact ⟨doctypeOf_append_blank blank lines, elementsOf_append_blank blank lines,
        fun tree member => trees tree (within_append_blank blank lines tree member)⟩
  have body_follows := elementsOf_stripped (body_stripped stripped) fun tree member =>
    held tree (within_body lines tree member)
  rw [parse_eq plain, named, elements] at read
  rw [parse_eq plain']
  refine Follows.of_ok ((doctypeOf_stripped stripped).bind fun doctype _ same => ?_) read
  subst same
  exact body_follows.bind fun _ _ same => .ok (by rw [same])

/-- A dot and an equals sign in front of the blanks, blanks in a string and a blank line at the end. -/
theorem parse_trimLines_text :
    parse "| x.\np \" \" =\n".toList = .ok ⟨none, [.text ['x', '.'],
      .tag { name := ['p'] } (some (.text ['"', ' ', '"', ' ', '='])) []]⟩ := by
  have read : parse "| x. \np \" \" =  \n ".toList = .ok ⟨none, [.text ['x', '.'],
      .tag { name := ['p'] } (some (.text ['"', ' ', '"', ' ', '='])) []]⟩ := by
    cbv
  have closed : Text.StringsInLines "| x. \np \" \" =  \n ".toList :=
    (Text.stringsInLines_iff _).mpr (by cbv)
  have bare : Text.NestsNoText "| x. \np \" \" =  \n ".toList :=
    (Text.nestsNoText_iff _).mpr (by cbv)
  have trimmed : Text.trimLines "| x. \np \" \" =  \n ".toList =
      "| x.\np \" \" =\n".toList := by cbv
  rw [← trimmed]
  exact parse_trimLines (by decide) closed bare read

end Template

end IndentMarkup
