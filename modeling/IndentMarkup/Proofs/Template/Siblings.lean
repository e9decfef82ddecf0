import IndentMarkup.Proofs.Result
import IndentMarkup.Template.Parse

/-! Reading sibling lines, one line at a time: a blank line is passed over, an `else` is taken
by the condition before it, and any other line closes that condition and is a statement. -/
namespace IndentMarkup

/-- Whether the lines nested under the statement are text. -/
def Statement.holdsText : Statement → Bool
  | .tag line => line.holdsText
  | .comment .. => true
  | _ => false

/-- Whether the line is a comment, or a tag line that ends in a block marker. -/
def Line.holdsText (source : Text) (line : Line) : Bool :=
  match Statement.ofLine source line with
  | .ok statement => statement.holdsText
  | .error _ => false

theorem Line.eq_of_expect {line rest : Line} {t : Token} {kind : Token.Kind}
    (read : line.expect kind = .ok (t, rest)) : line = t :: rest ∧ t.kind = kind := by
  cases line with
  | nil => contradiction
  | cons u later =>
    rw [expect] at read
    split at read
    next begins =>
      rw [next] at read
      split at read
      · contradiction
      · obtain ⟨rfl, rfl⟩ := Prod.mk.inj (Except.ok.inj read)
        exact ⟨rfl, by simpa [startsWith] using begins⟩
    next => contradiction

theorem Line.eq_of_requiredText {source value : Text} {line : Line}
    (read : line.requiredText source = .ok value) : value = line.trimmedText source := by
  rw [requiredText] at read
  split at read
  · contradiction
  · exact (Except.ok.inj read).symm

theorem Statement.condition_or_plain (statement : Statement) :
    (∃ predicate, statement = .condition predicate) ∨
      ∀ predicate, statement ≠ .condition predicate := by
  cases statement <;> simp

/-- Nothing is left of a line that is a statement. -/
theorem Statement.read_of_ofLine {source : Text} {line : Line} {statement : Statement}
    (said : Statement.ofLine source line = .ok statement) :
    Statement.read source line.skipSpace = .ok (statement, []) := by
  obtain ⟨⟨read, left⟩, made, said⟩ := bind_ok said
  cases left with
  | nil =>
    obtain rfl := Except.ok.inj said
    exact made
  | cons => contradiction

/-- No line that says `else` is a statement. -/
theorem Statement.ofLine_else {source : Text} {line : Line}
    (marked : line.skipSpace.startsWith (.keyword .else) = true) (statement : Statement) :
    Statement.ofLine source line ≠ .ok statement := by
  unfold Statement.ofLine
  generalize line.skipSpace = line at marked
  cases line with
  | nil => contradiction
  | cons t rest =>
    have kind : t.kind = .keyword .else := by simpa [Line.startsWith] using marked
    simp [Statement.read, kind, bind, Except.bind]

namespace LineTree

variable {source : Text} {condition : Option OpenCondition} {tree : LineTree}

/-- The elements from a statement on, behind those of a condition that it closes. -/
def elementsFrom (source : Text) (closed : List Element) (tree : LineTree)
    (later : List LineTree) : Statement → Except ParseError (List Element)
  | .condition predicate => do
    let branch ← tree.children source
    return closed ++ (← elements source (some ⟨tree.indent, predicate, branch⟩) later)
  | statement => do
    let element ← statement.element source tree.nested (tree.children source)
    return closed ++ element :: (← elements source none later)

theorem elementsFrom_of_ne {statement : Statement} (closed : List Element)
    (later : List LineTree) (plain : ∀ predicate, statement ≠ .condition predicate) :
    elementsFrom source closed tree later statement = do
      let element ← statement.element source tree.nested (tree.children source)
      return closed ++ element :: (← elements source none later) := by
  cases statement with
  | condition predicate => exact absurd rfl (plain predicate)
  | _ => rfl

/-- Elements that are closed stand in front, whatever the statement is. -/
theorem elementsFrom_closed (closed : List Element) (later : List LineTree)
    (statement : Statement) :
    elementsFrom source closed tree later statement =
      (elementsFrom source [] tree later statement).map (closed ++ ·) := by
  obtain ⟨predicate, rfl⟩ | plain := statement.condition_or_plain
  · rw [elementsFrom, elementsFrom]
    cases tree.children source with
    | error error => rfl
    | ok branch =>
      simp only [bind, Except.bind]
      cases elements source (some ⟨tree.indent, predicate, branch⟩) later <;> rfl
  · rw [elementsFrom_of_ne _ _ plain, elementsFrom_of_ne _ _ plain]
    cases statement.element source tree.nested (tree.children source) with
    | error error => rfl
    | ok element =>
      simp only [bind, Except.bind]
      cases elements source none later <;> rfl

theorem children_eq (tree : LineTree) : tree.children source = elements source none tree.nested := by
  obtain ⟨line, indent, nested⟩ := tree
  rw [children]

theorem elements_blank (blank : tree.isBlank = true) (later : List LineTree) :
    elements source condition (tree :: later) = elements source condition later := by
  rw [elements, if_pos blank]

theorem elements_else {own : OpenCondition} (solid : tree.isBlank = false)
    (claimed : condition.filter (·.claims tree) = some own) (later : List LineTree) :
    elements source condition (tree :: later) = do
      readElse tree.line
      let branch ← tree.children source
      return own.close branch :: (← elements source none later) := by
  rw [elements, if_neg (by simp [solid]), claimed]

theorem elements_statement (solid : tree.isBlank = false)
    (unclaimed : condition.filter (·.claims tree) = none) (later : List LineTree) :
    elements source condition (tree :: later) =
      Statement.ofLine source tree.line >>=
        elementsFrom source (condition.map (·.close [])).toList tree later := by
  rw [elements, if_neg (by simp [solid]), unclaimed]
  cases Statement.ofLine source tree.line with
  | error error => rfl
  | ok statement => cases statement <;> rfl

/-- A tag line that nothing is nested under. -/
theorem element_tag_leaf (source : Text) (line : TagLine) :
    Statement.element source [] (.ok []) (.tag line) = .ok (line.element [] []) := by
  rw [Statement.element]
  split <;> rfl

end LineTree

end IndentMarkup
