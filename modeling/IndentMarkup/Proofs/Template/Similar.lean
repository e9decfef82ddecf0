import IndentMarkup.Proofs.Line.Nesting
import IndentMarkup.Proofs.Statement.Alike
import IndentMarkup.Proofs.Template.Siblings

/-! Forests that look alike, whatever blank lines stand in them, give the same elements. The
indents of their lines may differ as long as each line stands at the level of the next one in
both or in neither, since that is all an `else` asks for. -/
namespace IndentMarkup

variable {E : ParseError → ParseError → Prop} {source source' : Text}

namespace LineTree

/-- An indent is that of the next line, blank ones aside, in both forests or in neither. -/
def SameLevel (indent indent' : Nat) (later later' : List LineTree) : Prop :=
  ∀ next ∈ later.find? (!·.isBlank), ∀ next' ∈ later'.find? (!·.isBlank),
    (indent = next.indent ↔ indent' = next'.indent)

/-- The lines look alike one by one, and so do the lines nested under them. -/
inductive Similar (E : ParseError → ParseError → Prop) (source source' : Text) :
    List LineTree → List LineTree → Prop where
  | nil : Similar E source source' [] []
  | skipLeft {tree : LineTree} {trees trees' : List LineTree} (blank : tree.isBlank = true)
      (rest : Similar E source source' trees trees') :
      Similar E source source' (tree :: trees) trees'
  | skipRight {tree' : LineTree} {trees trees' : List LineTree} (blank : tree'.isBlank = true)
      (rest : Similar E source source' trees trees') :
      Similar E source source' trees (tree' :: trees')
  | cons {line line' : Line} {indent indent' : Nat} {nested nested' later later' : List LineTree}
      (solid : line.isBlank = false) (solid' : line'.isBlank = false)
      (alike : Line.Alike E source source' line.skipSpace line'.skipSpace)
      (inside : Similar E source source' nested nested')
      (text : line.holdsText source = true → blockText source nested = blockText source' nested')
      (level : SameLevel indent indent' later later')
      (behind : Similar E source source' later later') :
      Similar E source source' (⟨line, indent, nested⟩ :: later)
        (⟨line', indent', nested'⟩ :: later')

/-- The same condition is open in front of both forests. -/
inductive SameOpen (trees trees' : List LineTree) :
    Option OpenCondition → Option OpenCondition → Prop where
  | closed : SameOpen trees trees' none none
  | waiting {indent indent' : Nat} {predicate : Text} {thenBranch : List Element}
      (level : SameLevel indent indent' trees trees') :
      SameOpen trees trees' (some ⟨indent, predicate, thenBranch⟩)
        (some ⟨indent', predicate, thenBranch⟩)

theorem SameOpen.close {trees trees' : List LineTree} {condition condition' : Option OpenCondition}
    (same : SameOpen trees trees' condition condition') :
    condition.map (·.close []) = condition'.map (·.close []) := by
  cases same <;> rfl

/-- So the first line is the `else` of both or of neither. -/
theorem SameOpen.claims {tree tree' : LineTree} {later later' : List LineTree}
    {condition condition' : Option OpenCondition}
    (same : SameOpen (tree :: later) (tree' :: later') condition condition')
    (solid : tree.isBlank = false) (solid' : tree'.isBlank = false)
    (alike : Line.Alike E source source' tree.line.skipSpace tree'.line.skipSpace) :
    (condition.filter (·.claims tree) = none ∧ condition'.filter (·.claims tree') = none) ∨
      ∃ own own' : OpenCondition, condition.filter (·.claims tree) = some own ∧
        condition'.filter (·.claims tree') = some own' ∧ own.close = own'.close := by
  cases same with
  | closed => exact .inl ⟨rfl, rfl⟩
  | @waiting indent indent' predicate thenBranch level =>
    have beside : indent = tree.indent ↔ indent' = tree'.indent :=
      level tree (by simp [solid]) tree' (by simp [solid'])
    have claims : OpenCondition.claims ⟨indent, predicate, thenBranch⟩ tree =
        OpenCondition.claims ⟨indent', predicate, thenBranch⟩ tree' := by
      simp only [OpenCondition.claims, beside, alike.startsWith]
    cases claimed : OpenCondition.claims ⟨indent, predicate, thenBranch⟩ tree with
    | false =>
      rw [claimed] at claims
      exact .inl ⟨by simp [claimed], by simp [← claims]⟩
    | true =>
      rw [claimed] at claims
      exact .inr ⟨_, _, Option.filter_some_pos claimed, Option.filter_some_pos claims.symm, rfl⟩

/-- The first lines that are not blank look alike. -/
theorem Similar.find {trees trees' : List LineTree}
    (similar : Similar E source source' trees trees') :
    Option.Rel (fun tree tree' : LineTree =>
      Line.Alike E source source' tree.line.skipSpace tree'.line.skipSpace)
      (trees.find? (!·.isBlank)) (trees'.find? (!·.isBlank)) := by
  induction similar with
  | nil => exact .none
  | skipLeft blank _ ih => simpa [blank] using ih
  | skipRight blank _ ih => simpa [blank] using ih
  | cons solid solid' alike =>
    simpa [isBlank, solid, solid'] using Option.Rel.some alike

/-- The lines have the same source text and the same indent, and both are blank or neither is. -/
structure SameText (source source' : Text) (line line' : Line) : Prop where
  blank : line.isBlank = line'.isBlank
  indent : line.indent = line'.indent
  text : line.sourceText source = line'.sourceText source'

theorem blockText_congr {nested nested' : List LineTree}
    (same : List.Forall₂ (SameText source source') (forestLines nested) (forestLines nested')) :
    blockText source nested = blockText source' nested' := by
  unfold blockText
  generalize forestLines nested = lines, forestLines nested' = lines' at same
  have pieces (cut : Text → List Text) :
      lines.flatMap (fun line => if line.isBlank then [[]] else cut (line.sourceText source)) =
        lines'.flatMap
          (fun line => if line.isBlank then [[]] else cut (line.sourceText source')) := by
    induction same with
    | nil => rfl
    | cons same _ ih =>
      rw [List.flatMap_cons, List.flatMap_cons, same.blank, same.text]
      exact congrArg _ ih
  have width : (lines.find? (!·.isBlank)).map Line.indent =
      (lines'.find? (!·.isBlank)).map Line.indent := by
    clear pieces
    induction same with
    | nil => rfl
    | @cons line line' _ _ same _ ih =>
      by_cases blank : line.isBlank = true
      · simpa [blank, ← same.blank] using ih
      · simp [blank, ← same.blank, same.indent]
  dsimp only
  rw [width, pieces fun text => (text.splitOn '\n').map (Text.dedent _)]

/-- Nested lines that look alike with their leading blanks are the same text. -/
theorem blockText_alike {nested nested' : List LineTree}
    (alike : List.Forall₂ (Line.Alike E source source') (forestLines nested)
      (forestLines nested')) : blockText source nested = blockText source' nested' :=
  blockText_congr (alike.imp fun _ _ same => ⟨same.isBlank, same.indent, same.sourceText⟩)

variable {R : Line → Line → Prop} {I : Nat → Nat → Prop} {trees trees' : List LineTree}

theorem Parallel.sameLevel (order : SameOrder I) {indent indent' : Nat} (own : I indent indent')
    (blank : ∀ ⦃line line'⦄, R line line' → line.isBlank = line'.isBlank)
    (parallel : Parallel R I trees trees') : SameLevel indent indent' trees trees' := by
  induction parallel with
  | nil => intro next found; contradiction
  | @cons line line' below below' nested nested' later later' same level _ _ _ ih =>
    by_cases solid : line.isBlank = true
    · simpa [SameLevel, isBlank, solid, ← blank same] using ih
    · have first := order own level
      have second := order level own
      simp only [SameLevel, List.find?_cons, isBlank, ← blank same, solid]
      rintro _ ⟨rfl⟩ _ ⟨rfl⟩
      dsimp only
      omega

/-- Forests of one shape are similar if their lines look alike behind the leading blanks and
the text they hold is the same. -/
theorem Parallel.similar (order : SameOrder I)
    (blank : ∀ ⦃line line'⦄, R line line' → line.isBlank = line'.isBlank)
    (alike : ∀ ⦃line line'⦄, R line line' →
      Line.Alike E source source' line.skipSpace line'.skipSpace)
    (text : ∀ tree ∈ within trees, tree.line.holdsText source = true → ∀ nested',
      Parallel R I tree.nested nested' → blockText source tree.nested = blockText source' nested')
    (parallel : Parallel R I trees trees') : Similar E source source' trees trees' := by
  induction parallel with
  | nil => exact .nil
  | @cons line line' indent indent' nested nested' later later' same level inside behind ih rest =>
    have below := ih fun tree member => text tree (by simp [within, member])
    have beside := rest fun tree member => text tree (by simp [within, member])
    by_cases solid : line.isBlank = true
    · exact .skipLeft solid (.skipRight ((blank same).symm.trans solid) beside)
    · have solid' : line'.isBlank = false := by simpa [← blank same] using solid
      refine .cons (by simpa using solid) solid' (alike same) below ?_ ?_ beside
      · exact fun holds => text ⟨line, indent, nested⟩ (by simp [within]) holds nested' inside
      · exact behind.sameLevel order level blank

variable [Std.Refl E]

/-- Lines that look alike hold text or not alike. -/
theorem holdsText_alike {line line' : Line}
    (alike : Line.Alike E source source' line.skipSpace line'.skipSpace) :
    line.holdsText source = line'.holdsText source' := by
  have said := Statement.ofLine_alike alike
  unfold Line.holdsText
  generalize Statement.ofLine source line = result,
    Statement.ofLine source' line' = result' at said ⊢
  cases said with
  | ok same => rw [same]
  | error => rfl

/-- What a statement makes of the lines nested under it. -/
theorem Similar.element {trees trees' : List LineTree}
    (similar : Similar E source source' trees trees') {statement : Statement}
    (text : statement.holdsText = true → blockText source trees = blockText source' trees')
    {children children' : Except ParseError (List Element)}
    (inside : Agree E Eq children children') :
    Agree E Eq (statement.element source trees children)
      (statement.element source' trees' children') := by
  cases statement with
  | tag line =>
    rw [Statement.element, Statement.element]
    split
    next holds => exact .ok (by rw [text holds])
    next => exact inside.map fun _ _ same => by rw [same]
  | piped value =>
    have first := similar.find
    rw [Statement.element, Statement.element]
    generalize trees.find? (!·.isBlank) = found, trees'.find? (!·.isBlank) = found' at first
    cases first with
    | none => exact .ok rfl
    | some alike => exact .error alike.unexpected
  | comment value buffered => exact .ok (by rw [text rfl])
  | marker kind argument => exact inside.map fun _ _ same => by rw [same]
  | condition predicate => exact inside.map fun _ _ same => by rw [same]

theorem Similar.elements_agree {trees trees' : List LineTree}
    (similar : Similar E source source' trees trees') {condition condition' : Option OpenCondition}
    (same : SameOpen trees trees' condition condition') :
    Agree E Eq (elements source condition trees) (elements source' condition' trees') := by
  induction similar generalizing condition condition' with
  | nil =>
    rw [elements, elements, same.close]
    exact .ok rfl
  | @skipLeft tree trees trees' blank rest ih =>
    rw [elements_blank blank]
    apply ih
    cases same with
    | closed => exact .closed
    | waiting level => exact .waiting (by simpa [SameLevel, blank] using level)
  | @skipRight tree' trees trees' blank rest ih =>
    rw [elements_blank blank]
    apply ih
    cases same with
    | closed => exact .closed
    | waiting level => exact .waiting (by simpa [SameLevel, blank] using level)
  | @cons line line' indent indent' nested nested' later later' solid solid' alike inside text
      level behind ih rest =>
    have children : Agree E Eq (LineTree.children source ⟨line, indent, nested⟩)
        (LineTree.children source' ⟨line', indent', nested'⟩) := by
      simpa only [LineTree.children] using ih .closed
    replace solid : isBlank ⟨line, indent, nested⟩ = false := solid
    replace solid' : isBlank ⟨line', indent', nested'⟩ = false := solid'
    rcases same.claims solid solid' alike with ⟨unclaimed, unclaimed'⟩ |
      ⟨own, own', claimed, claimed', close⟩
    · rw [elements_statement solid unclaimed, elements_statement solid' unclaimed', same.close]
      have said := Statement.ofLine_alike alike
      unfold Line.holdsText at text
      generalize Statement.ofLine source line = result, Statement.ofLine source' line' = result'
        at said text
      cases said with
      | error same => exact .error same
      | @ok statement _ same =>
        subst same
        obtain ⟨predicate, rfl⟩ | plain := statement.condition_or_plain
        · refine children.bind fun branch _ same => ?_
          subst same
          exact (rest (.waiting level)).bind fun _ _ same => .ok (by rw [same])
        · change Agree E Eq (elementsFrom ..) (elementsFrom ..)
          rw [elementsFrom_of_ne _ _ plain, elementsFrom_of_ne _ _ plain]
          refine (inside.element text children).bind fun _ _ same => ?_
          subst same
          exact (rest .closed).bind fun _ _ same => .ok (by rw [same])
    · rw [elements_else solid claimed, elements_else solid' claimed', close]
      refine (readElse_alike alike).bind fun _ _ _ => ?_
      refine children.bind fun branch _ same => ?_
      subst same
      exact (rest .closed).bind fun _ _ same => .ok (by rw [same])

omit [Std.Refl E] in
theorem sameLevel_solid (indent : Nat) (trees : List LineTree) :
    SameLevel indent indent trees (solid trees) := by
  induction trees using forest_induction with
  | nil => intro next found; contradiction
  | cons line own nested later _ ih =>
    by_cases blank : line.isBlank = true
    · simpa [SameLevel, solid_cons, isBlank, blank] using ih
    · simp [SameLevel, solid_cons, isBlank, blank]

/-- Blank lines are passed over, unless they are part of a text. -/
theorem similar_solid {trees : List LineTree}
    (tight : ∀ tree ∈ within trees, solid tree.nested = [] → tree.nested = [])
    (bare : ∀ tree ∈ within (solid trees), tree.line.holdsText source = true → tree.nested = []) :
    Similar E source source trees (solid trees) := by
  induction trees using forest_induction with
  | nil => simpa [solid] using Similar.nil
  | cons line indent nested later inside behind =>
    have beside := behind fun tree member => tight tree (by simp [within, member])
    rw [solid_cons] at bare ⊢
    split
    next blank => exact .skipLeft blank (beside (by simpa [blank] using bare))
    next solid_line =>
      rw [if_neg solid_line] at bare
      have below := inside (fun tree member => tight tree (by simp [within, member]))
        fun tree member => bare tree (by simp [within, member])
      have text : line.holdsText source = true →
          blockText source nested = blockText source (solid nested) := by
        intro holds
        have nothing : solid nested = [] :=
          bare ⟨line, indent, solid nested⟩ (by simp [within]) holds
        have none : nested = [] := tight ⟨line, indent, nested⟩ (by simp [within]) nothing
        rw [nothing, none]
      exact .cons (by simpa using solid_line) (by simpa using solid_line) (.refl source _) below
        text (sameLevel_solid indent later)
        (beside fun tree member => bare tree (by simp [within, member]))

end LineTree

end IndentMarkup
