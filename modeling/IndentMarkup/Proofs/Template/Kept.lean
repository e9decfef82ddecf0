import IndentMarkup.Proofs.Line.Nesting
import IndentMarkup.Proofs.Statement.Origin
import IndentMarkup.Proofs.Template.Body

/-! What holds of all elements of a template and of the error that it may have instead. It is
enough to look at one line at a time: at its statement, and at what that makes of the elements
nested under it. -/
namespace IndentMarkup

/-- Lines that fit have statements of which the one property holds, and these make elements of
which the other holds out of such elements. Errors on the way have a property of their own. -/
structure LineTree.Kept (source : Text) (Fit : Line → Prop) (E : ParseError → Prop)
    (Said : Statement → Prop) (R : Element → Prop) : Prop where
  statement : ∀ line, Fit line → Meets E Said (Statement.ofLine source line)
  marked : ∀ line, Fit line → Meets E (fun _ => True) (readElse line)
  element : ∀ statement nested children, Said statement →
    (∀ line ∈ LineTree.forestLines nested, Fit line) →
    Meets E (fun elements => ∀ e ∈ elements, R e) children →
    Meets E R (statement.element source nested children)
  conditional : ∀ predicate thenBranch elseBranch, Said (.condition predicate) →
    (∀ e ∈ thenBranch, R e) → (∀ e ∈ elseBranch, R e) →
    R (.conditional predicate thenBranch elseBranch)

namespace LineTree.Kept

variable {source : Text} {Fit : Line → Prop} {E : ParseError → Prop} {Said : Statement → Prop}
  {R : Element → Prop}

/-- The condition that is open, if there is one, makes such an element whatever its `else` is. -/
def Closes (R : Element → Prop) (condition : Option OpenCondition) : Prop :=
  ∀ own ∈ condition, ∀ branch, (∀ e ∈ branch, R e) → R (own.close branch)

theorem Closes.closed {condition : Option OpenCondition} (closes : Closes R condition) :
    ∀ e ∈ (condition.map (·.close [])).toList, R e := by
  intro e member
  obtain ⟨own, isOpen, rfl⟩ := Option.map_eq_some_iff.mp (Option.mem_toList.mp member)
  exact closes own isOpen [] nofun

theorem none_closes : Closes R none :=
  nofun

/-- One statement, when the lines nested under it and those behind it are known. -/
theorem elementsFrom (kept : Kept source Fit E Said R) {tree : LineTree}
    {later : List LineTree} {closed : List Element} {statement : Statement}
    (said : Said statement) (fit : ∀ line ∈ forestLines tree.nested, Fit line)
    (closes : ∀ e ∈ closed, R e)
    (inside : Meets E (fun elements => ∀ e ∈ elements, R e) (tree.children source))
    (behind : ∀ condition, Closes R condition →
      Meets E (fun elements => ∀ e ∈ elements, R e) (elements source condition later)) :
    Meets E (fun elements => ∀ e ∈ elements, R e)
      (LineTree.elementsFrom source closed tree later statement) := by
  obtain ⟨predicate, rfl⟩ | plain := statement.condition_or_plain
  · rw [LineTree.elementsFrom]
    refine inside.bind fun branch own => ?_
    refine (behind _ ?_).bind fun rest holds => .ok ?_
    · rintro _ ⟨rfl⟩ elseBranch other
      exact kept.conditional predicate branch elseBranch said own other
    · simpa [or_imp, forall_and] using And.intro closes holds
  · rw [elementsFrom_of_ne closed later plain]
    refine (kept.element statement tree.nested _ said fit inside).bind fun element own => ?_
    refine (behind none none_closes).bind fun rest holds => .ok ?_
    simpa [or_imp, forall_and] using And.intro closes (And.intro own holds)

theorem elements (kept : Kept source Fit E Said R) {trees : List LineTree}
    (fit : ∀ line ∈ forestLines trees, Fit line) {condition : Option OpenCondition}
    (closes : Closes R condition) :
    Meets E (fun elements => ∀ e ∈ elements, R e) (elements source condition trees) := by
  induction trees using forest_induction generalizing condition with
  | nil =>
    rw [LineTree.elements]
    exact .ok closes.closed
  | cons line indent nested later inside behind =>
    simp only [forestLines, lines, List.mem_append, List.mem_cons, or_imp, forall_and,
      forall_eq] at fit
    obtain ⟨⟨own, below⟩, beside⟩ := fit
    have children : Meets E (fun elements => ∀ e ∈ elements, R e)
        (LineTree.children source ⟨line, indent, nested⟩) := by
      rw [LineTree.children]
      exact inside below none_closes
    cases blank : isBlank ⟨line, indent, nested⟩ with
    | true =>
      rw [elements_blank blank]
      exact behind beside closes
    | false =>
      cases claimed : condition.filter (·.claims ⟨line, indent, nested⟩) with
      | some waiting =>
        rw [elements_else blank claimed]
        refine (kept.marked line own).bind fun _ _ => ?_
        refine children.bind fun branch first => ?_
        refine (behind beside none_closes).bind fun rest second => .ok ?_
        obtain ⟨isOpen, -⟩ := Option.filter_eq_some_iff.mp claimed
        exact List.forall_mem_cons.mpr ⟨closes waiting isOpen branch first, second⟩
      | none =>
        rw [elements_statement blank claimed]
        refine (kept.statement line own).bind fun statement said => ?_
        exact kept.elementsFrom said below closes.closed children fun _ => behind beside

end LineTree.Kept

namespace Template

variable {source : Text} {lines : List Line}

theorem readDoctype_from (source : Text) (line : Line) :
    Meets (ParseError.Blames line)
      (fun keyword => keyword ≠ [] ∧ ∃ rest : Line, keyword = (rest.sourceText source).trim)
      (readDoctype source line) := by
  refine (Line.expect_reads (List.suffix_refl line) .space).bind ?_
  rintro ⟨t, rest⟩ -
  dsimp only
  split
  · exact .error .ended
  next solid => exact .ok ⟨solid, rest, rfl⟩

/-- The document type stands in one of the lines, and so does what is wrong with it. -/
theorem doctypeOf_from (source : Text) (lines : List Line) :
    Meets (fun error => ∃ line ∈ lines, error.Blames line)
      (fun doctype => ∀ keyword ∈ doctype, keyword ≠ [] ∧
        ∃ rest : Line, keyword = (rest.sourceText source).trim)
      (doctypeOf source lines) := by
  unfold doctypeOf
  split
  next t rest later =>
    split
    · refine ((readDoctype_from source rest).imp (fun error blames => ?_) fun _ => id).map ?_
      · exact ⟨_, List.mem_cons_self .., blames.mono (List.subset_cons_self ..)⟩
      · rintro keyword own _ ⟨rfl⟩
        exact own
    · exact .ok nofun
  next => exact .ok nofun

theorem parse_eq_ofTokens (text : Text) :
    parse text = ofTokens text.normalize (Token.listFrom .start text.normalize) := by
  rw [parse, Token.ofText_eq_listFrom]
  rfl

/-- What holds of all elements is kept by the reading of a whole list of tokens. -/
theorem ofTokens_meets {Fit : Line → Prop} {E : ParseError → Prop} {Said : Statement → Prop}
    {R : Element → Prop} {D : Option Text → Prop} {tokens : List Token}
    (kept : LineTree.Kept source Fit E Said R) (fit : ∀ line ∈ Line.split tokens, Fit line)
    (doctype : Meets E D (doctypeOf source (Line.split tokens))) :
    Meets E (fun template => D template.doctype ∧ ∀ e ∈ template.elements, R e)
      (ofTokens source tokens) := by
  rw [ofTokens_eq]
  refine doctype.bind fun doctype named => ?_
  have below : ∀ line ∈ LineTree.forestLines (LineTree.ofLines (body (Line.split tokens))),
      Fit line := by
    rw [LineTree.forestLines_ofLines]
    exact fun line member => fit line (body_subset _ member)
  refine (kept.elements below LineTree.Kept.none_closes).bind fun elements own => ?_
  exact .ok ⟨named, own⟩

end Template

end IndentMarkup
