import IndentMarkup.Proofs.Markup.Walk
import IndentMarkup.Proofs.Template.Outline

/-! The attributes of start tags. What was read from a text puts all classes of a tag into one
attribute, whatever they were written as. An id is not treated so: one from a selector and those
in the list of attributes all go into the start tag. -/
namespace IndentMarkup

namespace Attribute

def isId (a : Attribute) : Bool :=
  a.name = ['i', 'd']

end Attribute

/-- The attributes of the start tag, with their values as they are written. -/
def TagHead.encodedAttributes (options : RenderOptions) (head : TagHead) : List Attribute :=
  head.allAttributes.map fun a => ⟨a.name, options.encoded a.value⟩

/-- Every start tag among the pieces is that of one of the heads. -/
def Piece.TagsFrom (options : RenderOptions) (given : List Element.Head) (pieces : List Piece) :
    Prop :=
  ∀ name attributes finished, startTag name attributes finished ∈ pieces →
    ∃ head, .tag head ∈ given ∧ head.name = name ∧ attributes = head.encodedAttributes options

namespace Piece.TagsFrom

variable {options : RenderOptions} {given : List Element.Head} {pieces : List Piece}

theorem nil : TagsFrom options given [] :=
  fun _ _ _ member => nomatch member

/-- A piece that is no start tag. -/
theorem cons_other (tags : TagsFrom options given pieces) {piece : Piece}
    (other : ∀ name attributes finished, piece ≠ startTag name attributes finished) :
    TagsFrom options given (piece :: pieces) := by
  intro name attributes finished member
  obtain same | earlier := List.mem_cons.mp member
  · exact absurd same.symm (other name attributes finished)
  · exact tags name attributes finished earlier

theorem cons_tag (tags : TagsFrom options given pieces) {head : TagHead}
    (own : .tag head ∈ given) (done : Bool) :
    TagsFrom options given
      (startTag head.name (head.encodedAttributes options) done :: pieces) := by
  intro name attributes finished member
  obtain same | earlier := List.mem_cons.mp member
  · obtain ⟨rfl, rfl, -⟩ := startTag.inj same
    exact ⟨head, own, rfl, rfl⟩
  · exact tags name attributes finished earlier

theorem finish (tags : TagsFrom options given pieces) :
    TagsFrom options given (finish pieces) := by
  unfold Piece.finish
  split
  next name attributes before =>
    obtain ⟨head, own, rfl, rfl⟩ := tags name attributes false List.mem_cons_self
    refine cons_tag (fun name attributes finished member => ?_) own true
    exact tags name attributes finished (.tail _ member)
  · exact tags

theorem addText (tags : TagsFrom options given pieces) (value : Text) :
    TagsFrom options given (addText value pieces) :=
  tags.finish.cons_other nofun

theorem addContent (tags : TagsFrom options given pieces) (content : Option Content) :
    TagsFrom options given (addContent options pieces content) := by
  rcases content with _ | _ | _
  · exact tags
  · exact tags.addText _
  · exact tags.addText _

end Piece.TagsFrom

namespace Element

variable {options : RenderOptions} {given : List Element.Head} {elements : List Element}

/-- Drawn behind such pieces, the elements leave such pieces. -/
def DrawTags (options : RenderOptions) (given : List Element.Head) (elements : List Element) :
    Prop :=
  ∀ pieces after, Piece.TagsFrom options given pieces →
    drawAll options elements pieces = .ok after → Piece.TagsFrom options given after

theorem drawTags_cons {element : Element} {later : List Element}
    (first : ∀ pieces after, Piece.TagsFrom options given pieces →
      element.draw options pieces = .ok after → Piece.TagsFrom options given after)
    (rest : DrawTags options given later) : DrawTags options given (element :: later) := by
  intro pieces after tags drawn
  obtain ⟨middle, here, behind⟩ := bind_ok drawn
  exact rest middle after (first pieces middle tags here) behind

theorem drawTags_tag {head : TagHead} {content : Option Content} {children : List Element}
    (own : .tag head ∈ given) (inside : DrawTags options given children) {pieces after : List Piece}
    (tags : Piece.TagsFrom options given pieces)
    (drawn : draw options (.tag head content children) pieces = .ok after) :
    Piece.TagsFrom options given after := by
  obtain ⟨filled, body, ended⟩ := bind_ok drawn
  obtain rfl := Except.ok.inj ended
  have begun := tags.finish.cons_tag own false
  have within := inside _ filled (begun.addContent content) body
  refine within.cons_other ?_
  split <;> exact nofun

/-- Without attributes that are elements, a start tag has what its head has. -/
theorem drawTags_of_wellFormed (formed : ∀ e ∈ elements, e.WellFormed)
    (listed : allHeads elements ⊆ given) : DrawTags options given elements := by
  induction elements using forest_induction with
  | nil => exact fun pieces after tags drawn => Except.ok.inj drawn ▸ tags
  | tag head content children later inside rest =>
    obtain ⟨own, others⟩ := List.forall_mem_cons.mp formed
    rw [allHeads, heads, List.cons_append, List.cons_subset, List.append_subset] at listed
    cases own with
    | tag named held nested =>
      exact drawTags_cons (fun pieces after => drawTags_tag listed.1 (inside nested listed.2.1))
        (rest others listed.2.2)
  | loneAttribute name value later rest => cases formed _ List.mem_cons_self
  | text value later rest =>
    have behind := rest (List.forall_mem_cons.mp formed).2 (List.append_subset.mp listed).2
    refine drawTags_cons (fun pieces after tags drawn => ?_) behind
    exact Except.ok.inj drawn ▸ tags.addText _
  | expression value later rest => cases formed _ List.mem_cons_self
  | conditional predicate thenBranch elseBranch later first second rest =>
    obtain ⟨own, others⟩ := List.forall_mem_cons.mp formed
    rw [allHeads, heads, List.cons_append, List.cons_subset, List.append_subset,
      List.append_subset] at listed
    cases own with
    | conditional solid trimmed chosen other =>
      refine drawTags_cons (fun pieces after tags drawn => ?_) (rest others listed.2.2)
      rw [draw] at drawn
      split at drawn
      · exact first chosen listed.2.1.1 pieces after tags drawn
      · exact second other listed.2.1.2 pieces after tags drawn
  | comment body buffered later rest =>
    have behind := rest (List.forall_mem_cons.mp formed).2 (List.append_subset.mp listed).2
    refine drawTags_cons (fun pieces after tags drawn => ?_) behind
    obtain rfl := Except.ok.inj drawn
    split
    · exact tags.finish.cons_other fun _ _ _ => Piece.noConfusion
    · exact tags
  | marker kind argument children later inside rest =>
    have behind := rest (List.forall_mem_cons.mp formed).2 (List.append_subset.mp listed).2
    refine drawTags_cons (fun pieces after tags drawn => ?_) behind
    contradiction

/-- The heads of well-formed elements are well formed. -/
theorem wellFormed_of_mem_allHeads (formed : ∀ e ∈ elements, e.WellFormed) {head : TagHead}
    (member : .tag head ∈ allHeads elements) : head.WellFormed := by
  induction elements using forest_induction with
  | nil => contradiction
  | tag own content children later inside rest =>
    obtain ⟨here, others⟩ := List.forall_mem_cons.mp formed
    cases here with
    | tag named held nested =>
      obtain first | behind := List.mem_append.mp member
      · obtain same | below := List.mem_cons.mp first
        · exact Head.tag.inj same ▸ named
        · exact inside nested below
      · exact rest others behind
  | conditional predicate thenBranch elseBranch later first second rest =>
    obtain ⟨here, others⟩ := List.forall_mem_cons.mp formed
    cases here with
    | conditional solid trimmed chosen other =>
      simp only [allHeads, heads, List.cons_append, List.mem_cons, List.mem_append,
        reduceCtorEq, false_or] at member
      obtain (one | two) | behind := member
      · exact first chosen one
      · exact second other two
      · exact rest others behind
  | marker kind argument children later inside rest =>
    obtain ⟨here, others⟩ := List.forall_mem_cons.mp formed
    cases here with
    | marker solid trimmed nested =>
      simp only [allHeads, heads, List.cons_append, List.mem_cons, List.mem_append,
        reduceCtorEq, false_or] at member
      obtain below | behind := member
      · exact inside nested below
      · exact rest others behind
  | _ =>
    simp only [allHeads, heads, List.singleton_append, List.mem_cons, reduceCtorEq,
      false_or] at member
    rename_i rest
    exact rest (List.forall_mem_cons.mp formed).2 member

end Element

namespace TagHead

variable {head : TagHead} (options : RenderOptions)

/-- Encoding leaves the names as they are. -/
theorem countP_encodedAttributes {P : Attribute → Bool}
    (named : ∀ a value, P ⟨a.name, value⟩ = P a) :
    (head.encodedAttributes options).countP P = head.allAttributes.countP P := by
  rw [encodedAttributes, List.countP_map]
  exact congrArg (List.countP · head.allAttributes) (funext fun a => named a _)

theorem countP_isClass (formed : head.WellFormed) :
    (head.encodedAttributes options).countP Attribute.isClass ≤ 1 := by
  have others : head.attributes.countP Attribute.isClass = 0 := by
    refine List.countP_eq_zero.mpr fun a member => ?_
    simpa [Attribute.isClass] using (formed.attributes a member).2
  rw [countP_encodedAttributes options fun _ _ => rfl, allAttributes, List.countP_append,
    List.countP_append, others]
  have id : (head.id.map (Attribute.mk ['i', 'd'] ·)).toList.countP Attribute.isClass = 0 := by
    cases head.id <;> rfl
  rw [id, Nat.zero_add, Nat.add_zero]
  refine List.countP_le_length.trans ?_
  split <;> simp

theorem countP_isId :
    (head.encodedAttributes options).countP Attribute.isId =
      head.id.toList.length + head.attributes.countP Attribute.isId := by
  rw [countP_encodedAttributes options fun _ _ => rfl, allAttributes, List.countP_append,
    List.countP_append]
  have id : (head.id.map (Attribute.mk ['i', 'd'] ·)).toList.countP Attribute.isId =
      head.id.toList.length := by
    cases head.id <;> rfl
  have classes : (if head.classes.isEmpty then []
      else [⟨['c', 'l', 'a', 's', 's'], [' '].intercalate head.classes⟩]).countP
        Attribute.isId = 0 := by
    split <;> rfl
  rw [id, classes, Nat.add_zero]

end TagHead

namespace Template

theorem pieces_tagsFrom {template : Template} (formed : template.WellFormed)
    {options : RenderOptions} {pieces : List Piece} (drawn : template.pieces options = .ok pieces) :
    Piece.TagsFrom options (Element.allHeads template.elements) pieces := by
  obtain ⟨after, elements, reversed⟩ := bind_ok drawn
  obtain rfl := Except.ok.inj reversed
  have start : Piece.TagsFrom options (Element.allHeads template.elements)
      (template.doctype.map fun keyword =>
        Piece.declaration (Doctype.declaration keyword)).toList := by
    cases template.doctype with
    | none => exact .nil
    | some keyword => exact Piece.TagsFrom.nil.cons_other nofun
  have tags := Element.drawTags_of_wellFormed formed.elements (List.Subset.refl _) _ after start
    elements
  exact fun name attributes finished member =>
    tags name attributes finished (List.mem_reverse.mp member)

/-- The markup of what was read has in no start tag two attributes for classes, whatever the case
of their names. The attributes for ids in a start tag are as many as its tag has in its list of
attributes, and one more if it has an id from a selector. -/
theorem attributes_of_render {source output : Text} {template : Template} {options : RenderOptions}
    (read : parse source = .ok template) (rendered : template.render options = .ok output) :
    ∃ pieces, template.pieces options = .ok pieces ∧
      output = Piece.layOut options.indentUnit options.newlineMarker pieces ∧
      ∀ name attributes finished, .startTag name attributes finished ∈ pieces →
        attributes.countP Attribute.isClass ≤ 1 ∧
        ∃ head, .tag head ∈ Element.allHeads template.elements ∧ head.name = name ∧
          attributes.countP Attribute.isId =
            head.id.toList.length + head.attributes.countP Attribute.isId := by
  have formed := wellFormed_of_parse read
  have laid := template.render_eq_map options options.indentUnit options.newlineMarker
  obtain ⟨pieces, drawn, same⟩ := map_ok (laid.symm.trans rendered)
  refine ⟨pieces, drawn, same.symm, fun name attributes finished member => ?_⟩
  obtain ⟨head, own, named, rfl⟩ := pieces_tagsFrom formed drawn name attributes finished member
  have ownFormed := Element.wellFormed_of_mem_allHeads formed.elements own
  exact ⟨head.countP_isClass options ownFormed, head, own, named, head.countP_isId options⟩

/-- A text that is one line with one tag. -/
theorem parse_tag {text : Text} {line : Line} {head : TagHead} (plain : '\r' ∉ text)
    (alone : linesOf text = [line]) (unnamed : doctypeOf text [line] = .ok none)
    (whole : body [line] = [line]) (solid : line.isBlank = false)
    (said : Statement.ofLine text line = .ok (.tag (.plain head none))) :
    parse text = .ok ⟨none, [.tag head none []]⟩ := by
  have element : elementsOf text [line] = .ok [.tag head none []] := by
    refine (@LineTree.elements_statement text none ⟨line, _, []⟩ solid rfl []).trans ?_
    rw [said]
    rfl
  rw [parse_eq plain, alone, unnamed, whole, element]
  rfl

/-- Classes from selectors on both sides of the list and from the list, and an id from each. -/
def mixedTag : TagHead :=
  ⟨['a'], some ['x'], [['b'], ['c'], ['d']], [⟨['i', 'd'], ['y']⟩]⟩

theorem attributes_of_render_mixed :
    parse "a.b#x(CLASS=\"c\" id=\"y\").d".toList = .ok ⟨none, [.tag mixedTag none []]⟩ ∧
      render ⟨none, [.tag mixedTag none []]⟩ =
        .ok "<a id=\"x\" class=\"b c d\" id=\"y\"/>".toList ∧
      ∃ drawn, pieces ⟨none, [.tag mixedTag none []]⟩ {} = .ok drawn ∧
        ∃ attributes, .startTag ['a'] attributes false ∈ drawn ∧
          attributes.countP Attribute.isClass ≤ 1 ∧ attributes.countP Attribute.isId = 2 := by
  have read : parse "a.b#x(CLASS=\"c\" id=\"y\").d".toList =
      .ok ⟨none, [.tag mixedTag none []]⟩ :=
    @parse_tag _ (Token.listFrom .start "a.b#x(CLASS=\"c\" id=\"y\").d".toList) _ (by decide)
      (by decide +kernel) (by decide +kernel) (by decide +kernel) (by decide +kernel)
      (by decide +kernel)
  have rendered : render ⟨none, [.tag mixedTag none []]⟩ =
      .ok "<a id=\"x\" class=\"b c d\" id=\"y\"/>".toList := by
    rfl
  obtain ⟨pieces, drawn, -, tags⟩ := attributes_of_render read rendered
  have made := drawn
  obtain rfl := Except.ok.inj made
  exact ⟨read, rendered, _, drawn, _, List.mem_cons_self, (tags _ _ _ List.mem_cons_self).1, rfl⟩

/-- So a start tag may well have two ids. -/
theorem not_single_id :
    ¬ ∀ (source output : Text) (template : Template) (options : RenderOptions)
      (pieces : List Piece), parse source = .ok template → template.render options = .ok output →
        template.pieces options = .ok pieces →
          ∀ name attributes finished, .startTag name attributes finished ∈ pieces →
            attributes.countP Attribute.isId ≤ 1 ∧ attributes.countP Attribute.isClass ≤ 1 := by
  intro single
  have read : parse "a#x(id=\"y\")".toList =
      .ok ⟨none, [.tag ⟨['a'], some ['x'], [], [⟨['i', 'd'], ['y']⟩]⟩ none []]⟩ :=
    @parse_tag _ (Token.listFrom .start "a#x(id=\"y\")".toList) _ (by decide) (by decide +kernel)
      (by decide +kernel) (by decide +kernel) (by decide +kernel) (by decide +kernel)
  have twice := (single _ "<a id=\"x\" id=\"y\"/>".toList _ {} _ read rfl rfl ['a'] _ false
    List.mem_cons_self).1
  contradiction

end Template

end IndentMarkup
