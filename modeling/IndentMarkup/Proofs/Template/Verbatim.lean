import IndentMarkup.Proofs.Statement.Verbatim
import IndentMarkup.Proofs.Template.Outline
import IndentMarkup.Proofs.Template.Parts

/-! Where the texts of a template come from. Each line that gives elements is one statement, the
elements are what the statements say, in the order of the lines, and what they take from the rest
of a line is the source itself. -/
namespace IndentMarkup

namespace LineTree

variable {source : Text}

theorem structural_of_blank {blanks : List LineTree} (blank : ∀ tree ∈ blanks, tree.isBlank = true)
    (later : List LineTree) : structural source (blanks ++ later) = structural source later := by
  induction blanks with
  | nil => rfl
  | cons tree blanks ih =>
    rw [List.forall_mem_cons] at blank
    rw [List.cons_append, structural, structuralLines_eq, if_pos blank.1, List.nil_append,
      ih blank.2]

/-- The lines are those statements, and the parts are what they say. -/
structure Told (source : Text) (lines : List Line) (said : List Statement) (parts : List Element) :
    Prop where
  read : List.Forall₂ (fun line statement => Statement.ofLine source line = .ok statement) lines said
  gives : List.Forall₂ Statement.GivesPart (said.flatMap Statement.links) parts

namespace Told

variable {line : Line} {lines lines' : List Line} {statement : Statement}
  {said said' : List Statement} {own parts parts' : List Element}

theorem nil : Told source [] [] [] :=
  ⟨.nil, .nil⟩

theorem append (first : Told source lines said parts) (second : Told source lines' said' parts') :
    Told source (lines ++ lines') (said ++ said') (parts ++ parts') where
  read := List.rel_append first.read second.read
  gives := by
    rw [List.flatMap_append]
    exact List.rel_append first.gives second.gives

theorem cons (read : Statement.ofLine source line = .ok statement)
    (gives : List.Forall₂ Statement.GivesPart statement.links own)
    (told : Told source lines said parts) :
    Told source (line :: lines) (statement :: said) (own ++ parts) where
  read := .cons read told.read
  gives := by
    rw [List.flatMap_cons]
    exact List.rel_append gives told.gives

end Told

theorem Become.told {trees : List LineTree} {elements : List Element}
    (become : Become source trees elements) :
    ∃ said, Told source (structural source trees) said (Element.within elements) := by
  induction become with
  | nil => exact ⟨[], .nil⟩
  | @blank tree later elements blank behind ih =>
    have passed : structural source (tree :: later) = structural source later :=
      structural_of_blank (List.forall_mem_singleton.mpr blank) later
    exact passed ▸ ih
  | @statement tree later statement element elements solid own plain made inside behind ih ih' =>
    obtain ⟨first, inner, gives, parts, held⟩ := Statement.parts_element made fun blank =>
      (children_eq tree).trans (elements_of_blank blank)
    obtain ⟨beside, told'⟩ := ih'
    rw [structural_statement solid own, Element.within, parts, List.append_assoc]
    split at held
    next holds =>
      subst held
      rw [if_pos holds]
      exact ⟨_, .cons own gives told'⟩
    next shown =>
      obtain ⟨below, told⟩ := ih inner held
      rw [if_neg shown]
      exact ⟨_, .cons own gives (told.append told')⟩
  | @condition tree later predicate branch elements solid own read inside behind ih ih' =>
    obtain ⟨below, told⟩ := ih
    obtain ⟨beside, told'⟩ := ih'
    rw [structural_statement solid own, Element.within, Element.parts]
    refine ⟨.condition predicate :: (below ++ beside), ?_⟩
    simpa [Statement.holdsText, Element.within] using
      Told.cons own (.cons .condition .nil) (told.append told')
  | @branches tree other blanks later predicate thenBranch elseBranch elements solid own read inside
      blank solid' level marked bare read' inside' behind ih ih' ih'' =>
    obtain ⟨below, told⟩ := ih
    obtain ⟨below', told'⟩ := ih'
    obtain ⟨beside, told''⟩ := ih''
    rw [structural_statement solid own, structural_of_blank blank, structural_else solid' marked,
      Element.within, Element.parts]
    refine ⟨.condition predicate :: (below ++ (below' ++ beside)), ?_⟩
    simpa [Statement.holdsText] using
      Told.cons own (.cons .condition .nil) (told.append (told'.append told''))

end LineTree

namespace Template

theorem outline_sublist (source : Text) (lines : List Line) :
    (outline source lines).Sublist lines := by
  fun_induction outline source lines with
  | case1 => exact .slnil
  | case2 line later _ ih => exact ih.cons line
  | case3 line later _ _ ih => exact (ih.trans (List.dropWhile_sublist _)).cons_cons line
  | case4 line later _ _ ih => exact ih.cons_cons line

/-- The texts that a template has from the rests of its lines are the source as it is written, each
from behind the token that announces it to the end of the line. -/
theorem verbatim_of_parse {text : Text} {template : Template} (read : parse text = .ok template) :
    ∃ said : List Statement,
      List.Forall₂ (fun line statement => Statement.ofLine text.normalize line = .ok statement ∧
          statement.Verbatim text.normalize line)
        (outline text.normalize (body (linesOf text.normalize))) said ∧
      List.Forall₂ Statement.GivesPart (said.flatMap Statement.links)
        (Element.within template.elements) := by
  obtain ⟨said, told⟩ := (LineTree.become_of_elements.1 (elementsOf_of_parse read)).told
  rw [structural_ofLines] at told
  have lines : ∀ line ∈ outline text.normalize (body (linesOf text.normalize)),
      line ∈ linesOf text.normalize :=
    fun line member => body_subset _ ((outline_sublist _ _).subset member)
  refine ⟨said, ?_, told.gives⟩
  refine ((List.forall₂_and_left (p := (· ∈ linesOf text.normalize)) ..).mpr ⟨lines, told.read⟩).imp ?_
  exact fun line statement both => ⟨both.2, Statement.ofLine_verbatim both.1 both.2⟩

/-- A string over two lines behind an equals sign, and a dot at the end of a piped line. -/
theorem verbatim_of_parse_string :
    ∃ template, parse "p=  \"a\n = b\" .c \n|  d: e.\n".toList = .ok template ∧
      template.elements = [.tag { name := ['p'] } (some (.expression "\"a\n = b\" .c".toList)) [],
        .text "d: e.".toList] ∧
      ∃ said : List Statement,
        List.Forall₂ (fun line statement => Statement.ofLine
              (Text.normalize "p=  \"a\n = b\" .c \n|  d: e.\n".toList) line = .ok statement ∧
            statement.Verbatim (Text.normalize "p=  \"a\n = b\" .c \n|  d: e.\n".toList) line)
          (outline (Text.normalize "p=  \"a\n = b\" .c \n|  d: e.\n".toList)
            (body (linesOf (Text.normalize "p=  \"a\n = b\" .c \n|  d: e.\n".toList)))) said ∧
        List.Forall₂ Statement.GivesPart (said.flatMap Statement.links)
          (Element.within template.elements) := by
  have read : parse "p=  \"a\n = b\" .c \n|  d: e.\n".toList =
      .ok ⟨none, [.tag { name := ['p'] } (some (.expression "\"a\n = b\" .c".toList)) [],
        .text "d: e.".toList]⟩ := by cbv
  exact ⟨_, read, rfl, verbatim_of_parse read⟩

end Template

end IndentMarkup
