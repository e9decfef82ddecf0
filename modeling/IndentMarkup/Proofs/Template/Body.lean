import IndentMarkup.Proofs.Template.Similar
import IndentMarkup.Proofs.Token.Partition
import Mathlib.Data.List.Permutation

/-! A template from its lines. The first line may name the document type, all others are the
body, and lines that look alike are read as the same template. -/
namespace IndentMarkup

namespace Template

/-- The document type, if the first line names one. -/
def doctypeOf (source : Text) : List Line → Except ParseError (Option Text)
  | (t :: rest) :: _ =>
    if t.kind = .keyword .doctype then (readDoctype source rest).map some else .ok none
  | _ => .ok none

/-- The lines without that of the document type. -/
def body : List Line → List Line
  | (t :: rest) :: later => if t.kind = .keyword .doctype then later else (t :: rest) :: later
  | lines => lines

/-- The elements of lines. -/
def elementsOf (source : Text) (lines : List Line) : Except ParseError (List Element) :=
  LineTree.elements source none (LineTree.ofLines lines)

theorem ofTokens_eq (source : Text) (tokens : List Token) :
    ofTokens source tokens = do
      let doctype ← doctypeOf source (Line.split tokens)
      return ⟨doctype, ← elementsOf source (body (Line.split tokens))⟩ := by
  unfold ofTokens
  generalize Line.split tokens = lines
  rcases lines with _ | ⟨_ | ⟨t, rest⟩, later⟩
  · rfl
  · rfl
  · dsimp only [doctypeOf, body, elementsOf]
    split
    · cases readDoctype source rest <;> rfl
    · rfl

/-- The lines of a text as they are read. -/
def linesOf (text : Text) : List Line :=
  Line.split (Token.listFrom .start text)

theorem parse_eq {text : Text} (plain : '\r' ∉ text) :
    parse text = do
      let doctype ← doctypeOf text (linesOf text)
      return ⟨doctype, ← elementsOf text (body (linesOf text))⟩ := by
  have kept : ∀ c ∈ text, c ≠ '\r' := fun c member same => plain (same ▸ member)
  have normal : text.normalize = text :=
    List.filter_eq_self.mpr fun c member => by simpa using kept c member
  rw [parse, normal, Token.ofText_eq_listFrom]
  exact ofTokens_eq text _

theorem parse_normalize (text : Text) : parse text.normalize = parse text := by
  simp only [parse, Text.normalize_idem]

theorem body_subset (lines : List Line) : body lines ⊆ lines := by
  unfold body
  split
  · split
    · exact List.subset_cons_self ..
    · exact List.Subset.refl _
  · exact List.Subset.refl _

/-- The elements of a template are those of its body. -/
theorem elementsOf_of_parse {text : Text} {template : Template} (read : parse text = .ok template) :
    elementsOf text.normalize (body (linesOf text.normalize)) = .ok template.elements := by
  rw [← parse_normalize, parse_eq (by simp [Text.normalize])] at read
  obtain ⟨doctype, -, read⟩ := bind_ok read
  obtain ⟨elements, made, ⟨⟩⟩ := bind_ok read
  exact made

variable {E : ParseError → ParseError → Prop} {source source' : Text} {lines lines' : List Line}

theorem body_of_doctypeOf (nothing : doctypeOf source lines = .ok none) :
    body lines = lines := by
  rcases lines with _ | ⟨_ | ⟨t, rest⟩, later⟩
  · rfl
  · rfl
  · rw [body]
    split
    next named =>
      rw [doctypeOf, if_pos named] at nothing
      cases found : readDoctype source rest <;> simp [found, Except.map] at nothing
    next => rfl

theorem body_alike (alike : List.Forall₂ (Line.Alike E source source') lines lines') :
    List.Forall₂ (Line.Alike E source source') (body lines) (body lines') := by
  cases alike with
  | nil => exact .nil
  | cons first later =>
    cases first with
    | nil => exact .cons .nil later
    | cons kind text blame span rest =>
      rw [body, body, ← kind]
      split
      · exact later
      · exact .cons (.cons kind text blame span rest) later

variable [Std.Refl E]

theorem readDoctype_alike {line line' : Line} (alike : Line.Alike E source source' line line') :
    Agree E Eq (readDoctype source line) (readDoctype source' line') := by
  refine (alike.expect .space).bind fun taken taken' same => ?_
  dsimp only
  rw [Line.readRest_eq, Line.readRest_eq, same.left.sourceText]
  split
  · exact .error (Std.Refl.refl _)
  · exact .ok rfl

theorem doctypeOf_alike (alike : List.Forall₂ (Line.Alike E source source') lines lines') :
    Agree E Eq (doctypeOf source lines) (doctypeOf source' lines') := by
  cases alike with
  | nil => exact .ok rfl
  | cons first later =>
    cases first with
    | nil => exact .ok rfl
    | cons kind text blame span rest =>
      rw [doctypeOf, doctypeOf, ← kind]
      split
      · exact (readDoctype_alike rest).map fun _ _ same => congrArg some same
      · exact .ok rfl

theorem elementsOf_alike (alike : List.Forall₂ (Line.Alike E source source') lines lines') :
    Agree E Eq (elementsOf source lines) (elementsOf source' lines') := by
  have order : LineTree.SameOrder Eq := by
    rintro m _ n _ rfl rfl
    exact Iff.rfl
  have parallel : LineTree.Parallel (Line.Alike E source source') Eq (LineTree.ofLines lines)
      (LineTree.ofLines lines') := by
    refine .ofLines order (fun line line' same => ⟨same.isBlank, ?_⟩) alike
    simp only [LineTree.indentBefore, same.isBlank, same.indent]
  have similar := parallel.similar order (fun _ _ same => same.isBlank)
    (fun _ _ same => same.skipSpace)
    fun _ _ _ nested' inside => LineTree.blockText_alike inside.forestLines
  exact similar.elements_agree .closed

end Template

end IndentMarkup
