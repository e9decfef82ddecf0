import IndentMarkup.Proofs.Line.Lexed
import IndentMarkup.Proofs.Template.Kept

/-! Which errors reading a template may have. Whatever list of tokens is read, the complaint is
about one of them, or that more of them were needed. -/
namespace IndentMarkup

/-- Reading the tokens succeeds, or it fails with an error about one of them or about their end. The
mark for the end of input cannot be shown, so it has an error of its own. -/
inductive ParseError.Located {α : Type} (tokens : List Token) : Except ParseError α → Prop where
  | ok (value : α) : Located tokens (.ok value)
  | unexpectedEnd : Located tokens (.error .unexpectedEnd)
  | unexpectedToken {t : Token} (member : t ∈ tokens) (shown : t.kind ≠ .eof) :
      Located tokens (.error (.unexpectedToken t.text t.position.line t.position.column))
  | invalidToken {t : Token} (member : t ∈ tokens) (mark : t.kind = .eof) :
      Located tokens (.error .invalidToken)

/-- To blame a token is to name its place. -/
theorem ParseError.located_of_meets {α : Type} {tokens : List Token} {run : Except ParseError α}
    (meets : Meets (Blames tokens) (fun _ => True) run) : Located tokens run := by
  cases meets with
  | ok => exact .ok _
  | error blames =>
    cases blames with
    | ended => exact .unexpectedEnd
    | @token t member =>
      rw [ofToken]
      split
      next mark => exact .invalidToken member mark
      next shown => exact .unexpectedToken member shown

theorem LineTree.line_mem_forestLines {tree : LineTree} {trees : List LineTree}
    (member : tree ∈ trees) : tree.line ∈ forestLines trees := by
  obtain ⟨before, after, rfl⟩ := List.append_of_mem member
  obtain ⟨line, indent, nested⟩ := tree
  simp [forestLines_append, forestLines, lines]

variable {tokens : List Token} {source : Text}

theorem Statement.element_blames {statement : Statement} {nested : List LineTree}
    {children : Except ParseError (List Element)}
    (fit : ∀ line ∈ LineTree.forestLines nested, line ⊆ tokens)
    (inside : Meets (ParseError.Blames tokens) (fun _ => True) children) :
    Meets (ParseError.Blames tokens) (fun _ => True)
      (statement.element source nested children) := by
  cases statement with
  | tag line =>
    rw [element]
    split
    · exact .ok trivial
    · exact inside.map fun _ _ => trivial
  | piped text =>
    rw [element]
    split
    next child found =>
      have own : child.line ⊆ tokens :=
        fit _ (LineTree.line_mem_forestLines (List.mem_of_find?_eq_some found))
      exact .error ((Line.blames_unexpected (Line.skipSpace_suffix _)).mono own)
    · exact .ok trivial
  | comment => exact .ok trivial
  | marker => exact inside.map fun _ _ => trivial
  | condition => exact inside.map fun _ _ => trivial

/-- Lines that are made of the tokens give elements, or an error about one of the tokens. -/
theorem LineTree.kept_blames (source : Text) (tokens : List Token) :
    LineTree.Kept source (· ⊆ tokens) (ParseError.Blames tokens) (fun _ => True)
      (fun _ => True) where
  statement line fit :=
    (Statement.ofLine_from source line).imp (fun _ blames => blames.mono fit) fun _ _ => trivial
  marked line fit := (readElse_blames line).imp (fun _ blames => blames.mono fit) fun _ => id
  element _ _ _ _ fit inside :=
    Statement.element_blames fit (inside.imp (fun _ => id) fun _ _ => trivial)
  conditional _ _ _ _ _ _ := trivial

namespace Template

theorem ofTokens_blames (source : Text) (tokens : List Token) :
    Meets (ParseError.Blames tokens) (fun _ => True) (ofTokens source tokens) := by
  have fit : ∀ line ∈ Line.split tokens, line ⊆ tokens :=
    fun line member => ((Line.split_isInfix tokens).2 line member).subset
  have doctype : Meets (ParseError.Blames tokens) (fun _ => True)
      (doctypeOf source (Line.split tokens)) := by
    refine (doctypeOf_from source _).imp ?_ fun _ _ => trivial
    rintro error ⟨line, member, blames⟩
    exact blames.mono (fit line member)
  exact (ofTokens_meets (LineTree.kept_blames source tokens) fit doctype).imp (fun _ => id)
    fun _ _ => trivial

/-- Every error of reading a template is located. Whatever the tokens and the source are, it says
that more was needed, or it shows a token of the list, or the list holds a mark for the end of
input. A source is always read as tokens without such a mark. -/
theorem parse_located :
    (∀ source tokens, ParseError.Located tokens (ofTokens source tokens)) ∧
      ∀ text, ∃ tokens, Token.ofText text.normalize = .ok tokens ∧
        ParseError.Located tokens (parse text) ∧ parse text ≠ .error .invalidToken := by
  have located : ∀ source tokens, ParseError.Located tokens (ofTokens source tokens) :=
    fun source tokens => ParseError.located_of_meets (ofTokens_blames source tokens)
  refine ⟨located, fun text => ⟨_, Token.ofText_eq_listFrom _, ?_⟩⟩
  have own := located text.normalize (Token.listFrom .start text.normalize)
  rw [parse_eq_ofTokens]
  refine ⟨own, fun failed => ?_⟩
  rw [failed] at own
  cases own with
  | invalidToken member mark => exact Token.kind_ne_eof member mark

/-- No tag starts with the parenthesis behind the colon. Only a list that is not made of a source
holds a mark to stumble over. -/
theorem parse_located_behind_colon :
    let tokens : List Token := [⟨.word, ['p'], ⟨0, 1, 1⟩⟩, ⟨.symbol .colon, [':'], ⟨1, 1, 2⟩⟩,
      ⟨.symbol .openParen, ['('], ⟨2, 1, 3⟩⟩, ⟨.word, ['a'], ⟨3, 1, 4⟩⟩,
      ⟨.symbol .closeParen, [')'], ⟨4, 1, 5⟩⟩]
    let mark : Token := ⟨.eof, [], .start⟩
    Token.ofText (Text.normalize "p:(a)".toList) = .ok tokens ∧
      parse "p:(a)".toList = .error (.unexpectedToken ['('] 1 3) ∧
      ParseError.Located tokens (parse "p:(a)".toList) ∧
      ofTokens [] [mark] = .error .invalidToken ∧
      ParseError.Located [mark] (ofTokens [] [mark]) := by
  intro tokens mark
  have listed : Token.ofText (Text.normalize "p:(a)".toList) = .ok tokens := by decide +kernel
  have failed : parse "p:(a)".toList = .error (.unexpectedToken ['('] 1 3) := by cbv
  have marked : ofTokens [] [mark] = .error .invalidToken := by cbv
  obtain ⟨read, same, located, -⟩ := parse_located.2 "p:(a)".toList
  obtain rfl := Except.ok.inj (same.symm.trans listed)
  exact ⟨listed, failed, located, marked, parse_located.1 [] [mark]⟩

end Template

end IndentMarkup
