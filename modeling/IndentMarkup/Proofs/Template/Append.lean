import IndentMarkup.Proofs.Line.Margin
import IndentMarkup.Proofs.Template.Body

/-! Templates one after the other. Where a text ends with a line and the next one begins at the
margin, the second is read as it is by itself, and what is wrong with the first is wrong with
both. -/
namespace IndentMarkup

/-- No string that is opened in the text is left open in it. -/
def Text.ClosesStrings (text : Text) : Prop :=
  ∀ tokens, Token.ofText text = .ok tokens → ∀ t ∈ tokens, t.isUnclosed = false

theorem Text.closesStrings_iff (text : Text) : text.ClosesStrings ↔
    (match Token.ofText text with
      | .ok tokens => tokens.all fun t => !t.isUnclosed
      | .error _ => true) = true := by
  rw [ClosesStrings]
  cases Token.ofText text <;> simp

variable {source : Text}

namespace LineTree

/-- What the lines at the front come to is settled whatever comes behind them: they fail, or
they are so many elements and may leave a condition open. -/
def Front (source : Text) (run : List LineTree → Except ParseError (List Element)) : Prop :=
  (∃ error, ∀ more, run more = .error error) ∨
    ∃ done last, ∀ more, run more = (elements source last more).map (done ++ ·)

theorem Front.error (error : ParseError) : Front source fun _ => .error error :=
  .inl ⟨error, fun _ => rfl⟩

theorem Front.prepend {run : List LineTree → Except ParseError (List Element)}
    {put : List Element → List Element} (front : List Element)
    (puts : ∀ elements, put elements = front ++ elements) (settled : Front source run) :
    Front source fun more => (run more).bind fun elements => .ok (put elements) := by
  rcases settled with ⟨error, fails⟩ | ⟨done, last, goes⟩
  · refine .inl ⟨error, fun more => ?_⟩
    dsimp only
    rw [fails]
    rfl
  · refine .inr ⟨front ++ done, last, fun more => ?_⟩
    dsimp only
    rw [goes]
    cases elements source last more with
    | error error => rfl
    | ok value => simp [Except.bind, Except.map, puts]

theorem front_elements (source : Text) (condition : Option OpenCondition)
    (trees : List LineTree) :
    Front source fun more => elements source condition (trees ++ more) := by
  induction trees generalizing condition with
  | nil =>
    refine .inr ⟨[], condition, fun more => ?_⟩
    dsimp only [List.nil_append]
    cases elements source condition more <;> rfl
  | cons tree trees ih =>
    simp only [List.cons_append]
    by_cases blank : tree.isBlank = true
    · simp only [elements_blank blank]
      exact ih condition
    have solid : tree.isBlank = false := by simpa using blank
    cases claimed : condition.filter (·.claims tree) with
    | some own =>
      simp only [elements_else solid claimed]
      cases readElse tree.line with
      | error error => exact .error error
      | ok _ =>
        cases tree.children source with
        | error error => exact .error error
        | ok branch => exact (ih none).prepend [own.close branch] fun _ => rfl
    | none =>
      simp only [elements_statement solid claimed]
      generalize (condition.map (·.close [])).toList = closed
      cases Statement.ofLine source tree.line with
      | error error => exact .error error
      | ok statement =>
        change Front source fun more => elementsFrom source closed tree (trees ++ more) statement
        obtain ⟨predicate, rfl⟩ | plain := statement.condition_or_plain
        · simp only [elementsFrom]
          cases tree.children source with
          | error error => exact .error error
          | ok branch => exact (ih (some ⟨_, _, branch⟩)).prepend closed fun _ => rfl
        · simp only [elementsFrom_of_ne closed _ plain]
          cases statement.element source tree.nested (tree.children source) with
          | error error => exact .error error
          | ok element =>
            exact (ih none).prepend (closed ++ [element]) fun _ => by simp

/-- Lines that are elements by themselves are the same ones behind a condition that is open:
the first of them is not its `else`. -/
theorem elements_after {trees : List LineTree} {elements' : List Element}
    (alone : elements source none trees = .ok elements') (condition : Option OpenCondition) :
    elements source condition trees = .ok ((condition.map (·.close [])).toList ++ elements') := by
  induction trees with
  | nil =>
    obtain rfl : [] = elements' := by simpa [elements] using alone
    simp [elements]
  | cons tree trees ih =>
    by_cases blank : tree.isBlank = true
    · rw [elements_blank blank] at alone ⊢
      exact ih alone
    have solid : tree.isBlank = false := by simpa using blank
    rw [elements_statement solid rfl] at alone
    obtain ⟨statement, said, alone⟩ := bind_ok alone
    have unclaimed : condition.filter (·.claims tree) = none := by
      rw [Option.filter_eq_none_iff]
      intro own _ claims
      rw [OpenCondition.claims, Bool.and_eq_true] at claims
      exact Statement.ofLine_else claims.2 statement said
    rw [elements_statement solid unclaimed, said]
    change elementsFrom source _ tree trees statement = _
    rw [elementsFrom_closed]
    exact congrArg (Except.map _) alone

/-- What is wrong with the lines at the front is found first. -/
theorem elements_append_error {condition : Option OpenCondition} {trees : List LineTree}
    {error : ParseError} (wrong : elements source condition trees = .error error)
    (more : List LineTree) : elements source condition (trees ++ more) = .error error := by
  rcases front_elements source condition trees with ⟨error', fails⟩ | ⟨done, last, goes⟩
  · have alone : elements source condition (trees ++ []) = _ := fails []
    rw [List.append_nil, wrong] at alone
    obtain rfl := Except.error.inj alone
    exact fails more
  · have alone : elements source condition (trees ++ []) = _ := goes []
    rw [List.append_nil, wrong, elements] at alone
    contradiction

theorem elements_append {condition : Option OpenCondition} {trees more : List LineTree}
    {first second : List Element} (own : elements source condition trees = .ok first)
    (alone : elements source none more = .ok second) :
    elements source condition (trees ++ more) = .ok (first ++ second) := by
  rcases front_elements source condition trees with ⟨error, fails⟩ | ⟨done, last, goes⟩
  · have same : elements source condition (trees ++ []) = _ := fails []
    rw [List.append_nil, own] at same
    contradiction
  · have same : elements source condition (trees ++ []) = _ := goes []
    rw [List.append_nil, own, elements] at same
    obtain rfl := Except.ok.inj same
    refine (goes more).trans ?_
    rw [elements_after alone, List.append_assoc]
    rfl

/-- A blank line behind the last one is passed over. -/
theorem elements_append_blank {tree : LineTree} (blank : tree.isBlank = true)
    (condition : Option OpenCondition) (trees : List LineTree) :
    elements source condition (trees ++ [tree]) = elements source condition trees := by
  have passed : elements source condition (trees ++ [tree]) =
      elements source condition (trees ++ []) := by
    rcases front_elements source condition trees with ⟨error, fails⟩ | ⟨done, last, goes⟩
    · exact (fails [tree]).trans (fails []).symm
    · refine (goes [tree]).trans (Eq.trans ?_ (goes []).symm)
      rw [elements_blank blank]
  rwa [List.append_nil] at passed

end LineTree

namespace Template

theorem linesOf_ne_nil {text : Text} (nonempty : text ≠ []) : linesOf text ≠ [] := by
  obtain ⟨found, first⟩ := Token.exists_first nonempty
  rw [linesOf, Token.listFrom_of_first _ first, Line.split_eq_cut_cons]
  exact List.cons_ne_nil _ _

theorem doctypeOf_append {lines : List Line} (nonempty : lines ≠ []) (more : List Line) :
    doctypeOf source (lines ++ more) = doctypeOf source lines := by
  rcases lines with _ | ⟨_ | ⟨t, rest⟩, later⟩
  · contradiction
  · rfl
  · rfl

theorem body_append {lines : List Line} (nonempty : lines ≠ []) (more : List Line) :
    body (lines ++ more) = body lines ++ more := by
  rcases lines with _ | ⟨_ | ⟨t, rest⟩, later⟩
  · contradiction
  · rfl
  · simp only [List.cons_append, body]
    split <;> rfl

theorem elementsOf_append {lines more : List Line}
    (flush : ∀ line ∈ more.find? (!·.isBlank), line.indent = 0) :
    elementsOf source (lines ++ more) =
      LineTree.elements source none (LineTree.ofLines lines ++ LineTree.ofLines more) := by
  rw [elementsOf, LineTree.ofLines_append_flush]
  intro tree first
  rw [LineTree.ofLines_head_indent more tree first]
  cases solid : more.find? (!·.isBlank) with
  | none => rfl
  | some line => exact flush line solid

theorem doctypeOf_append_blank {line : Line} (blank : line.isBlank = true) (lines : List Line) :
    doctypeOf source (lines ++ [line]) = doctypeOf source lines := by
  by_cases nonempty : lines = []
  · subst nonempty
    cases line with
    | nil => rfl
    | cons t rest =>
      have space : t.kind = .space := by simpa using (List.all_eq_true.mp blank t (.head _))
      simp [doctypeOf, space]
  · exact doctypeOf_append nonempty _

/-- A blank line at the end is no element. -/
theorem elementsOf_append_blank {line : Line} (blank : line.isBlank = true) (lines : List Line) :
    elementsOf source (body (lines ++ [line])) = elementsOf source (body lines) := by
  have passed (lines : List Line) :
      elementsOf source (lines ++ [line]) = elementsOf source lines := by
    rw [elementsOf_append (by simp [blank])]
    have blank : LineTree.isBlank ⟨line, LineTree.indentBefore line [], []⟩ = true := blank
    exact LineTree.elements_append_blank blank none _
  by_cases nonempty : lines = []
  · subst nonempty
    cases line with
    | nil => exact passed []
    | cons t rest =>
      have space : t.kind = .space := by simpa using (List.all_eq_true.mp blank t (.head _))
      have own : body [t :: rest] = [t :: rest] := by simp [body, space]
      rw [List.nil_append, own]
      exact passed []
  · rw [body_append nonempty]
    exact passed _

theorem parse_nil : parse [] = .ok ⟨none, []⟩ := by
  rw [parse_eq List.not_mem_nil, linesOf, Token.listFrom_nil]
  rfl

/-- In front of another text, a text is read as it is by itself. -/
theorem parse_in_front {first : Text} (plain : '\r' ∉ first) (second : Text) :
    parse first = do
      let doctype ← doctypeOf (first ++ second) (linesOf first)
      return ⟨doctype, ← elementsOf (first ++ second) (body (linesOf first))⟩ := by
  have before : Position.start.Before first (first ++ []) := (List.append_nil first).symm
  have before' : Position.start.Before (first ++ second) (first ++ second) := rfl
  have alike : List.Forall₂ (Line.Alike Eq first (first ++ second)) (linesOf first)
      (linesOf first) :=
    Line.Alike.split_listFrom before before' fun _ _ same => by rw [same.eq]
  rw [parse_eq plain, (doctypeOf_alike alike).eq, (elementsOf_alike (body_alike alike)).eq]

/-- Behind another text, the lines of a text without a document type are the elements that they
are by themselves. -/
theorem elements_behind {second : Text} (plain : '\r' ∉ second) {elements : List Element}
    (alone : parse second = .ok ⟨none, elements⟩) (first : Text) :
    elementsOf (first ++ second)
      (Line.split (Token.listFrom (Position.start.advance first) second)) = .ok elements := by
  have before : Position.start.Before second (second ++ []) := (List.append_nil second).symm
  have before' : (Position.start.advance first).Before (first ++ second) (second ++ []) := by
    have whole : Position.start.Before (first ++ second) (first ++ second) := rfl
    rw [List.append_nil]
    exact whole.advance first
  have alike : List.Forall₂ (Line.Alike AnyErrors second (first ++ second)) (linesOf second)
      (Line.split (Token.listFrom (Position.start.advance first) second)) :=
    Line.Alike.split_listFrom before before' fun _ _ _ => trivial
  rw [parse_eq plain] at alone
  obtain ⟨_, named, alone⟩ := bind_ok alone
  obtain ⟨_, read, ⟨⟩⟩ := bind_ok alone
  rw [body_of_doctypeOf named] at read
  exact ((elementsOf_alike alike).ok_iff elements).mp read

/-- The trees of the whole are those of the one text and those of the other. -/
theorem parse_seam {first second : Text} (plain : '\r' ∉ first) (plain' : '\r' ∉ second)
    (nonempty : first ≠ []) (ended : first.EndsLine) (closed : first.ClosesStrings)
    (flush : second.StartsFlush) :
    parse (first ++ second) = do
      let doctype ← doctypeOf (first ++ second) (linesOf first)
      return ⟨doctype, ← LineTree.elements (first ++ second) none
        (LineTree.ofLines (body (linesOf first)) ++ LineTree.ofLines
          (Line.split (Token.listFrom (Position.start.advance first) second)))⟩ := by
  have whole : linesOf (first ++ second) =
      linesOf first ++ Line.split (Token.listFrom (Position.start.advance first) second) :=
    split_listFrom_append .start ended (closed _ (Token.ofText_eq_listFrom first)) second
  rw [parse_eq (by simp [plain, plain']), whole, doctypeOf_append (linesOf_ne_nil nonempty),
    body_append (linesOf_ne_nil nonempty), elementsOf_append (flush.indent _)]

/-- Behind an ended line, a text is read that begins at the margin: the first error is that of
the first text, and otherwise the elements are those of the one and then those of the other. -/
theorem parse_append {first second : Text} (plain : '\r' ∉ first) (plain' : '\r' ∉ second)
    (ended : first.EndsLine) (closed : first.ClosesStrings) (flush : second.StartsFlush) :
    (∀ error, parse first = .error error → parse (first ++ second) = .error error) ∧
      ∀ template behind, parse first = .ok template → parse second = .ok behind →
        behind.doctype = none →
        parse (first ++ second) =
          .ok ⟨template.doctype, template.elements ++ behind.elements⟩ := by
  by_cases nonempty : first = []
  · subst nonempty
    rw [parse_nil]
    refine ⟨nofun, ?_⟩
    rintro _ ⟨doctype, elements⟩ ⟨rfl⟩ same rfl
    exact same
  rw [parse_in_front plain second, parse_seam plain plain' nonempty ended closed flush]
  constructor
  · intro error wrong
    cases named : doctypeOf (first ++ second) (linesOf first) with
    | error other =>
      rw [named] at wrong
      exact wrong
    | ok doctype =>
      rw [named] at wrong
      cases own : elementsOf (first ++ second) (body (linesOf first)) with
      | error other =>
        rw [own] at wrong
        obtain rfl : other = error := Except.error.inj wrong
        rw [LineTree.elements_append_error own]
        rfl
      | ok elements =>
        rw [own] at wrong
        contradiction
  · rintro template ⟨_, more⟩ own alone rfl
    obtain ⟨doctype, named, own⟩ := bind_ok own
    obtain ⟨elements, read, ⟨⟩⟩ := bind_ok own
    rw [named, LineTree.elements_append read (elements_behind plain' alone first)]
    rfl

/-- A text block and a condition that are open at the end take nothing in of the lines behind
them, and a line that cannot be read is reported where it stands. -/
theorem parse_append_open :
    parse ("doctype 5\nif a\n p.\n  \"b\"\n\n".toList ++ "\n//-\nif d\n".toList) =
        .ok ⟨some ['5'], [
          .conditional ['a'] [.tag { name := ['p'] } (some (.text ['"', 'b', '"'])) []] [],
          .comment [] false, .conditional ['d'] [] []]⟩ ∧
      parse ("if a\n = b\n".toList ++ "\n//-\nif d\n".toList) =
        .error (.unexpectedToken ['=', ' '] 2 2) := by
  have flush : Text.StartsFlush "\n//-\nif d\n".toList := by decide
  have alone : parse "\n//-\nif d\n".toList =
      .ok ⟨none, [.comment [] false, .conditional ['d'] [] []]⟩ := by cbv
  have own : parse "doctype 5\nif a\n p.\n  \"b\"\n\n".toList = .ok ⟨some ['5'], [
      .conditional ['a'] [.tag { name := ['p'] } (some (.text ['"', 'b', '"'])) []] []]⟩ := by
    cbv
  have wrong : parse "if a\n = b\n".toList = .error (.unexpectedToken ['=', ' '] 2 2) := by
    cbv
  have closed : Text.ClosesStrings "doctype 5\nif a\n p.\n  \"b\"\n\n".toList :=
    (Text.closesStrings_iff _).mpr (by cbv)
  have closed' : Text.ClosesStrings "if a\n = b\n".toList := (Text.closesStrings_iff _).mpr (by cbv)
  constructor
  · refine (parse_append ?_ ?_ ?_ closed flush).2 _ _ own alone rfl <;> decide
  · refine (parse_append ?_ ?_ ?_ closed' flush).1 _ wrong <;> decide

end Template

end IndentMarkup
