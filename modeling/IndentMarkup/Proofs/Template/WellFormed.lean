import IndentMarkup.Proofs.Line.Lexed
import IndentMarkup.Proofs.Statement.Origin
import IndentMarkup.Proofs.Template.Kept

/-! What can be relied on in a template that was read. Its names are words, its texts are trimmed,
and there are only nodes that a line can give. -/
namespace IndentMarkup

/-- A text that is one word: nothing in it is blank, and no symbol starts in it. -/
structure Text.IsWord (text : Text) : Prop where
  nonempty : text ≠ []
  solid : ∀ c ∈ text, isBlank c = false
  free : ∀ rest, rest <:+ text → ¬ StartsSymbol rest

/-- No blank stands at either end. -/
structure Text.Trimmed (text : Text) : Prop where
  leading : text.trimStart = text
  trailing : text.trimEnd = text

structure TagHead.WellFormed (head : TagHead) : Prop where
  named : head.name.IsWord
  unreserved : ∀ k : Keyword, head.name ≠ k.literal
  id : ∀ id ∈ head.id, id.IsWord
  attributes : ∀ a ∈ head.attributes,
    a.name.IsWord ∧ a.name.map Char.toLower ≠ ['c', 'l', 'a', 's', 's']

inductive Content.WellFormed : Content → Prop where
  | text {value : Text} (solid : value ≠ []) (trailing : value.trimEnd = value) :
      WellFormed (.text value)
  | expression {value : Text} (solid : value ≠ []) (trimmed : value.Trimmed) :
      WellFormed (.expression value)

/-- The nodes of a template that was read. An attribute or an expression is never one. -/
inductive Element.WellFormed : Element → Prop where
  | tag {head : TagHead} {content : Option Content} {children : List Element}
      (named : head.WellFormed) (held : ∀ c ∈ content, c.WellFormed)
      (inside : ∀ e ∈ children, WellFormed e) : WellFormed (.tag head content children)
  | text {value : Text} (trimmed : value.Trimmed) : WellFormed (.text value)
  | conditional {predicate : Text} {thenBranch elseBranch : List Element}
      (solid : predicate ≠ []) (trimmed : predicate.Trimmed)
      (first : ∀ e ∈ thenBranch, WellFormed e) (second : ∀ e ∈ elseBranch, WellFormed e) :
      WellFormed (.conditional predicate thenBranch elseBranch)
  | comment {text : Text} {buffered : Bool} (trailing : text.trimEnd = text) :
      WellFormed (.comment text buffered)
  | marker {kind : Marker} {argument : Text} {children : List Element}
      (solid : argument ≠ []) (trimmed : argument.Trimmed)
      (inside : ∀ e ∈ children, WellFormed e) : WellFormed (.marker kind argument children)

def TagHead.texts (head : TagHead) : List Text :=
  head.name :: head.id.toList ++ head.classes ++ head.attributes.flatMap fun a => [a.name, a.value]

mutual

/-- Every text that the element or a node inside it holds. -/
def Element.texts : Element → List Text
  | .tag head content children =>
    head.texts ++ (content.map Content.value).toList ++ Element.allTexts children
  | .loneAttribute name value => [name, value]
  | .text value | .expression value => [value]
  | .conditional predicate thenBranch elseBranch =>
    predicate :: (Element.allTexts thenBranch ++ Element.allTexts elseBranch)
  | .comment body _ => [body]
  | .marker _ argument children => argument :: Element.allTexts children

def Element.allTexts : List Element → List Text
  | [] => []
  | element :: later => element.texts ++ Element.allTexts later

end

structure Template.WellFormed (template : Template) : Prop where
  doctype : ∀ keyword ∈ template.doctype, keyword ≠ [] ∧ keyword.Trimmed
  elements : ∀ e ∈ template.elements, e.WellFormed
  normal : ∀ text ∈ template.doctype.toList ++ Element.allTexts template.elements, '\r' ∉ text

theorem not_startsSymbol_nil : ¬ StartsSymbol [] := by
  rintro ⟨s, starts⟩
  exact s.literal_ne_nil (List.prefix_nil.mp starts)

theorem WordRun.isWord {run rest : Text} (whole : WordRun run rest) (nonempty : run ≠ []) :
    run.IsWord := by
  suffices inside : (∀ c ∈ run, isBlank c = false) ∧ ∀ part, part <:+ run → ¬ StartsSymbol part from
    ⟨nonempty, inside.1, inside.2⟩
  clear nonempty
  induction run with
  | nil =>
    refine ⟨nofun, fun part within => ?_⟩
    rw [List.suffix_nil.mp within]
    exact not_startsSymbol_nil
  | cons c run ih =>
    obtain ⟨solid, free⟩ := ih whole.2
    refine ⟨List.forall_mem_cons.mpr ⟨whole.head_not_blank, solid⟩, fun part within => ?_⟩
    rcases List.suffix_cons_iff.mp within with rfl | later
    · rintro ⟨s, starts⟩
      exact whole.1 (.inr ⟨s, starts.trans (List.prefix_append ..)⟩)
    · exact free part later

/-- Keywords that look like words are words. -/
theorem FirstToken.isWord {text : Text} {found : Match} (first : FirstToken text found)
    (named : found.kind.isName = true) : found.text.IsWord := by
  cases first with
  | @keyword k =>
    have look : k ≠ .var := by simpa [Token.Kind.isName] using named
    have whole : WordRun k.literal [] := wordRun_of_chars (Keyword.isWordChar_of_mem look) trivial
    exact whole.isWord k.literal_ne_nil
  | word _ _ whole => exact whole.isWord (List.cons_ne_nil _ _)
  | _ => contradiction

namespace Text

theorem trimEnd_append {front back : Text} (trailing : back.trimEnd = back) (nonempty : back ≠ []) :
    trimEnd (front ++ back) = front ++ back := by
  refine List.rdropWhile_eq_self_iff.mpr fun some => ?_
  rw [List.getLast_append_of_ne_nil some nonempty]
  exact List.rdropWhile_eq_self_iff.mp trailing nonempty

theorem trimmed_trim (text : Text) : text.trim.Trimmed :=
  ⟨trimStart_of_isPrefix (trimStart_trimStart text) (trimEnd_isPrefix _), trimEnd_trimEnd _⟩

end Text

variable {source : Text} {line rest : Line}

namespace Line.Lexed

theorem isWord (lexed : line.Lexed source) {name : Text} (named : line.HasName name) :
    name.IsWord := by
  obtain ⟨t, member, isName, rfl⟩ := named
  obtain ⟨found, first, kind, same⟩ := lexed.read t member
  exact same ▸ first.isWord (kind ▸ isName)

/-- No blank is behind a blank, so what stands behind one is trimmed with its line. -/
theorem trimmed (lexed : line.Lexed source) (behind : line.BehindBlanks rest) :
    (rest.trimmedText source).Trimmed := by
  have unspaced : rest.startsWith .space = false := by
    rcases behind.blanks with flush | ⟨t, space, within⟩
    · exact flush
    · cases rest with
      | nil => rfl
      | cons u rest =>
        have apart := (List.isChain_cons.mp (lexed.suffix within).apart).1 u rfl space
        simpa [startsWith] using apart
  have leading := (lexed.suffix behind.within).leading unspaced
  exact ⟨Text.trimStart_of_isPrefix leading (Text.trimEnd_isPrefix _), Text.trimEnd_trimEnd _⟩

end Line.Lexed

theorem TagHead.MadeOf.wellFormed {head : TagHead} (made : head.MadeOf line)
    (lexed : line.Lexed source) : head.WellFormed := by
  obtain ⟨named, unreserved⟩ : head.name.IsWord ∧ ∀ k : Keyword, head.name ≠ k.literal := by
    rcases made.name with same | ⟨t, member, word, same⟩
    · have inWord : ∀ c ∈ defaultName, isWordChar c = true := List.all_eq_true.mp rfl
      have whole : WordRun defaultName [] := wordRun_of_chars inWord trivial
      rw [same]
      exact ⟨whole.isWord (by decide), fun k => by cases k <;> decide⟩
    · obtain ⟨found, first, kind, text⟩ := lexed.read t member
      rw [← same, ← text]
      exact ⟨first.isWord (by simp [kind, word, Token.Kind.isName]),
        first.word_ne_keyword (kind.trans word)⟩
  exact ⟨named, unreserved, fun id chosen => lexed.isWord (made.id id chosen), fun a member =>
    ⟨lexed.isWord (made.attributes a member).2.1, (made.attributes a member).1⟩⟩

theorem Content.ReadFrom.wellFormed {content : Content} (read : content.ReadFrom source line)
    (lexed : line.Lexed source) : content.WellFormed := by
  cases read with
  | text within solid => exact .text solid (Text.trimEnd_trimEnd _)
  | expression behind solid => exact .expression solid (lexed.trimmed behind)

theorem TagLine.ReadFrom.wellFormed {tagLine : TagLine} (read : tagLine.ReadFrom source line)
    (lexed : line.Lexed source) {text : Text} (trailing : text.trimEnd = text)
    {children : List Element} (inside : ∀ e ∈ children, e.WellFormed) :
    (tagLine.element text children).WellFormed := by
  induction read with
  | plain made held =>
    exact .tag (made.wellFormed lexed) (fun c member => (held c member).wellFormed lexed) inside
  | textBlock made =>
    refine .tag (made.wellFormed lexed) (fun c member => ?_) nofun
    split at member
    · contradiction
    next solid =>
      obtain rfl := Option.some.inj member
      exact .text solid trailing
  | around made _ ih => exact .tag (made.wellFormed lexed) nofun (by simpa using ih)

/-- The statement comes from a line of the source. -/
def Statement.SaidIn (source : Text) (statement : Statement) : Prop :=
  ∃ line : Line, line.Lexed source ∧ statement.ReadFrom source line

theorem blockText_trimEnd (source : Text) (nested : List LineTree) :
    (blockText source nested).trimEnd = blockText source nested :=
  Text.trimEnd_trimEnd _

theorem Statement.element_wellFormed {statement : Statement} {nested : List LineTree}
    {children : Except ParseError (List Element)}
    (said : statement.SaidIn source)
    (inside : Meets (fun _ => True) (fun elements => ∀ e ∈ elements, e.WellFormed) children) :
    Meets (fun _ => True) Element.WellFormed (statement.element source nested children) := by
  obtain ⟨line, lexed, origin⟩ := said
  have trailing := blockText_trimEnd source nested
  cases origin with
  | tag read =>
    rw [element]
    split
    · exact .ok (read.wellFormed lexed trailing (List.forall_mem_nil _))
    · exact inside.map fun elements own => read.wellFormed lexed rfl own
  | piped behind =>
    rw [element]
    split
    · exact .error trivial
    · exact .ok (.text (lexed.trimmed behind))
  | comment buffered within =>
    rw [element]
    refine .ok (.comment ?_)
    split
    · exact Text.trimEnd_trimEnd _
    next solid =>
      rw [List.append_cons]
      exact Text.trimEnd_append trailing solid
  | marker kind behind solid =>
    exact inside.map fun elements own => .marker solid (lexed.trimmed behind) own
  | condition behind solid =>
    exact inside.map fun elements own => .conditional solid (lexed.trimmed behind) own (List.forall_mem_nil _)

/-- Lines of the source give well-formed elements. -/
theorem LineTree.kept_wellFormed (source : Text) :
    LineTree.Kept source (Line.Lexed source) (fun _ => True) (Statement.SaidIn source)
      Element.WellFormed where
  statement line lexed :=
    (Statement.ofLine_from source line).imp (fun _ _ => trivial) fun _ read => ⟨line, lexed, read⟩
  marked line _ := (readElse_blames line).imp (fun _ _ => trivial) fun _ => id
  element _ _ _ said _ inside := Statement.element_wellFormed said inside
  conditional predicate _ _ said first second := by
    obtain ⟨line, lexed, origin⟩ := said
    cases origin with
    | condition behind solid => exact .conditional solid (lexed.trimmed behind) first second

theorem Element.forall_mem_allTexts {P : Text → Prop} {elements : List Element} :
    (∀ text ∈ Element.allTexts elements, P text) ↔ ∀ e ∈ elements, ∀ text ∈ e.texts, P text := by
  induction elements with
  | nil => simp [allTexts]
  | cons e later ih => simp [allTexts, or_imp, forall_and, ih]

/-- What is cut out of the source has no carriage return if the source has none. -/
theorem Line.trimmedText_normal (line : Line) (normal : '\r' ∉ source) :
    '\r' ∉ line.trimmedText source :=
  fun member => normal (line.sourceText_subset source ((Text.trimEnd_isPrefix _).subset member))

theorem Text.piece_subset (text : Text) : ∀ piece ∈ text.splitOn '\n', piece ⊆ text := by
  induction text using Text.line_induction with
  | last line within => simp [splitOn_last within]
  | cons line rest within ih =>
    rw [splitOn_feed within, List.forall_mem_cons]
    refine ⟨fun c => List.mem_append_left _, fun piece member c inside => ?_⟩
    exact List.mem_append_right _ (.tail _ (ih piece member inside))

theorem Text.dedent_subset (width : Nat) (text : Text) : text.dedent width ⊆ text := by
  fun_induction dedent width text with
  | case1 width c rest blank ih => exact fun x member => .tail _ (ih member)
  | _ => exact List.Subset.refl _

theorem Text.mem_joined {c : Char} {pieces : List Text} (member : c ∈ ['\n'].intercalate pieces) :
    c = '\n' ∨ ∃ piece ∈ pieces, c ∈ piece := by
  rw [List.intercalate, List.mem_flatten] at member
  obtain ⟨piece, within, inside⟩ := member
  induction pieces with
  | nil => contradiction
  | cons first later ih =>
    cases later with
    | nil => exact .inr ⟨piece, within, inside⟩
    | cons second later =>
      rw [List.intersperse_cons_cons, List.mem_cons, List.mem_cons] at within
      rcases within with rfl | rfl | within
      · exact .inr ⟨_, List.mem_cons_self .., inside⟩
      · exact .inl (List.mem_singleton.mp inside)
      · refine (ih within).imp id ?_
        rintro ⟨other, member, inside⟩
        exact ⟨other, .tail _ member, inside⟩

/-- The lines of a block are cut out too, and only line feeds are put between them. -/
theorem blockText_normal {source : Text} (normal : '\r' ∉ source) (nested : List LineTree) :
    '\r' ∉ blockText source nested := by
  intro member
  have joined := (Text.trimEnd_isPrefix _).subset member
  rcases Text.mem_joined joined with feed | ⟨piece, cut, inside⟩
  · contradiction
  · obtain ⟨line, -, own⟩ := List.mem_flatMap.mp cut
    split at own
    · simp_all
    · obtain ⟨whole, split, rfl⟩ := List.mem_map.mp own
      exact normal (line.sourceText_subset source
        (Text.piece_subset _ whole split (Text.dedent_subset _ whole inside)))

theorem TagHead.MadeOf.normal {head : TagHead} (made : head.MadeOf line)
    (lexed : line.Lexed source) (normal : '\r' ∉ source) : ∀ text ∈ head.texts, '\r' ∉ text := by
  have token : ∀ t ∈ line, '\r' ∉ t.text :=
    fun t member inside => normal (lexed.text_subset member inside)
  have named : ∀ name, line.HasName name → '\r' ∉ name := by
    rintro _ ⟨t, member, -, rfl⟩
    exact token t member
  intro text member
  simp only [texts, List.cons_append, List.mem_cons, List.mem_append, Option.mem_toList,
    List.mem_flatMap, List.not_mem_nil, or_false] at member
  rcases member with rfl | (id | value) | ⟨a, inside, rfl | rfl⟩
  · rcases made.name with same | ⟨t, member, -, same⟩
    · rw [same]
      decide
    · exact same ▸ token t member
  · exact named text (made.id text id)
  · obtain ⟨t, member, rfl⟩ := made.classes text value
    exact token t member
  · exact named _ (made.attributes a inside).2.1
  · obtain ⟨t, member, same⟩ := (made.attributes a inside).2.2
    exact same ▸ token t member

theorem Content.ReadFrom.normal {content : Content} (read : content.ReadFrom source line)
    (normal : '\r' ∉ source) : '\r' ∉ content.value := by
  cases read <;> exact Line.trimmedText_normal _ normal

theorem TagLine.ReadFrom.normal {tagLine : TagLine} (read : tagLine.ReadFrom source line)
    (lexed : line.Lexed source) (normal : '\r' ∉ source) {block : Text} (plain : '\r' ∉ block)
    {children : List Element} (inside : ∀ text ∈ Element.allTexts children, '\r' ∉ text) :
    ∀ text ∈ (tagLine.element block children).texts, '\r' ∉ text := by
  induction read with
  | @plain head content made held =>
    have own := made.normal lexed normal
    have value : ∀ text ∈ (content.map Content.value).toList, '\r' ∉ text := by
      simpa using fun c member => (held c member).normal normal
    simpa [element, Element.texts, or_imp, forall_and] using And.intro own (And.intro value inside)
  | textBlock made =>
    have own := made.normal lexed normal
    by_cases nothing : block = []
    · simpa [element, Element.texts, Element.allTexts, nothing] using own
    · simpa [element, Element.texts, Element.allTexts, nothing, Content.value, or_imp, forall_and]
        using And.intro own plain
  | around made _ ih =>
    have own := made.normal lexed normal
    simpa [element, Element.texts, Element.allTexts, or_imp, forall_and] using And.intro own ih

theorem Statement.element_normal {statement : Statement} {nested : List LineTree}
    {children : Except ParseError (List Element)} (normal : '\r' ∉ source)
    (said : statement.SaidIn source)
    (inside : Meets (fun _ => True) (fun elements => ∀ e ∈ elements, ∀ text ∈ e.texts, '\r' ∉ text)
      children) :
    Meets (fun _ => True) (fun e => ∀ text ∈ e.texts, '\r' ∉ text)
      (statement.element source nested children) := by
  obtain ⟨line, lexed, origin⟩ := said
  have block := blockText_normal normal nested
  have below : Meets (fun _ => True)
      (fun elements => ∀ text ∈ Element.allTexts elements, '\r' ∉ text) children :=
    inside.imp (fun _ => id) fun _ => Element.forall_mem_allTexts.mpr
  cases origin with
  | tag read =>
    rw [element]
    split
    · exact .ok (read.normal lexed normal block (by simp [Element.allTexts]))
    · exact below.map fun elements own => read.normal lexed normal List.not_mem_nil own
  | @piped rest behind =>
    have own := rest.trimmedText_normal normal
    rw [element]
    split
    · exact .error trivial
    · exact .ok (by simpa [Element.texts] using own)
  | @comment rest buffered within =>
    have own := rest.trimmedText_normal normal
    rw [element]
    refine .ok ?_
    split
    · simpa [Element.texts] using own
    · simpa [Element.texts] using And.intro own block
  | @marker rest kind behind solid =>
    have own := rest.trimmedText_normal normal
    exact below.map fun elements later => by simpa [Element.texts] using And.intro own later
  | @condition rest behind solid =>
    have own := rest.trimmedText_normal normal
    exact below.map fun elements later => by
      simpa [Element.texts, Element.allTexts] using And.intro own later

theorem LineTree.kept_normal (normal : '\r' ∉ source) :
    LineTree.Kept source (Line.Lexed source) (fun _ => True) (Statement.SaidIn source)
      (fun e => ∀ text ∈ e.texts, '\r' ∉ text) where
  statement := (LineTree.kept_wellFormed source).statement
  marked := (LineTree.kept_wellFormed source).marked
  element _ _ _ said _ inside := Statement.element_normal normal said inside
  conditional predicate thenBranch elseBranch said first second := by
    obtain ⟨line, lexed, origin⟩ := said
    cases origin with
    | @condition rest behind solid =>
      have own := rest.trimmedText_normal normal
      have branches := And.intro (Element.forall_mem_allTexts.mpr first)
        (Element.forall_mem_allTexts.mpr second)
      simpa [Element.texts, or_imp, forall_and] using And.intro own branches

namespace Template

theorem doctypeOf_wellFormed (normal : '\r' ∉ source) (lines : List Line) :
    Meets (fun _ => True)
      (fun doctype => ∀ keyword ∈ doctype, keyword ≠ [] ∧ Text.Trimmed keyword ∧ '\r' ∉ keyword)
      (doctypeOf source lines) := by
  refine (doctypeOf_from source lines).imp (fun _ _ => trivial) fun doctype origin => ?_
  intro keyword named
  obtain ⟨solid, rest, rfl⟩ := origin keyword named
  refine ⟨solid, Text.trimmed_trim _, fun member => normal (rest.sourceText_subset source ?_)⟩
  exact (List.dropWhile_suffix _).subset ((Text.trimEnd_isPrefix _).subset member)

/-- Whatever is read is well formed: its names are words and no keywords, its texts have no blanks
at their ends, none of its nodes is an attribute or an expression, and no text has a carriage
return. -/
theorem wellFormed_of_parse {text : Text} {template : Template} (read : parse text = .ok template) :
    template.WellFormed := by
  have normal : '\r' ∉ text.normalize := by simp [Text.normalize]
  have lexed : ∀ line ∈ Line.split (Token.listFrom .start text.normalize),
      line.Lexed text.normalize := fun line => Line.lexed_of_mem_split
  have doctype := doctypeOf_wellFormed normal (Line.split (Token.listFrom .start text.normalize))
  have formed := ofTokens_meets (LineTree.kept_wellFormed text.normalize) lexed doctype
  have returnless := ofTokens_meets (LineTree.kept_normal normal) lexed doctype
  rw [← parse_eq_ofTokens, read] at formed returnless
  obtain ⟨named, elements⟩ := formed.of_ok
  obtain ⟨-, texts⟩ := returnless.of_ok
  refine ⟨fun keyword chosen => ?_, elements, fun text member => ?_⟩
  · exact ⟨(named keyword chosen).1, (named keyword chosen).2.1⟩
  · rcases List.mem_append.mp member with doctype | inside
    · exact (named text (Option.mem_toList.mp doctype)).2.2
    · exact Element.forall_mem_allTexts.mpr texts text inside

/-- Blanks and carriage returns around a document type, an id that is spelled like a keyword, a
text under a chain of tags, and a line of piped text. -/
theorem wellFormed_of_parse_chain :
    ∃ text template, parse text = .ok template ∧ template.doctype = some ['5'] ∧
      template.elements = [.tag { name := ['a'], id := some ['i', 'f'] } none
        [.tag { name := ['b'] } (some (.text ['c'])) []], .text ['t']] ∧ template.WellFormed := by
  have read : parse "doctype  5 \r\na#if:  b.\n  c \r\n|\t t ".toList =
      .ok ⟨some ['5'], [.tag { name := ['a'], id := some ['i', 'f'] } none
        [.tag { name := ['b'] } (some (.text ['c'])) []], .text ['t']]⟩ := by
    cbv
  exact ⟨_, _, read, rfl, rfl, wellFormed_of_parse read⟩

end Template

end IndentMarkup
