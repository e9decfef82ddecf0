import IndentMarkup.Proofs.Statement.Head
import IndentMarkup.Proofs.Template.Siblings

/-! A colon nests. A tag, a colon and a further tag line are read as the tag on a line of its own
with the further line nested under it, so that a chain of colons is a chain of nested lines. The
last tag takes what is nested under the chain, as elements or as text. -/
namespace IndentMarkup

open TagLine

variable {source : Text} {line own rest lead : Line} {condition : Option OpenCondition}

/-- What a line is read as, if it is a tag line to its end. -/
structure Line.ReadAs (source : Text) (line : Line) (read : Except ParseError TagLine) : Prop where
  solid : line.isBlank = false
  plain : line.skipSpace.startsWith (.keyword .else) = false
  said : Statement.ofLine source line = read.map .tag

namespace LineTree

/-- The element of a line by itself, unless it is a condition or the branch of one. -/
def element (source : Text) (tree : LineTree) : Except ParseError Element :=
  Statement.ofLine source tree.line >>=
    Statement.element source tree.nested (tree.children source)

/-- One line can stand for the other, wherever it stands. -/
structure Same (source : Text) (tree tree' : LineTree) : Prop where
  element : tree.element source = tree'.element source
  elements : ∀ condition later, LineTree.elements source condition (tree :: later) =
    LineTree.elements source condition (tree' :: later)

variable {tree tree' : LineTree} {read read' : Except ParseError TagLine}

theorem element_of_readAs (taken : tree.line.ReadAs source read) :
    tree.element source = read >>= fun line =>
      Statement.element source tree.nested (elements source none tree.nested) (.tag line) := by
  rw [element, taken.said, children_eq]
  cases read <;> rfl

theorem elements_of_readAs (taken : tree.line.ReadAs source read) (later : List LineTree) :
    LineTree.elements source condition (tree :: later) = tree.element source >>= fun element =>
      (LineTree.elements source none later).map fun elements =>
        (condition.map (·.close [])).toList ++ element :: elements := by
  have unclaimed : condition.filter (·.claims tree) = none := by
    apply Option.filter_eq_none_iff.mpr
    intro own _
    simp [OpenCondition.claims, taken.plain]
  rw [elements_statement taken.solid unclaimed, element, taken.said]
  cases read with
  | error error => rfl
  | ok line =>
    change elementsFrom _ _ _ _ (.tag line) = Statement.element _ _ _ (.tag line) >>= _
    have plain : ∀ predicate, Statement.tag line ≠ .condition predicate := nofun
    rw [elementsFrom_of_ne _ _ plain]
    cases Statement.element source tree.nested (tree.children source) (.tag line) with
    | error error => rfl
    | ok element => cases LineTree.elements source none later <;> rfl

theorem same_of_element (taken : tree.line.ReadAs source read)
    (taken' : tree'.line.ReadAs source read') (same : tree.element source = tree'.element source) :
    Same source tree tree' where
  element := same
  elements condition later := by rw [elements_of_readAs taken, elements_of_readAs taken', same]

end LineTree

/-- What was read, if nothing is left of the line. -/
def Line.toEnd {α : Type} : α × Line → Except ParseError α
  | (result, []) => .ok result
  | (_, t :: _) => .error (.ofToken t)

theorem Line.map_toEnd {α β : Type} (run : Except ParseError (α × Line)) (f : α → β) :
    (run.map fun (result, left) => (f result, left)) >>= Line.toEnd =
      (run >>= Line.toEnd).map f := by
  cases run with
  | error => rfl
  | ok result =>
    obtain ⟨result, left⟩ := result
    cases left <;> rfl

theorem Statement.ofLine_eq (source : Text) (line : Line) :
    Statement.ofLine source line = Statement.read source line.skipSpace >>= Line.toEnd := by
  rw [ofLine]
  cases Statement.read source line.skipSpace with
  | error => rfl
  | ok result =>
    obtain ⟨statement, left⟩ := result
    cases left <;> rfl

/-- A tag line to its end. -/
def TagLine.readWhole (source : Text) (line : Line) : Except ParseError TagLine :=
  TagLine.read source line >>= Line.toEnd

namespace Line

theorem skipSpace_append (blank : lead.isBlank = true) (solid : line.startsWith .space = false) :
    Line.skipSpace (lead ++ line) = line := by
  rw [skipSpace, List.dropWhile_append_of_pos (List.all_eq_true.mp blank)]
  cases line with
  | nil => rfl
  | cons t rest => exact List.dropWhile_cons_of_neg (by simpa [startsWith] using solid)

/-- A tag, or attributes without one, begin the line. -/
def Begins (line : Line) : Prop :=
  ∃ t ∈ line.head?, t.kind = .word ∨ t.kind = .symbol .dot ∨ t.kind = .symbol .hash ∨
    t.kind = .symbol .openParen

theorem ReadAs.of_begins {read : Except ParseError TagLine} (blank : lead.isBlank = true)
    (begins : line.Begins)
    (said : Statement.read source line >>= Line.toEnd = read.map .tag) :
    Line.ReadAs source (lead ++ line) read := by
  obtain ⟨t, first, kind⟩ := begins
  obtain ⟨rest, rfl⟩ := List.head?_eq_some_iff.mp first
  have solid : t.kind ≠ .space ∧ t.kind ≠ .keyword .else := by
    rcases kind with kind | kind | kind | kind <;> simp [kind]
  have skipped : Line.skipSpace (lead ++ t :: rest) = t :: rest :=
    skipSpace_append blank (by simp [startsWith, solid])
  constructor
  · simp [isBlank, solid]
  · simp [skipped, startsWith, solid]
  · rw [Statement.ofLine_eq, skipped, said]

theorem OpensTag.begins (opens : line.OpensTag) : line.Begins := by
  have starts := opens.starts
  cases line with
  | nil => contradiction
  | cons t rest =>
    refine ⟨t, rfl, ?_⟩
    rcases startsWithAny_cons.mp starts with word | dot | hash
    · exact .inl word
    · exact .inr (.inl dot)
    · exact .inr (.inr (.inl hash))

theorem OpensTag.solid (opens : line.OpensTag) : line.startsWith .space = false := by
  obtain ⟨t, first, kind⟩ := opens.begins
  rcases kind with kind | kind | kind | kind <;> simp [startsWith, Option.mem_def.mp first, kind]

theorem OpensTag.readAs (opens : line.OpensTag) (blank : lead.isBlank = true) :
    Line.ReadAs source (lead ++ line) (readWhole source line) := by
  apply ReadAs.of_begins blank opens.begins
  rw [Statement.read_of_opensTag opens]
  exact map_toEnd (TagLine.read source line) Statement.tag

end Line

/-- A tag in front of a colon, and the line that it has if it stands alone. -/
structure Link where
  own : Line
  complete : own.kinds ∈ Shape.complete
  nonempty : own ≠ []
  colon : Token
  mark : colon.kind = .symbol .colon
  /-- The blanks behind the colon. -/
  spaces : Line
  blank : spaces.isBlank = true
  /-- The blanks in front of the tag on a line of its own. -/
  lead : Line
  leads : lead.isBlank = true
  indent : Nat

namespace Link

/-- The tag in front of a further line. -/
def before (link : Link) (rest : Line) : Line :=
  link.own ++ link.colon :: (link.spaces ++ rest)

/-- The tag on a line of its own, with the further line nested under it. -/
def above (link : Link) (inner : LineTree) : LineTree :=
  ⟨link.lead ++ link.own, link.indent, [inner]⟩

/-- A chain of colons in one line. -/
def chain (links : List Link) (last : Line) : Line :=
  links.foldr before last

/-- The chain as nested lines. -/
def unfold (links : List Link) (last : LineTree) : LineTree :=
  links.foldr above last

/-- Whether its tag is read is settled by the link, and is the same on a line of its own and in
front of a further line. -/
structure Settled (source : Text) (link : Link) (head : Except ParseError TagHead) : Prop where
  alone : Line.ReadAs source (link.lead ++ link.own) (head.map (.plain · none))
  front : ∀ {lead line : Line}, lead.isBlank = true → line.OpensTag →
    Line.ReadAs source (lead ++ link.before line)
      (head >>= fun head => (readWhole source line).map (.around head))

/-- Behind the colon the further line is read. -/
theorem readTail_colon (source : Text) (link : Link) (head : TagHead) (opens : line.OpensTag) :
    readTail source head (link.colon :: (link.spaces ++ line)) =
      (TagLine.read source line).map fun (inner, left) => (.around head inner, left) := by
  have skipped := Line.skipSpace_append link.blank opens.solid
  simp only [readTail, link.mark, skipped, opens.starts, if_true]

theorem exists_settled_of_starts (source : Text) (link : Link)
    (starts : link.own.startsWithAny startKinds = true) : ∃ head, link.Settled source head := by
  obtain ⟨head, reads⟩ := settles_head link.complete
  refine ⟨head, ?_, ?_⟩
  · have opens : Line.OpensTag (link.own ++ []) := .of_complete link.complete starts rfl
    have read := reads [] nofun
    rw [List.append_nil] at opens read
    apply Line.ReadAs.of_begins link.leads opens.begins
    rw [Statement.read_of_opensTag opens, read_eq_bind, read]
    cases head <;> rfl
  · intro lead line blank opens
    have free : Shape.Free (link.colon :: (link.spaces ++ line)) := by
      rintro _ ⟨rfl⟩
      simp [link.mark]
    have opens' : (link.before line).OpensTag :=
      .of_complete link.complete starts (by simp [Line.startsWith, link.mark])
    apply Line.ReadAs.of_begins blank opens'.begins
    rw [Statement.read_of_opensTag opens', read_eq_bind, before, reads _ free]
    cases head with
    | error => rfl
    | ok head =>
      have behind := readTail_colon source link head opens
      calc ((readTail source head (link.colon :: (link.spaces ++ line))).map _ >>= Line.toEnd)
          = (readTail source head (link.colon :: (link.spaces ++ line)) >>= Line.toEnd).map
              Statement.tag := Line.map_toEnd _ _
        _ = ((readWhole source line).map (TagLine.around head)).map Statement.tag := by
            rw [behind, Line.map_toEnd]
            rfl

/-- Attributes do not begin a line of a template, with or without a colon behind them. -/
theorem settled_of_parenthesis (source : Text) (link : Link) {t : Token} {own : Line}
    (begins : link.own = t :: own) (opened : t.kind = .symbol .openParen) :
    link.Settled source (.error (.ofToken t)) := by
  have fails (rest : Line) : Statement.read source (t :: rest) = .error (.ofToken t) := by
    rw [Statement.read, opened]
  have starts (rest : Line) : Line.Begins (t :: rest) := ⟨t, rfl, .inr (.inr (.inr opened))⟩
  constructor
  · rw [begins]
    apply Line.ReadAs.of_begins link.leads (starts own)
    rw [fails]
    rfl
  · intro lead line blank _
    rw [before, begins, List.cons_append]
    apply Line.ReadAs.of_begins blank (starts _)
    rw [fails]
    rfl

theorem exists_settled (source : Text) (link : Link) : ∃ head, link.Settled source head := by
  cases own : link.own with
  | nil => exact absurd own link.nonempty
  | cons t rest =>
    by_cases starts : link.own.startsWithAny startKinds = true
    · exact exists_settled_of_starts source link starts
    · have complete := link.complete
      rw [own] at starts complete
      rw [startsWithAny_cons, not_or, not_or] at starts
      rcases opens_complete complete with ⟨word, -⟩ | dot | hash | opened
      · exact absurd word starts.1
      · exact absurd dot starts.2.1
      · exact absurd hash starts.2.2
      · exact ⟨_, settled_of_parenthesis source link own opened⟩

theorem opensTag_chain {links : List Link} {last : Line} (opens : last.OpensTag)
    (starts : ∀ link ∈ links, link.own.startsWithAny startKinds = true) :
    (chain links last).OpensTag := by
  cases links with
  | nil => exact opens
  | cons link links =>
    have first := starts link (List.mem_cons_self ..)
    exact .of_complete link.complete first (by simp [Line.startsWith, link.mark])

theorem element_around (source : Text) (nested : List LineTree)
    (children : Except ParseError (List Element)) (head : TagHead) (inner : TagLine) :
    Statement.element source nested children (.tag (.around head inner)) =
      (Statement.element source nested children (.tag inner)).map fun element =>
        .tag head none [element] := by
  rw [Statement.element, Statement.element, holdsText]
  cases inner.holdsText with
  | true => rfl
  | false => cases children <;> rfl

/-- One link of a chain. The nested line can be any other that has the same elements. -/
theorem same_above (source : Text) (link : Link) (blank : lead.isBlank = true)
    (opens : line.OpensTag) (indent indent' : Nat) (nested : List LineTree) {inner : LineTree}
    (agree : LineTree.elements source none [⟨line, indent', nested⟩] =
      LineTree.elements source none [inner]) :
    LineTree.Same source ⟨lead ++ link.before line, indent, nested⟩ (link.above inner) := by
  obtain ⟨head, taken', front⟩ := exists_settled source link
  have taken := front blank opens
  have below : Line.ReadAs source line (readWhole source line) := opens.readAs (List.all_nil ..)
  apply LineTree.same_of_element taken taken'
  rw [LineTree.element_of_readAs taken, LineTree.element_of_readAs taken']
  cases head with
  | error error => rfl
  | ok head =>
    change ((readWhole source line).map _ >>= _) = (LineTree.elements source none [inner]).map _
    rw [← agree, LineTree.elements_of_readAs below, LineTree.element_of_readAs below]
    cases readWhole source line with
    | error error => rfl
    | ok tagLine =>
      change Statement.element source nested _ (.tag (.around head tagLine)) =
        (Statement.element source nested _ (.tag tagLine) >>= _).map _
      rw [element_around]
      cases Statement.element source nested (LineTree.elements source none nested)
        (.tag tagLine) with
      | error error => rfl
      | ok element => rfl

/-- A chain of colons is a chain of nested lines: both are the same element, or they fail with the
same error, whatever stands around them and is nested under the last tag. -/
theorem chain_nests (source : Text) (links : List Link)
    (starts : ∀ link ∈ links.tail, link.own.startsWithAny startKinds = true) (last : Line)
    (opens : last.OpensTag) (lead lead' : Line) (blank : lead.isBlank = true)
    (blank' : lead'.isBlank = true) (indent indent' : Nat) (nested : List LineTree) :
    LineTree.Same source ⟨lead ++ chain links last, indent, nested⟩
      (unfold links ⟨lead' ++ last, indent', nested⟩) := by
  induction links generalizing lead indent with
  | nil =>
    change LineTree.Same source ⟨lead ++ last, indent, nested⟩ ⟨lead' ++ last, indent', nested⟩
    have taken : Line.ReadAs source (lead ++ last) (readWhole source last) := opens.readAs blank
    have taken' : Line.ReadAs source (lead' ++ last) (readWhole source last) := opens.readAs blank'
    apply LineTree.same_of_element taken taken'
    rw [LineTree.element_of_readAs taken, LineTree.element_of_readAs taken']
  | cons link links ih =>
    have later := ih (fun other member => starts other (List.mem_of_mem_tail member)) []
      (List.all_nil ..) indent
    apply same_above source link blank (opensTag_chain opens starts) indent indent nested
    exact later.elements none []

theorem word_mem_complete : [.word] ∈ Shape.complete :=
  ⟨[.word], ⟨[.word], .inr (Shape.mem_just.mpr rfl), [], Language.nil_mem_kstar _, rfl⟩, [],
    .inl rfl, rfl⟩

/-- The tags in front of the colons of `ul: li: p.`. -/
def listLinks : List Link :=
  [{ own := [⟨.word, ['u', 'l'], ⟨0, 1, 1⟩⟩], complete := word_mem_complete
     nonempty := List.cons_ne_nil _ _
     colon := ⟨.symbol .colon, [':'], ⟨2, 1, 3⟩⟩, mark := rfl
     spaces := [⟨.space, [' '], ⟨3, 1, 4⟩⟩], blank := rfl
     lead := [], leads := rfl, indent := 0 },
   { own := [⟨.word, ['l', 'i'], ⟨4, 1, 5⟩⟩], complete := word_mem_complete
     nonempty := List.cons_ne_nil _ _
     colon := ⟨.symbol .colon, [':'], ⟨6, 1, 7⟩⟩, mark := rfl
     spaces := [⟨.space, [' '], ⟨7, 1, 8⟩⟩], blank := rfl
     lead := [], leads := rfl, indent := 1 }]

/-- The last tag of `ul: li: p.`. -/
def listLast : Line :=
  [⟨.word, ['p'], ⟨8, 1, 9⟩⟩, ⟨.symbol .block, ['.', '\n'], ⟨9, 1, 10⟩⟩]

/-- The line ` x`, which is nested under the chain. -/
def listNested : LineTree :=
  ⟨[⟨.space, [' '], ⟨11, 2, 1⟩⟩, ⟨.word, ['x'], ⟨12, 2, 2⟩⟩], 1, []⟩

/-- The last tag takes what is nested as its text. -/
theorem chain_nests_list :
    (∀ link ∈ listLinks.tail, link.own.startsWithAny startKinds = true) ∧ listLast.OpensTag ∧
      LineTree.elements "ul: li: p.\n x".toList none [⟨chain listLinks listLast, 0, [listNested]⟩] =
        .ok [.tag { name := ['u', 'l'] } none [.tag { name := ['l', 'i'] } none
          [.tag { name := ['p'] } (some (.text ['x'])) []]]] := by
  have starts : ∀ link ∈ listLinks.tail, link.own.startsWithAny startKinds = true := by
    simp [listLinks, Line.startsWithAny, startKinds]
  have opens : listLast.OpensTag := by
    refine ⟨rfl, ?_⟩
    rintro _ _ ⟨rfl⟩ _
    rfl
  have same := chain_nests "ul: li: p.\n x".toList listLinks starts listLast opens [] []
    rfl rfl 0 2 [listNested]
  refine ⟨starts, opens, (same.elements none []).trans ?_⟩
  cbv

end Link

end IndentMarkup
