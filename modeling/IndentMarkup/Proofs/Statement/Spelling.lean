import IndentMarkup.Proofs.Line.Remainder
import IndentMarkup.Proofs.Statement.Alike
import IndentMarkup.Proofs.Statement.Shape

/-! What a tag line says of its tags, part by part. The readers take the parts of the grammar, and
put what these spell into the tag. -/
namespace IndentMarkup

open scoped Computability

abbrev Line.kinds (line : Line) : List Token.Kind :=
  line.map Token.kind

namespace TagLine

open Shape

variable {source : Text} {line own rest : Line} {head head' : TagHead} {t : Token}

/-- The names that stand behind a mark, in selectors. -/
def namesBehind (mark : Symbol) : Line → List Text
  | t :: name :: rest =>
    if t.kind = .symbol mark then name.text :: namesBehind mark rest else namesBehind mark rest
  | _ => []

/-- Names and values in the order of the tokens, behind names that have no value yet. -/
def assignments (names : List Text) (line : Line) : List Attribute :=
  List.zipWith Attribute.mk (names ++ (line.filter (·.kind.isName)).map Token.text)
    ((line.filter (·.kind = .quoted)).map Token.text)

/-- The line spells the tag. -/
inductive SpellsHead : Line → TagHead → Prop where
  | intro {word before listed behind : Line} {id : Option Text}
      (named : word.kinds ∈ (1 + just .word : Language Token.Kind))
      (selectors : before.kinds ∈ selector∗)
      (enclosed : listed.kinds ∈ 1 + attributes)
      (further : behind.kinds ∈ selector∗)
      (ids : id.toList = namesBehind .hash before ++ namesBehind .hash behind) :
      SpellsHead (word ++ before ++ listed ++ behind)
        { name := (word.head?.map Token.text).getD TagHead.defaultName
          id
          classes := namesBehind .dot before ++
            ((assignments [] listed).filter (·.isClass)).map Attribute.value ++ namesBehind .dot behind
          attributes := (assignments [] listed).filter (!·.isClass) }

/-- Inline text that is more than blanks. -/
def textContent : Text → Option Content
  | [] => none
  | text => some (.text text)

theorem textContent_of_ne_nil {text : Text} (something : text ≠ []) :
    textContent text = some (.text text) := by
  cases text with
  | nil => contradiction
  | cons => rfl

/-- The line spells the element. -/
inductive Spells (source : Text) : Line → Element → Prop where
  | bare {first : Line} {head : TagHead} (spelled : SpellsHead first head) :
      Spells source first (.tag head none [])
  | dot {first : Line} {head : TagHead} {t : Token} (spelled : SpellsHead first head)
      (dot : t.kind = .symbol .dot) : Spells source (first ++ [t]) (.tag head none [])
  | block {first : Line} {head : TagHead} {t : Token} (spelled : SpellsHead first head)
      (block : t.kind = .symbol .block) : Spells source (first ++ [t]) (.tag head none [])
  | text {first rest : Line} {head : TagHead} {t : Token} (spelled : SpellsHead first head)
      (space : t.kind = .space) :
      Spells source (first ++ t :: rest)
        (.tag head (textContent (Line.trimmedText source rest)) [])
  | value {first spaces rest : Line} {head : TagHead} {mark t : Token}
      (spelled : SpellsHead first head)
      (sign : mark.kind = .symbol .equals ∨ mark.kind = .symbol .inlineValue)
      (blank : spaces.kinds ∈ (just .space)∗) (solid : t.kind ≠ .space) :
      Spells source (first ++ mark :: (spaces ++ t :: rest))
        (.tag head (some (.expression (Line.trimmedText source (t :: rest)))) [])
  | colon {first spaces inner : Line} {head : TagHead} {t : Token} {element : Element}
      (spelled : SpellsHead first head) (colon : t.kind = .symbol .colon)
      (blank : spaces.kinds ∈ (just .space)∗) (starts : StartsTag inner.kinds)
      (inside : Spells source inner element) :
      Spells source (first ++ t :: (spaces ++ inner)) (.tag head none [element])

/-- The line is what was read and what is left, but for a dot at its very end. -/
inductive Taken (own : Line) : Line → Line → Prop where
  | rest (rest : Line) : Taken own (own ++ rest) rest
  | dot {t : Token} (dot : t.kind = .symbol .dot) : Taken own (own ++ [t]) []

theorem Taken.suffix (taken : Taken own line rest) : rest <:+ line := by
  cases taken with
  | rest => exact List.suffix_append ..
  | dot => exact List.nil_suffix

theorem Taken.append_left (front : Line) (taken : Taken own line rest) :
    Taken (front ++ own) (front ++ line) rest := by
  cases taken with
  | rest => exact List.append_assoc .. ▸ .rest _
  | dot dot => exact List.append_assoc .. ▸ .dot dot

theorem Taken.trans {own' middle : Line} (first : Taken own line middle)
    (second : Taken own' middle rest) : Taken (own ++ own') line rest := by
  cases first with
  | rest => exact second.append_left own
  | dot dot =>
    generalize nothing : ([] : Line) = middle at second
    cases second with
    | rest rest =>
      obtain ⟨rfl, rfl⟩ := List.append_eq_nil_iff.mp nothing.symm
      rw [List.append_nil]
      exact .dot dot
    | dot => exact absurd nothing.symm (List.append_ne_nil_of_right_ne_nil _ (List.cons_ne_nil _ _))

/-- The readers of selectors add what the selectors spell. -/
structure Selects (head : TagHead) (own : Line) (head' : TagHead) : Prop where
  kinds : own.kinds ∈ selector∗
  name : head'.name = head.name
  ids : head'.id.toList = head.id.toList ++ namesBehind .hash own
  classes : head'.classes = head.classes ++ namesBehind .dot own
  attributes : head'.attributes = head.attributes

theorem Selects.refl (head : TagHead) : Selects head [] head :=
  ⟨Language.nil_mem_kstar _, rfl, (List.append_nil _).symm, (List.append_nil _).symm, rfl⟩

theorem kinds_selector_cons {name : Token} (mark : t.kind = .symbol .dot ∨ t.kind = .symbol .hash)
    (named : name.kind.isName = true) (selectors : own.kinds ∈ selector∗) :
    Line.kinds (t :: name :: own) ∈ selector∗ := by
  have word : name.kind :: own.kinds ∈ Shape.name * selector∗ :=
    mem_oneOf_mul.mpr ⟨_, named, _, selectors, rfl⟩
  change t.kind :: _ ∈ _
  rw [← mem_behind, behind_star nil_notMem_selector, behind_selector, if_pos mark]
  exact word

theorem readSelectors_taken (read : readSelectors head line = .ok (head', rest)) :
    ∃ own, Taken own line rest ∧ Selects head own head' := by
  fun_induction readSelectors head line with
  | case1 =>
    cases read
    exact ⟨[], .rest [], .refl _⟩
  | case2 _ _ dot =>
    cases read
    exact ⟨[], .dot dot, .refl _⟩
  | case3 head t dot name left named ih =>
    obtain ⟨own, taken, selects⟩ := ih read
    refine ⟨t :: name :: own, taken.append_left [t, name],
      kinds_selector_cons (.inl dot) named selects.kinds, selects.name, ?_, ?_, selects.attributes⟩
    · simpa [namesBehind, dot, TagHead.addClass] using selects.ids
    · simpa [namesBehind, dot, TagHead.addClass] using selects.classes
  | case7 head t dot hash fresh name left named ih =>
    obtain ⟨own, taken, selects⟩ := ih read
    refine ⟨t :: name :: own, taken.append_left [t, name],
      kinds_selector_cons (.inr hash) named selects.kinds, selects.name, ?_, ?_, selects.attributes⟩
    · have none : head.id = none := by simpa using fresh
      simpa [namesBehind, hash, none] using selects.ids
    · simpa [namesBehind, hash] using selects.classes
  | case9 =>
    cases read
    exact ⟨[], .rest _, .refl _⟩
  | _ => contradiction

/-- The names that are waiting for their values. -/
def AttributeStage.pending : AttributeStage → List Text
  | .between => []
  | .named name | .assigned name => [name]

/-- The kinds that complete a list of attributes. -/
def AttributeStage.left : AttributeStage → Language Token.Kind
  | .between => assignmentsThen (just (.symbol .closeParen))
  | .named _ => signThen (just (.symbol .closeParen))
  | .assigned _ => valueThen (just (.symbol .closeParen))

def addAttributes (head : TagHead) (attributes : List Attribute) : TagHead :=
  attributes.foldl (fun head assigned => head.addAttribute assigned.name assigned.value) head

theorem assignments_skip (names : List Text) (own : Line) (unnamed : t.kind.isName = false)
    (unquoted : t.kind ≠ .quoted) : assignments names (t :: own) = assignments names own := by
  simp [assignments, unnamed, unquoted]

theorem assignments_name (names : List Text) (own : Line) (named : t.kind.isName = true) :
    assignments names (t :: own) = assignments (names ++ [t.text]) own := by
  have unquoted : t.kind ≠ .quoted := fun quoted => by simp [quoted, Token.Kind.isName] at named
  simp [assignments, named, unquoted]

theorem assignments_quoted (name : Text) (names : List Text) (own : Line)
    (quoted : t.kind = .quoted) :
    assignments (name :: names) (t :: own) = ⟨name, t.text⟩ :: assignments names own := by
  simp [assignments, quoted, Token.Kind.isName]

theorem readAttributes_taken {stage : AttributeStage}
    (read : readAttributes stage head line = .ok (head', rest)) :
    ∃ own, line = own ++ rest ∧ own.kinds ∈ stage.left ∧
      head' = addAttributes head (assignments stage.pending own) := by
  fun_induction readAttributes stage head line with
  | case2 head t _ separates ih =>
    obtain ⟨own, rfl, kinds, same⟩ := ih read
    have unnamed : t.kind.isName = false ∧ t.kind ≠ .quoted := by
      rcases separates with space | comma
      · simp [space, Token.Kind.isName]
      · simp [comma, Token.Kind.isName]
    refine ⟨t :: own, rfl, ?_, ?_⟩
    · change t.kind :: _ ∈ assignmentsThen _
      rw [← mem_behind, behind_assignmentsThen, if_pos separates]
      exact .inl kinds
    · rw [assignments_skip _ _ unnamed.1 unnamed.2]
      exact same
  | case3 head t _ _ closes =>
    cases read
    refine ⟨[t], rfl, ?_, ?_⟩
    · change [t.kind] ∈ assignmentsThen _
      rw [← mem_behind, behind_assignmentsThen, behind_just, if_pos closes]
      exact .inr (.inr rfl)
    · rw [assignments_skip _ _ (by simp [closes, Token.Kind.isName]) (by simp [closes])]
      rfl
  | case4 head t _ _ _ named ih =>
    obtain ⟨own, rfl, kinds, same⟩ := ih read
    refine ⟨t :: own, rfl, ?_, ?_⟩
    · change t.kind :: _ ∈ assignmentsThen _
      rw [← mem_behind, behind_assignmentsThen, if_pos named]
      exact .inr (.inl kinds)
    · rw [assignments_name _ _ named]
      exact same
  | case6 name head t _ space ih =>
    obtain ⟨own, rfl, kinds, same⟩ := ih read
    refine ⟨t :: own, rfl, ?_, ?_⟩
    · change t.kind :: _ ∈ signThen _
      rw [← mem_behind, behind_signThen, if_pos space]
      exact .inl kinds
    · rw [assignments_skip _ _ (by simp [space, Token.Kind.isName]) (by simp [space])]
      exact same
  | case7 name head t _ _ sign ih =>
    obtain ⟨own, rfl, kinds, same⟩ := ih read
    have unnamed : t.kind.isName = false ∧ t.kind ≠ .quoted := by
      rcases sign with equals | inlineValue
      · simp [equals, Token.Kind.isName]
      · simp [inlineValue, Token.Kind.isName]
    refine ⟨t :: own, rfl, ?_, ?_⟩
    · change t.kind :: _ ∈ signThen _
      rw [← mem_behind, behind_signThen, if_pos sign]
      exact .inr kinds
    · rw [assignments_skip _ _ unnamed.1 unnamed.2]
      exact same
  | case9 name head t _ space ih =>
    obtain ⟨own, rfl, kinds, same⟩ := ih read
    refine ⟨t :: own, rfl, ?_, ?_⟩
    · change t.kind :: _ ∈ valueThen _
      rw [← mem_behind, behind_valueThen, if_pos space]
      exact .inl kinds
    · rw [assignments_skip _ _ (by simp [space, Token.Kind.isName]) (by simp [space])]
      exact same
  | case10 name head t _ _ quoted ih =>
    obtain ⟨own, rfl, kinds, same⟩ := ih read
    refine ⟨t :: own, rfl, ?_, ?_⟩
    · change t.kind :: _ ∈ valueThen _
      rw [← mem_behind, behind_valueThen, if_pos quoted]
      exact .inr kinds
    · rw [same, AttributeStage.pending, AttributeStage.pending, assignments_quoted _ _ _ quoted]
      rfl
  | _ => contradiction

/-- A list of attributes adds its class attributes to the classes, and keeps the others. -/
structure Lists (head : TagHead) (attributes : List Attribute) (head' : TagHead) : Prop where
  name : head'.name = head.name
  id : head'.id = head.id
  classes : head'.classes = head.classes ++ (attributes.filter (·.isClass)).map Attribute.value
  attributes : head'.attributes = head.attributes ++ attributes.filter (!·.isClass)

theorem Lists.refl (head : TagHead) : Lists head [] head :=
  ⟨rfl, rfl, (List.append_nil _).symm, (List.append_nil _).symm⟩

theorem Lists.trans {attributes attributes' : List Attribute} {head'' : TagHead}
    (first : Lists head attributes head') (second : Lists head' attributes' head'') :
    Lists head (attributes ++ attributes') head'' where
  name := second.name.trans first.name
  id := second.id.trans first.id
  classes := by simp [second.classes, first.classes]
  attributes := by simp [second.attributes, first.attributes]

theorem lists_addAttribute (head : TagHead) (assigned : Attribute) :
    Lists head [assigned] (head.addAttribute assigned.name assigned.value) := by
  rw [TagHead.addAttribute]
  split
  next same =>
    have own : assigned.isClass = true := decide_eq_true same
    exact ⟨rfl, rfl, by simp [own], by simp [own]⟩
  next other =>
    have own : assigned.isClass = false := decide_eq_false other
    exact ⟨rfl, rfl, by simp [own], by simp [own]⟩

theorem lists_addAttributes (head : TagHead) (attributes : List Attribute) :
    Lists head attributes (addAttributes head attributes) := by
  induction attributes generalizing head with
  | nil => exact .refl head
  | cons first attributes ih => exact (lists_addAttribute head first).trans (ih _)

theorem readParentheses_taken (read : readParentheses head line = .ok (head', rest)) :
    ∃ own, line = own ++ rest ∧ own.kinds ∈ 1 + attributes ∧
      Lists head (assignments [] own) head' := by
  cases line with
  | nil =>
    cases read
    exact ⟨[], rfl, .inl rfl, .refl _⟩
  | cons t line =>
    rw [readParentheses] at read
    split at read
    next opened =>
      obtain ⟨own, rfl, kinds, rfl⟩ := readAttributes_taken read
      refine ⟨t :: own, rfl, .inr ?_, ?_⟩
      · rw [attributes_eq]
        exact mem_just_mul.mpr ⟨_, kinds, congrArg (· :: _) opened⟩
      · rw [assignments_skip _ _ (by simp [opened, Token.Kind.isName]) (by simp [opened])]
        exact lists_addAttributes head _
    next =>
      cases read
      exact ⟨[], rfl, .inl rfl, .refl _⟩

theorem readName_taken (line : Line) :
    ∃ own : Line, own.kinds ∈ (1 + just .word : Language Token.Kind) ∧
      line = own ++ (readName line).2 ∧
      (readName line).1 = (own.head?.map Token.text).getD TagHead.defaultName := by
  cases line with
  | nil => exact ⟨[], .inl rfl, rfl, rfl⟩
  | cons t rest =>
    rw [readName]
    split
    next word => exact ⟨[t], .inr (mem_just.mpr (congrArg (· :: []) word)), rfl, rfl⟩
    next => exact ⟨[], .inl rfl, rfl, rfl⟩

theorem readHead_taken (read : readHead line = .ok (head, rest)) :
    ∃ own, Taken own line rest ∧ SpellsHead own head := by
  obtain ⟨word, named, whole, name⟩ := readName_taken line
  obtain ⟨⟨first, rest₁⟩, selected, read⟩ := bind_ok read
  obtain ⟨⟨second, rest₂⟩, listed, read⟩ := bind_ok read
  obtain ⟨before, taken, selects⟩ := readSelectors_taken selected
  obtain ⟨enclosed, split, kinds, lists⟩ := readParentheses_taken listed
  obtain ⟨behind, taken', selects'⟩ := readSelectors_taken read
  have taken : Taken (word ++ before ++ enclosed ++ behind) line rest := by
    rw [whole, List.append_assoc, List.append_assoc]
    exact (taken.trans (split ▸ (Taken.rest rest₂).trans taken')).append_left word
  refine ⟨_, taken, ?_⟩
  obtain ⟨_, id, classes, attributes⟩ := head
  have names := selects'.name.trans (lists.name.trans (selects.name.trans name))
  have ids : id.toList = namesBehind .hash before ++ namesBehind .hash behind := by
    rw [selects'.ids, lists.id, selects.ids]
    rfl
  have all := selects'.classes
  rw [lists.classes, selects.classes] at all
  have others := selects'.attributes
  rw [lists.attributes, selects.attributes] at others
  dsimp only at names all others
  subst names all others
  exact .intro named selects.kinds kinds selects'.kinds ids

/-- Blanks are skipped as far as they go. -/
theorem skipSpace_taken (line : Line) :
    ∃ spaces : Line, spaces.kinds ∈ (just .space)∗ ∧ line = spaces ++ line.skipSpace := by
  refine ⟨line.takeWhile (·.kind = .space), mem_star_just ?_, ?_⟩
  · refine List.forall_mem_map.mpr fun t member => ?_
    simpa using List.mem_takeWhile_imp member
  · exact List.takeWhile_append_dropWhile.symm

theorem startsTag_kinds : StartsTag line.kinds ↔ line.startsWithAny startKinds = true := by
  cases line with
  | nil => simp [StartsTag, Line.startsWithAny]
  | cons t rest => simp [StartsTag, Line.startsWithAny]

theorem startsWithAny_cons {rest : Line} :
    Line.startsWithAny (t :: rest) startKinds = true ↔
      t.kind = .word ∨ t.kind = .symbol .dot ∨ t.kind = .symbol .hash := by
  simp [Line.startsWithAny, startKinds]

/-- The line says what was read from it, and no more. -/
def Spelled (source : Text) (line : Line) (result : TagLine × Line) : Prop :=
  result.2 = [] ∧ Spells source line (result.1.element [] [])

theorem readTail_spelled (spelled : SpellsHead own head) (left : rest.LeftOf source)
    (inner : ∀ inner : Line, inner.length < rest.length → inner.LeftOf source →
      Meets (fun _ => True) (Spelled source inner) (read source inner)) :
    Meets (fun _ => True) (Spelled source (own ++ rest)) (readTail source head rest) := by
  cases rest with
  | nil => exact .ok ⟨rfl, (List.append_nil own).symm ▸ .bare spelled⟩
  | cons t later =>
    obtain ⟨spaces, blank, whole⟩ := skipSpace_taken later
    have expression (sign : t.kind = .symbol .equals ∨ t.kind = .symbol .inlineValue) :
        Meets (fun _ => True) (Spelled source (own ++ t :: later))
          ((Line.requiredText source (Line.skipSpace later)).map fun value =>
            (TagLine.plain head (some (.expression value)), [])) := by
      cases skipped : Line.skipSpace later with
      | nil => exact .error trivial
      | cons first behind =>
        have own : Line.LeftOf source (first :: behind) := skipped ▸ left.tail.skipSpace
        have solid := Line.skipSpace_solid later
        rw [skipped] at solid whole
        rw [own.requiredText (List.cons_ne_nil _ _) solid, whole]
        exact .ok ⟨rfl, .value spelled sign blank (by simpa [Line.startsWith] using solid)⟩
    rw [readTail]
    split
    next inlineValue => exact expression (.inr inlineValue)
    next equals => exact expression (.inl equals)
    next space =>
      have spells : Spells source (own ++ t :: later) _ := .text spelled space
      split
      next nothing =>
        rw [nothing] at spells
        exact .ok ⟨rfl, spells⟩
      next text something =>
        rw [textContent_of_ne_nil something] at spells
        exact .ok ⟨rfl, spells⟩
    next block =>
      obtain rfl := left.nil_of_block block
      exact .ok ⟨rfl, .block spelled block⟩
    next colon =>
      split
      next starts =>
        have shorter := Nat.lt_succ_of_le (Line.length_skipSpace_le later)
        refine (inner _ shorter left.tail.skipSpace).map fun result said => ⟨said.1, ?_⟩
        rw [whole]
        exact .colon spelled colon blank (startsTag_kinds.mpr starts) said.2
      next => exact .error trivial
    next => exact .error trivial

theorem read_spelled (source : Text) {line : Line} (left : line.LeftOf source) :
    Meets (fun _ => True) (Spelled source line) (read source line) := by
  rw [read_eq_bind]
  cases taken : readHead line with
  | error => exact .error trivial
  | ok result =>
    obtain ⟨own, whole, spelled⟩ := readHead_taken taken
    have left' := left.suffix whole.suffix
    have shorter := length_readHead_le taken
    change Meets _ _ (readTail source result.1 result.2)
    generalize result.2 = rest at whole left' shorter
    cases whole with
    | rest => exact readTail_spelled spelled left' fun inner less left => read_spelled source left
    | dot dot => exact .ok ⟨rfl, .dot spelled dot⟩
termination_by line.length
decreasing_by omega

end TagLine

end IndentMarkup
