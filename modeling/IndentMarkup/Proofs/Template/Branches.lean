import IndentMarkup.Proofs.Template.Marked
import IndentMarkup.Proofs.Template.Outline
import IndentMarkup.Proofs.Template.Parts

/-! The branches of conditions. An `else` line belongs to the `if` line that stands right above it
when all that is deeper is left out, and no condition takes a branch from anywhere else. -/
namespace IndentMarkup

namespace LineTree

variable {source : Text} {lines : List Line} {kind : Token.Kind}

/-- Of the lines before line `i`, line `j` is the last one that is neither blank nor deeper. -/
structure IsLastAbove (lines : List Line) (j i : Nat) : Prop where
  before : j < i
  solid : ∃ line, lines[j]? = some line ∧ line.isBlank = false
  shallow : level lines j ≤ level lines i
  between : ∀ k line, j < k → k < i → lines[k]? = some line →
    line.isBlank = true ∨ level lines i < level lines k

/-- Nothing but blanks stands behind the `else` of line `i`, and the `if` it belongs to is above it
at the same indent. -/
structure ElseFits (source : Text) (lines : List Line) (i : Nat) : Prop where
  bare : ∃ (line : Line) (t : Token) (rest : Line), lines[i]? = some line ∧
    line.skipSpace = t :: rest ∧ rest.isBlank = true
  matched : ∃ j, IsLastAbove lines j i ∧ Begins source (.keyword .if) lines j ∧
    level lines j = level lines i

/-- What is nested under line `j` becomes those elements. -/
def NestedGives (source : Text) (lines : List Line) (j : Nat) (made : List Element) : Prop :=
  ∃ stop, NestedTo lines j stop ∧
    Template.elementsOf source ((lines.take stop).drop (j + 1)) = .ok made

/-- The element is the condition of the `if` in line `j`, with the branches of its own lines. -/
inductive GivesCondition (source : Text) (lines : List Line) (j : Nat) : Element → Prop where
  | intro {predicate : Text} {thenBranch elseBranch : List Element}
      (said : ∃ line, lines[j]? = some line ∧
        Statement.ofLine source line = .ok (.condition predicate))
      (own : NestedGives source lines j thenBranch)
      (other : ∀ i, Begins source (.keyword .else) lines i → IsLastAbove lines j i →
        NestedGives source lines i elseBranch)
      (alone : (∀ i, Begins source (.keyword .else) lines i → ¬ IsLastAbove lines j i) →
        elseBranch = []) :
      GivesCondition source lines j (.conditional predicate thenBranch elseBranch)

/-- An `if` line with its number, and its `else` line if it has one. -/
structure Branching where
  number : Nat
  tree : LineTree
  other : Option (Nat × LineTree)

namespace Branching

def own (branching : Branching) : Nat × LineTree :=
  (branching.number, branching.tree)

/-- Behind the `if` line its `else` is the next of all trees that is neither blank nor deeper. -/
structure Fits (all : List LineTree) (branching : Branching) : Prop where
  before : ∀ entry ∈ branching.other, branching.number < entry.1
  level : ∀ entry ∈ branching.other, branching.tree.indent = entry.2.indent
  bare : ∀ entry ∈ branching.other, readElse entry.2.line = .ok ()
  between : ∀ entry ∈ branching.other, ∀ k tree, branching.number < k → k < entry.1 →
    all[k]? = some tree → tree.isBlank = true ∨ branching.tree.indent < tree.indent

/-- The condition has the branches that are nested under the lines. -/
inductive Gives (source : Text) : Branching → Element → Prop where
  | alone {n : Nat} {tree : LineTree} {predicate : Text} {branch : List Element}
      (said : Statement.ofLine source tree.line = .ok (.condition predicate))
      (read : tree.children source = .ok branch) :
      Gives source ⟨n, tree, none⟩ (.conditional predicate branch [])
  | both {n m : Nat} {tree other : LineTree} {predicate : Text}
      {thenBranch elseBranch : List Element}
      (said : Statement.ofLine source tree.line = .ok (.condition predicate))
      (read : tree.children source = .ok thenBranch)
      (read' : other.children source = .ok elseBranch) :
      Gives source ⟨n, tree, some (m, other)⟩ (.conditional predicate thenBranch elseBranch)

end Branching

end LineTree

def Element.isCondition : Element → Bool
  | .conditional .. => true
  | _ => false

/-- The conditions of a template, in the order of the text. -/
def Element.conditions (elements : List Element) : List Element :=
  (within elements).filter isCondition

theorem Element.conditions_conditional (predicate : Text)
    (thenBranch elseBranch later : List Element) :
    conditions (.conditional predicate thenBranch elseBranch :: later) =
      .conditional predicate thenBranch elseBranch ::
        (conditions thenBranch ++ (conditions elseBranch ++ conditions later)) := by
  rw [conditions, within, parts, List.cons_append, List.filter_cons_of_pos rfl]
  simp [conditions]

theorem Statement.GivesPart.not_condition {statement : Statement} {element : Element}
    (gives : statement.GivesPart element) (plain : ∀ predicate, statement ≠ .condition predicate) :
    element.isCondition = false := by
  cases gives with
  | condition => exact absurd rfl (plain _)
  | _ => rfl

theorem Statement.links_plain {statement : Statement}
    (plain : ∀ predicate, statement ≠ .condition predicate) :
    ∀ link ∈ statement.links, ∀ predicate, link ≠ .condition predicate := by
  cases statement with
  | tag line => simp [links]
  | condition predicate => exact absurd rfl (plain predicate)
  | _ => simp [links]

theorem Statement.filter_isCondition {links : List Statement} {own : List Element}
    (plain : ∀ link ∈ links, ∀ predicate, link ≠ .condition predicate)
    (gives : List.Forall₂ GivesPart links own) : own.filter Element.isCondition = [] := by
  induction gives with
  | nil => rfl
  | cons first _ ih =>
    rw [List.forall_mem_cons] at plain
    rw [List.filter_cons_of_neg (by simp [first.not_condition plain.1]), ih plain.2]

/-- An element that is no condition has the conditions that are nested in it. -/
theorem Statement.conditions_element {source : Text} {statement : Statement}
    {nested : List LineTree} {children : Except ParseError (List Element)} {element : Element}
    (plain : ∀ predicate, statement ≠ .condition predicate)
    (made : statement.element source nested children = .ok element)
    (blank : nested.find? (!·.isBlank) = none → children = .ok []) :
    ∃ inner, (if statement.holdsText then inner = [] else children = .ok inner) ∧
      ∀ later, Element.conditions (element :: later) =
        Element.conditions inner ++ Element.conditions later := by
  obtain ⟨own, inner, gives, parts, inside⟩ := parts_element made blank
  refine ⟨inner, inside, fun later => ?_⟩
  simp [Element.conditions, Element.within, parts, filter_isCondition (links_plain plain) gives]

namespace LineTree

variable {source : Text} {lines : List Line} {kind : Token.Kind}

/-- Each `if` and each `else` is used just once, and each condition comes from one of them. -/
structure Paired (source : Text) (all : List LineTree) (ifs elses : List (Nat × LineTree))
    (conditions : List Element) (found : List Branching) : Prop where
  ifs : found.map Branching.own = ifs
  elses : (found.filterMap Branching.other).Perm elses
  fits : ∀ branching ∈ found, branching.Fits all
  gives : List.Forall₂ (Branching.Gives source) found conditions

namespace Paired

variable {all : List LineTree} {ifs ifs' elses elses' : List (Nat × LineTree)}
  {conditions conditions' : List Element} {found found' : List Branching}

theorem nil : Paired source all [] [] [] [] :=
  ⟨rfl, .nil, by simp, .nil⟩

theorem append (first : Paired source all ifs elses conditions found)
    (second : Paired source all ifs' elses' conditions' found') :
    Paired source all (ifs ++ ifs') (elses ++ elses') (conditions ++ conditions')
      (found ++ found') where
  ifs := by rw [List.map_append, first.ifs, second.ifs]
  elses := by
    rw [List.filterMap_append]
    exact first.elses.append second.elses
  fits := List.forall_mem_append.mpr ⟨first.fits, second.fits⟩
  gives := List.rel_append first.gives second.gives

theorem alone {n : Nat} {tree : LineTree} {predicate : Text} {branch : List Element}
    (said : Statement.ofLine source tree.line = .ok (.condition predicate))
    (read : tree.children source = .ok branch)
    (paired : Paired source all ifs elses conditions found) :
    Paired source all ((n, tree) :: ifs) elses (.conditional predicate branch [] :: conditions)
      (⟨n, tree, none⟩ :: found) where
  ifs := congrArg _ paired.ifs
  elses := paired.elses
  fits := List.forall_mem_cons.mpr ⟨⟨nofun, nofun, nofun, nofun⟩, paired.fits⟩
  gives := .cons (.alone said read) paired.gives

theorem both {n m : Nat} {tree other : LineTree} {predicate : Text}
    {thenBranch elseBranch : List Element}
    (said : Statement.ofLine source tree.line = .ok (.condition predicate))
    (read : tree.children source = .ok thenBranch)
    (read' : other.children source = .ok elseBranch)
    (fits : Branching.Fits all ⟨n, tree, some (m, other)⟩)
    (paired : Paired source all ifs (elses ++ elses') conditions found) :
    Paired source all ((n, tree) :: ifs) (elses ++ (m, other) :: elses')
      (.conditional predicate thenBranch elseBranch :: conditions)
      (⟨n, tree, some (m, other)⟩ :: found) where
  ifs := congrArg _ paired.ifs
  elses := (paired.elses.cons _).trans List.perm_middle.symm
  fits := List.forall_mem_cons.mpr ⟨fits, paired.fits⟩
  gives := .cons (.both said read read') paired.gives

end Paired

variable {all : List LineTree} {n i : Nat} {tree : LineTree} {trees : List LineTree}

/-- A line that begins with `if` is a condition, if it is a statement at all. -/
theorem ofLine_if {line : Line} {statement : Statement}
    (begins : line.skipSpace.startsWith (.keyword .if) = true)
    (said : Statement.ofLine source line = .ok statement) :
    ∃ predicate, statement = .condition predicate := by
  have made := Statement.read_of_ofLine said
  generalize line.skipSpace = line at begins made
  cases line with
  | nil => contradiction
  | cons t rest =>
    have kind : t.kind = .keyword .if := by simpa [Line.startsWith] using begins
    simp only [Statement.read, kind, Statement.readCondition_eq] at made
    obtain ⟨⟨_, rest⟩, -, made⟩ := bind_ok made
    obtain ⟨predicate, -, ⟨⟩⟩ := bind_ok made
    exact ⟨predicate, rfl⟩

theorem readMarker_ne_condition {left : Line} {predicate : Text} (marker : Marker) (rest : Line) :
    Statement.readMarker source marker rest ≠ .ok (.condition predicate, left) := by
  intro read
  rw [Statement.readMarker_eq] at read
  obtain ⟨_, -, ⟨⟩⟩ := map_ok read

/-- Only a line that begins with `if` is a condition. -/
theorem begins_of_condition {line : Line} {predicate : Text}
    (said : Statement.ofLine source line = .ok (.condition predicate)) :
    line.skipSpace.startsWith (.keyword .if) = true := by
  have made := Statement.read_of_ofLine said
  generalize line.skipSpace = line at made
  cases line with
  | nil => contradiction
  | cons t rest =>
    simp only [Statement.read] at made
    split at made
    case h_9 kind => simp [Line.startsWith, kind]
    case h_1 | h_2 | h_11 => cases made
    case h_3 => cases rest <;> simp at made
    case h_6 | h_7 | h_8 => exact absurd made (readMarker_ne_condition _ _)
    case h_10 =>
      split at made
      · exact absurd made (readMarker_ne_condition _ _)
      · obtain ⟨_, -, ⟨⟩⟩ := map_ok made
    case h_4 | h_5 => obtain ⟨_, -, ⟨⟩⟩ := map_ok made

theorem not_begins_else {line : Line} {statement : Statement}
    (said : Statement.ofLine source line = .ok statement) :
    line.skipSpace.startsWith (.keyword .else) = false :=
  Bool.eq_false_iff.mpr fun begins => Statement.ofLine_else begins statement said

theorem not_begins_if {line : Line} (begins : line.skipSpace.startsWith (.keyword .else) = true) :
    line.skipSpace.startsWith (.keyword .if) = false := by
  generalize line.skipSpace = line at begins
  cases line with
  | nil => rfl
  | cons t rest =>
    have kind : t.kind = .keyword .else := by simpa [Line.startsWith] using begins
    simp [Line.startsWith, kind]

theorem holdsText_of_ofLine {line : Line} {statement : Statement}
    (said : Statement.ofLine source line = .ok statement) :
    line.holdsText source = statement.holdsText := by
  rw [Line.holdsText, said]

/-- No line that says `else` holds text. -/
theorem holdsText_else (source : Text) {line : Line}
    (begins : line.skipSpace.startsWith (.keyword .else) = true) :
    line.holdsText source = false := by
  rw [Line.holdsText]
  split
  next statement said => exact absurd said (Statement.ofLine_else begins statement)
  next => rfl

theorem Become.paired {elements : List Element} (become : Become source trees elements)
    (placed : Placed all n trees) :
    ∃ found, Paired source all (marked source (.keyword .if) n trees)
      (marked source (.keyword .else) n trees) (Element.conditions elements) found := by
  induction become generalizing n with
  | nil =>
    rw [marked_nil, marked_nil]
    exact ⟨[], .nil⟩
  | blank blank behind ih =>
    rw [marked_blank placed blank, marked_blank placed blank]
    exact ih (placed.behind_blank blank)
  | @statement tree later statement element elements solid said plain made inside behind ih ih' =>
    obtain ⟨inner, held, conditions⟩ := Statement.conditions_element plain made fun blank =>
      (children_eq tree).trans (elements_of_blank blank)
    have other : tree.line.skipSpace.startsWith (.keyword .if) = false :=
      Bool.eq_false_iff.mpr fun begins => by
        obtain ⟨predicate, same⟩ := ofLine_if begins said
        exact plain predicate same
    rw [marked_cons_of_not other, marked_cons_of_not (not_begins_else said), conditions elements,
      holdsText_of_ofLine said]
    obtain ⟨beside, paired'⟩ := ih' placed.behind
    split at held
    next holds =>
      subst held
      rw [if_pos holds, if_pos holds]
      exact ⟨beside, paired'⟩
    next shown =>
      obtain ⟨below, paired⟩ := ih inner held placed.inside
      rw [if_neg shown, if_neg shown]
      exact ⟨below ++ beside, paired.append paired'⟩
  | @condition tree later predicate branch elements solid said read inside behind ih ih' =>
    obtain ⟨below, paired⟩ := ih placed.inside
    obtain ⟨beside, paired'⟩ := ih' placed.behind
    have shown := holdsText_of_ofLine said
    rw [marked_cons_of_marked (begins_of_condition said) shown,
      marked_cons_of_not (not_begins_else said), shown, Element.conditions_conditional]
    exact ⟨_, .alone said read (paired.append paired')⟩
  | @branches tree other blanks later predicate thenBranch elseBranch elements solid said read inside
      blank solid' level begins bare read' inside' behind ih ih' ih'' =>
    obtain ⟨skipped, placed', between⟩ := marked_blanks source blank placed.behind
    obtain ⟨below, paired⟩ := ih placed.inside
    obtain ⟨below', paired'⟩ := ih' placed'.inside
    obtain ⟨beside, paired''⟩ := ih'' placed'.behind
    have shown := holdsText_of_ofLine said
    have shown' := holdsText_else source begins
    have own : other.line.skipSpace.startsWith (.keyword .if) = false := not_begins_if begins
    rw [marked_cons_of_marked (begins_of_condition said) shown,
      marked_cons_of_not (not_begins_else said), shown, skipped, skipped, marked_cons_of_not own,
      marked_cons_of_marked begins shown', shown', Element.conditions_conditional]
    refine ⟨_, .both said read read' ?_ (paired.append (paired'.append paired''))⟩
    constructor
    · rintro _ ⟨⟩
      dsimp only
      omega
    · rintro _ ⟨⟩
      exact level
    · rintro _ ⟨⟩
      exact bare
    · rintro _ ⟨⟩ k found (after : n < k) early place
      by_cases below : k < n + 1 + (within tree.nested).length
      · obtain ⟨r, rfl⟩ := Nat.exists_eq_add_of_le after
        have inner := List.getElem?_eq_getElem (show r < (within tree.nested).length by omega)
        obtain rfl := Option.some.inj (place.symm.trans (placed.inside.located r _ inner))
        obtain ⟨deeper, ordered, -⟩ := placed.ordered.parts
        exact .inr (ordered.within_deeper deeper _ (List.mem_of_getElem? inner))
      · exact .inl (between k found (Nat.le_of_not_lt below) early place)

theorem IsLastAbove.unique {j j' i : Nat} (last : IsLastAbove lines j i)
    (last' : IsLastAbove lines j' i) : j = j' := by
  obtain ⟨line, place, solid⟩ := last.solid
  obtain ⟨line', place', solid'⟩ := last'.solid
  have shallow := last.shallow
  have shallow' := last'.shallow
  rcases Nat.lt_trichotomy j j' with less | same | more
  · rcases last.between j' line' less last'.before place' with blank | deep
    · simp [solid'] at blank
    · omega
  · exact same
  · rcases last'.between j line more last.before place with blank | deep
    · simp [solid] at blank
    · omega

theorem nestedGives_of_children {made : List Element}
    (place : (within (ofLines lines))[i]? = some tree) (read : tree.children source = .ok made) :
    NestedGives source lines i made := by
  obtain ⟨nested, taken⟩ := nestedTo_ofLines place
  refine ⟨_, nested, ?_⟩
  rw [taken, Template.elementsOf, ofLines_descendants (List.mem_of_getElem? place), ← children_eq]
  exact read

theorem bare_of_readElse {line : Line} (read : readElse line = .ok ()) :
    ∃ (t : Token) (rest : Line), line.skipSpace = t :: rest ∧ rest.isBlank = true := by
  obtain ⟨⟨t, rest⟩, taken, read⟩ := bind_ok read
  refine ⟨t, rest, (Line.eq_of_expect taken).1, ?_⟩
  cases skipped : rest.skipSpace with
  | nil => simpa [Line.skipSpace, Line.isBlank] using skipped
  | cons u later => simp [skipped] at read

namespace Paired

variable {conditions : List Element} {branching branching' : Branching} {found : List Branching}
  (paired : Paired source (within (ofLines lines))
    (marked source (.keyword .if) 0 (ofLines lines))
    (marked source (.keyword .else) 0 (ofLines lines)) conditions found)

include paired

theorem own_place (member : branching ∈ found) :
    (within (ofLines lines))[branching.number]? = some branching.tree ∧
      Begins source (.keyword .if) lines branching.number := by
  have listed := List.mem_map_of_mem (f := Branching.own) member
  rw [paired.ifs] at listed
  exact mem_marked_ofLines.1 listed

theorem other_place {entry : Nat × LineTree} (member : branching ∈ found)
    (other : branching.other = some entry) :
    (within (ofLines lines))[entry.1]? = some entry.2 ∧
      Begins source (.keyword .else) lines entry.1 :=
  mem_marked_ofLines.1 (paired.elses.mem_iff.mp (List.mem_filterMap.mpr ⟨_, member, other⟩))

/-- Each `else` belongs to an `if`. -/
theorem exists_of_else (begins : Begins source (.keyword .else) lines i) :
    ∃ branching ∈ found, ∃ tree, branching.other = some (i, tree) := by
  obtain ⟨line, place, -⟩ := begins.marked
  obtain ⟨tree, at_tree, rfl⟩ := getElem?_ofLines.1 place
  have listed := paired.elses.mem_iff.mpr (mem_marked_ofLines.2 ⟨at_tree, begins⟩)
  obtain ⟨branching, member, other⟩ := List.mem_filterMap.mp listed
  exact ⟨branching, member, tree, other⟩

theorem pairwise_number : (found.map Branching.number).Pairwise (· < ·) := by
  have listed := pairwise_marked source (.keyword .if) 0 (ofLines lines)
  rw [← paired.ifs, List.pairwise_map] at listed
  exact List.pairwise_map.mpr listed

theorem mem_number {j : Nat} :
    j ∈ found.map Branching.number ↔ Begins source (.keyword .if) lines j := by
  constructor
  · intro listed
    obtain ⟨branching, member, rfl⟩ := List.mem_map.mp listed
    exact (paired.own_place member).2
  · intro begins
    obtain ⟨line, place, -⟩ := begins.marked
    obtain ⟨tree, at_tree, rfl⟩ := getElem?_ofLines.1 place
    have listed := mem_marked_ofLines.2 ⟨at_tree, begins⟩
    rw [← paired.ifs] at listed
    obtain ⟨branching, member, same⟩ := List.mem_map.mp listed
    exact List.mem_map.mpr ⟨branching, member, congrArg Prod.fst same⟩

theorem eq_of_number (member : branching ∈ found) (member' : branching' ∈ found)
    (same : branching.number = branching'.number) : branching = branching' :=
  List.inj_on_of_nodup_map (paired.pairwise_number.imp Nat.ne_of_lt) member member' same

theorem isLastAbove {entry : Nat × LineTree} (member : branching ∈ found)
    (other : branching.other = some entry) :
    IsLastAbove lines branching.number entry.1 ∧
      level lines branching.number = level lines entry.1 := by
  have fits := paired.fits branching member
  obtain ⟨place, begins⟩ := paired.own_place member
  obtain ⟨place', -⟩ := paired.other_place member other
  have indents := indent_ofLines lines
  have same := fits.level entry other
  rw [indents _ _ place, indents _ _ place'] at same
  obtain ⟨line, at_own, marked⟩ := begins.marked
  refine ⟨⟨fits.before entry other, ⟨line, at_own, ?_⟩, same.le,
    fun k line after early at_line => ?_⟩, same⟩
  · refine Bool.eq_false_iff.mpr fun blank => ?_
    rw [Line.skipSpace_eq_nil blank] at marked
    contradiction
  · obtain ⟨tree, at_tree, rfl⟩ := getElem?_ofLines.1 at_line
    refine (fits.between entry other k tree after early at_tree).imp_right fun deep => ?_
    rwa [indents _ _ at_tree, indents _ _ place, same] at deep

/-- The `else` that an `if` is last above is its own. -/
theorem other_eq (member : branching ∈ found) (begins : Begins source (.keyword .else) lines i)
    (last : IsLastAbove lines branching.number i) :
    ∃ tree, branching.other = some (i, tree) := by
  obtain ⟨branching', member', tree, other⟩ := paired.exists_of_else begins
  obtain rfl := paired.eq_of_number member' member
    ((paired.isLastAbove member' other).1.unique last)
  exact ⟨tree, other⟩

end Paired

end LineTree

namespace Template

open LineTree

/-- Each `else` has an `if` of its own, and each `if` makes one condition, with what is nested under
its `else` as the other branch. -/
structure BranchesFit (source : Text) (lines : List Line) (elements : List Element) : Prop where
  elses : ∀ i, Begins source (.keyword .else) lines i → ElseFits source lines i
  distinct : ∀ i i' j, Begins source (.keyword .else) lines i →
    Begins source (.keyword .else) lines i' → IsLastAbove lines j i → IsLastAbove lines j i' → i = i'
  conditions : ∃ ifs : List Nat, ifs.Pairwise (· < ·) ∧
    (∀ j, j ∈ ifs ↔ Begins source (.keyword .if) lines j) ∧
    List.Forall₂ (GivesCondition source lines) ifs (Element.conditions elements)

theorem branchesFit_of_elements {source : Text} {lines : List Line} {elements : List Element}
    (read : elementsOf source lines = .ok elements) : BranchesFit source lines elements := by
  obtain ⟨found, paired⟩ := (become_of_elements.1 read).paired (placed_ofLines lines)
  refine ⟨fun i begins => ?_, fun i i' j begins begins' last last' => ?_,
    found.map Branching.number, paired.pairwise_number, fun j => paired.mem_number, ?_⟩
  · obtain ⟨branching, member, tree, other⟩ := paired.exists_of_else begins
    obtain ⟨last, level⟩ := paired.isLastAbove member other
    obtain ⟨place, -⟩ := paired.other_place member other
    obtain ⟨t, rest, front, blank⟩ := bare_of_readElse ((paired.fits _ member).bare _ other)
    exact ⟨⟨tree.line, t, rest, getElem?_ofLines.2 ⟨tree, place, rfl⟩, front, blank⟩,
      branching.number, last, (paired.own_place member).2, level⟩
  · obtain ⟨branching, member, tree, other⟩ := paired.exists_of_else begins
    obtain rfl := (paired.isLastAbove member other).1.unique last
    obtain ⟨tree', other'⟩ := paired.other_eq member begins' last'
    exact (Prod.mk.inj (Option.some.inj (other.symm.trans other'))).1
  · rw [List.forall₂_map_left_iff]
    refine ((List.forall₂_and_left (p := (· ∈ found)) ..).mpr ⟨fun _ => id, paired.gives⟩).imp ?_
    rintro branching element ⟨member, gives⟩
    obtain ⟨place, -⟩ := paired.own_place member
    cases gives with
    | alone said read =>
      refine .intro ⟨_, getElem?_ofLines.2 ⟨_, place, rfl⟩, said⟩
        (nestedGives_of_children place read) (fun i begins last => ?_) fun _ => rfl
      obtain ⟨tree, other⟩ := paired.other_eq member begins last
      contradiction
    | both said read read' =>
      obtain ⟨place', begins'⟩ := paired.other_place member rfl
      refine .intro ⟨_, getElem?_ofLines.2 ⟨_, place, rfl⟩, said⟩
        (nestedGives_of_children place read) (fun i begins last => ?_) fun none => ?_
      · obtain ⟨tree, other⟩ := paired.other_eq member begins last
        obtain ⟨rfl, rfl⟩ := Prod.mk.inj (Option.some.inj other)
        exact nestedGives_of_children place' read'
      · exact absurd (paired.isLastAbove member rfl).1 (none _ begins')

/-- In a template that is read, each `else` belongs to exactly the right `if`. With an `else` that has
no `if`, or that anything stands behind, no template is read. -/
theorem branches_of_parse (text : Text) :
    (∀ template, parse text = .ok template →
      BranchesFit text.normalize (body (linesOf text.normalize)) template.elements) ∧
    ∀ i, Begins text.normalize (.keyword .else) (body (linesOf text.normalize)) i →
      ¬ ElseFits text.normalize (body (linesOf text.normalize)) i →
      ∃ error, parse text = .error error := by
  have fit : ∀ template, parse text = .ok template →
      BranchesFit text.normalize (body (linesOf text.normalize)) template.elements :=
    fun template read => branchesFit_of_elements (elementsOf_of_parse read)
  refine ⟨fit, fun i begins wrong => ?_⟩
  cases read : parse text with
  | error error => exact ⟨error, rfl⟩
  | ok template => exact absurd ((fit template read).elses i begins) wrong

/-- An `else` behind a blank line, and one that has no `if`. -/
theorem branches_of_parse_blank :
    (∃ template, parse "if a\n p\n\nelse\n b".toList = .ok template ∧
      template.elements.length = 1 ∧
      BranchesFit (Text.normalize "if a\n p\n\nelse\n b".toList)
        (body (linesOf (Text.normalize "if a\n p\n\nelse\n b".toList))) template.elements) ∧
    ∃ error, parse "p\nelse".toList = .error error := by
  constructor
  · have read : parse "if a\n p\n\nelse\n b".toList =
        .ok ⟨none, [.conditional ['a'] [.tag { name := ['p'] } none []]
          [.tag { name := ['b'] } none []]]⟩ := by cbv
    exact ⟨_, read, rfl, (branches_of_parse _).1 _ read⟩
  · have lines : body (linesOf (Text.normalize "p\nelse".toList)) =
        [[⟨.word, ['p'], ⟨0, 1, 1⟩⟩], [⟨.keyword .else, "else".toList, ⟨2, 2, 1⟩⟩]] := by cbv
    refine (branches_of_parse _).2 1 ?_ ?_
    · rw [lines]
      refine ⟨⟨_, rfl, by decide⟩, ?_⟩
      rintro ⟨_ | _, stop, line, place, holds, nested, after, before⟩
      · obtain rfl := Option.some.inj place
        cbv at holds
        contradiction
      · omega
    · rw [lines]
      rintro ⟨-, _ | _, last, begins, -⟩
      · obtain ⟨line, place, marked⟩ := begins.marked
        obtain rfl := Option.some.inj place
        contradiction
      · exact absurd last.before (by omega)

end Template

end IndentMarkup
