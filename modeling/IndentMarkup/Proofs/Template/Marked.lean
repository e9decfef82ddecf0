import IndentMarkup.Proofs.Line.Levels
import IndentMarkup.Proofs.Template.Siblings

/-! The lines of a template that begin with a token. They are found in the forest by going through
it from top to bottom and leaving out what is nested under a line that holds text, and those are
the lines that the indents show to be no text. -/
namespace IndentMarkup

namespace LineTree

variable {source : Text} {lines : List Line} {kind : Token.Kind}

/-- The lines behind line `j` are nested under it up to line `stop`. -/
structure NestedTo (lines : List Line) (j stop : Nat) : Prop where
  behind : j < stop
  bound : stop ≤ lines.length
  deeper : ∀ k, j < k → k < stop → level lines j < level lines k
  ends : stop < lines.length → level lines stop ≤ level lines j

/-- Line `i` is nested, however deep, under a comment or a tag line that ends in a block marker. -/
def InText (source : Text) (lines : List Line) (i : Nat) : Prop :=
  ∃ j stop line, lines[j]? = some line ∧ line.holdsText source = true ∧ NestedTo lines j stop ∧
    j < i ∧ i < stop

/-- Line `i` is no text and begins with that token, blanks aside. -/
structure Begins (source : Text) (kind : Token.Kind) (lines : List Line) (i : Nat) : Prop where
  marked : ∃ line, lines[i]? = some line ∧ line.skipSpace.startsWith kind = true
  shown : ¬ InText source lines i

/-- The lines that begin with the token, each with its number, counted from `n` on. The lines that
are text are left out. -/
def marked (source : Text) (kind : Token.Kind) (n : Nat) : List LineTree → List (Nat × LineTree)
  | [] => []
  | ⟨line, indent, nested⟩ :: later =>
    (if line.skipSpace.startsWith kind then [(n, ⟨line, indent, nested⟩)] else []) ++
      (if line.holdsText source then [] else marked source kind (n + 1) nested) ++
        marked source kind (n + 1 + (within nested).length) later

theorem marked_nil (source : Text) (kind : Token.Kind) (n : Nat) :
    marked source kind n [] = [] := by
  rw [marked]

theorem marked_cons (source : Text) (kind : Token.Kind) (n : Nat) (tree : LineTree)
    (later : List LineTree) : marked source kind n (tree :: later) =
      (if tree.line.skipSpace.startsWith kind then [(n, tree)] else []) ++
        (if tree.line.holdsText source then [] else marked source kind (n + 1) tree.nested) ++
          marked source kind (n + 1 + (within tree.nested).length) later := by
  obtain ⟨line, indent, nested⟩ := tree
  rw [marked]

/-- The trees of a forest are those that `all` has from number `n` on. They are in order, and nothing
is nested under a blank line. -/
structure Placed (all : List LineTree) (n : Nat) (trees : List LineTree) : Prop where
  located : ∀ r tree, (within trees)[r]? = some tree → all[n + r]? = some tree
  ordered : Ordered trees
  childless : ∀ tree ∈ within trees, tree.isBlank = true → tree.nested = []

variable {all : List LineTree} {n r i : Nat} {tree found : LineTree} {trees later : List LineTree}

/-- A tree stands at its number, what is nested under it follows, and then the later trees. -/
theorem getElem?_within_cons :
    (within (tree :: later))[r]? = some found ↔ (r = 0 ∧ found = tree) ∨
      (∃ q, r = q + 1 ∧ (within tree.nested)[q]? = some found) ∨
      ∃ q, r = q + 1 + (within tree.nested).length ∧ (within later)[q]? = some found := by
  obtain ⟨line, indent, nested⟩ := tree
  dsimp only
  rw [within]
  cases r with
  | zero =>
    have first (q : Nat) : 0 ≠ q + 1 + (within nested).length := by omega
    simp [eq_comm, first]
  | succ r =>
    rw [List.getElem?_cons_succ]
    by_cases inside : r < (within nested).length
    · rw [List.getElem?_append_left inside]
      constructor
      · exact fun place => .inr (.inl ⟨r, rfl, place⟩)
      · rintro (⟨zero, -⟩ | ⟨q, same, place⟩ | ⟨q, same, -⟩)
        · contradiction
        · exact Nat.succ.inj same ▸ place
        · omega
    · have past := Nat.le_of_not_lt inside
      rw [List.getElem?_append_right past]
      constructor
      · exact fun place => .inr (.inr ⟨_, by omega, place⟩)
      · rintro (⟨zero, -⟩ | ⟨q, same, place⟩ | ⟨q, same, place⟩)
        · contradiction
        · have bound := (List.getElem?_eq_some_iff.mp place).1
          omega
        · obtain rfl : q = r - (within nested).length := by omega
          exact place

theorem getElem?_within_nested (place : (within tree.nested)[r]? = some found) :
    (within (tree :: later))[r + 1]? = some found :=
  getElem?_within_cons.2 (.inr (.inl ⟨r, rfl, place⟩))

theorem getElem?_within_later (place : (within later)[r]? = some found) :
    (within (tree :: later))[r + 1 + (within tree.nested).length]? = some found :=
  getElem?_within_cons.2 (.inr (.inr ⟨r, rfl, place⟩))

theorem length_within_cons : (within (tree :: later)).length =
    (within tree.nested).length + (within later).length + 1 := by
  obtain ⟨line, indent, nested⟩ := tree
  simp [within]

theorem Ordered.parts (ordered : Ordered (tree :: later)) :
    (∀ child ∈ tree.nested, tree.indent < child.indent) ∧ Ordered tree.nested ∧ Ordered later := by
  cases ordered with
  | cons deeper level inside behind => exact ⟨deeper, inside, behind⟩

namespace Placed

theorem head (placed : Placed all n (tree :: later)) : all[n]? = some tree :=
  placed.located 0 tree (getElem?_within_cons.2 (.inl ⟨rfl, rfl⟩))

theorem inside (placed : Placed all n (tree :: later)) : Placed all (n + 1) tree.nested where
  located r found place := by
    rw [Nat.add_assoc, Nat.add_comm 1]
    exact placed.located _ found (getElem?_within_nested place)
  ordered := placed.ordered.parts.2.1
  childless found member := by
    obtain ⟨r, place⟩ := List.mem_iff_getElem?.mp member
    exact placed.childless found (List.mem_of_getElem? (getElem?_within_nested place))

theorem behind (placed : Placed all n (tree :: later)) :
    Placed all (n + 1 + (within tree.nested).length) later where
  located r found place := by
    have same : n + 1 + (within tree.nested).length + r =
        n + (r + 1 + (within tree.nested).length) := by omega
    rw [same]
    exact placed.located _ found (getElem?_within_later place)
  ordered := placed.ordered.parts.2.2
  childless found member := by
    obtain ⟨r, place⟩ := List.mem_iff_getElem?.mp member
    exact placed.childless found (List.mem_of_getElem? (getElem?_within_later place))

end Placed

/-- What is nested under a tree of a forest is in the forest. -/
theorem nested_bound (place : (within trees)[r]? = some found) :
    r + (within found.nested).length < (within trees).length := by
  induction trees using forest_induction generalizing r with
  | nil => simp [within] at place
  | cons line indent nested later inside behind =>
    rw [length_within_cons]
    obtain ⟨rfl, rfl⟩ | ⟨q, rfl, below⟩ | ⟨q, rfl, beside⟩ := getElem?_within_cons.1 place
    · dsimp only
      omega
    · have bound := inside below
      dsimp only
      omega
    · have bound := behind beside
      dsimp only
      omega

/-- No tree that stands before the one with number `r` and above it holds text. -/
def Free (source : Text) (trees : List LineTree) (r : Nat) : Prop :=
  ∀ q above, (within trees)[q]? = some above → above.line.holdsText source = true → q < r →
    q + (within above.nested).length < r

theorem free_zero : Free source trees 0 :=
  fun q _ _ _ early => absurd early (Nat.not_lt_zero q)

theorem free_nested (bound : r < (within tree.nested).length) :
    Free source (tree :: later) (r + 1) ↔
      tree.line.holdsText source = false ∧ Free source tree.nested r := by
  constructor
  · intro free
    refine ⟨Bool.eq_false_iff.mpr fun holds => ?_, fun q above place holds early => ?_⟩
    · have past := free 0 tree (getElem?_within_cons.2 (.inl ⟨rfl, rfl⟩)) holds (by omega)
      omega
    · have past := free _ above (getElem?_within_nested place) holds (by omega)
      omega
  · rintro ⟨shown, free⟩ q above place holds early
    obtain ⟨rfl, rfl⟩ | ⟨q, rfl, below⟩ | ⟨q, rfl, beside⟩ := getElem?_within_cons.1 place
    · simp [shown] at holds
    · have past := free q above below holds (by omega)
      omega
    · omega

theorem free_later :
    Free source (tree :: later) (r + 1 + (within tree.nested).length) ↔ Free source later r := by
  constructor
  · intro free q above place holds early
    have past := free _ above (getElem?_within_later place) holds (by omega)
    omega
  · intro free q above place holds early
    obtain ⟨rfl, rfl⟩ | ⟨q, rfl, below⟩ | ⟨q, rfl, beside⟩ := getElem?_within_cons.1 place
    · omega
    · have bound := nested_bound below
      omega
    · have past := free q above beside holds (by omega)
      omega

/-- The marked lines are those that begin with the token and are not nested under one that holds
text. -/
theorem mem_marked : (i, found) ∈ marked source kind n trees ↔
    ∃ r, i = n + r ∧ (within trees)[r]? = some found ∧
      found.line.skipSpace.startsWith kind = true ∧ Free source trees r := by
  induction trees using forest_induction generalizing n with
  | nil => simp [marked_nil, within]
  | cons line indent nested later inside behind =>
    rw [marked_cons, List.mem_append, List.mem_append]
    constructor
    · rintro ((own | below) | beside)
      · split at own
        next begins =>
          obtain ⟨rfl, rfl⟩ := Prod.mk.inj (List.mem_singleton.mp own)
          exact ⟨0, rfl, getElem?_within_cons.2 (.inl ⟨rfl, rfl⟩), begins, free_zero⟩
        next => contradiction
      · split at below
        next => contradiction
        next shown =>
          obtain ⟨r, rfl, place, begins, free⟩ := inside.1 below
          have bound := (List.getElem?_eq_some_iff.mp place).1
          exact ⟨r + 1, by omega, getElem?_within_nested place, begins,
            (free_nested bound).mpr ⟨Bool.eq_false_iff.mpr shown, free⟩⟩
      · obtain ⟨r, rfl, place, begins, free⟩ := behind.1 beside
        exact ⟨_, by dsimp only; omega, getElem?_within_later place, begins,
          free_later.2 free⟩
    · rintro ⟨r, rfl, place, begins, free⟩
      obtain ⟨rfl, rfl⟩ | ⟨r, rfl, below⟩ | ⟨r, rfl, beside⟩ := getElem?_within_cons.1 place
      · exact .inl (.inl (by simp [begins]))
      · have bound := (List.getElem?_eq_some_iff.mp below).1
        obtain ⟨shown, free⟩ := (free_nested bound).mp free
        have shown : ¬ line.holdsText source = true := Bool.eq_false_iff.mp shown
        rw [if_neg shown]
        exact .inl (.inr (inside.2 ⟨r, by omega, below, begins, free⟩))
      · have free := free_later.1 free
        exact .inr (behind.2 ⟨r, by dsimp only; omega, beside, begins, free⟩)

theorem marked_bounds {entry : Nat × LineTree} (member : entry ∈ marked source kind n trees) :
    n ≤ entry.1 ∧ entry.1 < n + (within trees).length := by
  obtain ⟨r, same, place, -⟩ := mem_marked.1 member
  have bound := (List.getElem?_eq_some_iff.mp place).1
  omega

/-- The marked lines are in order. -/
theorem pairwise_marked (source : Text) (kind : Token.Kind) (n : Nat) (trees : List LineTree) :
    (marked source kind n trees).Pairwise (·.1 < ·.1) := by
  induction trees using forest_induction generalizing n with
  | nil =>
    rw [marked_nil]
    exact .nil
  | cons line indent nested later inside behind =>
    rw [marked_cons, List.append_assoc]
    refine List.pairwise_append.mpr ⟨?_, List.pairwise_append.mpr ⟨?_, behind _, ?_⟩, ?_⟩
    · split <;> simp
    · split
      · exact .nil
      · exact inside _
    · intro first below second beside
      split at below
      · contradiction
      · have early := (marked_bounds below).2
        have late := (marked_bounds beside).1
        omega
    · intro first own second rest
      split at own
      · obtain rfl := List.mem_singleton.mp own
        rcases List.mem_append.mp rest with below | beside
        · split at below
          · contradiction
          · exact (marked_bounds below).1
        · have late := (marked_bounds beside).1
          omega
      · contradiction

theorem marked_cons_of_not (other : tree.line.skipSpace.startsWith kind = false) :
    marked source kind n (tree :: later) =
      (if tree.line.holdsText source then [] else marked source kind (n + 1) tree.nested) ++
        marked source kind (n + 1 + (within tree.nested).length) later := by
  rw [marked_cons, if_neg (by simpa using other), List.nil_append]

theorem marked_cons_of_marked (begins : tree.line.skipSpace.startsWith kind = true)
    (shown : tree.line.holdsText source = false) :
    marked source kind n (tree :: later) = (n, tree) ::
      (marked source kind (n + 1) tree.nested ++
        marked source kind (n + 1 + (within tree.nested).length) later) := by
  rw [marked_cons, if_pos begins, if_neg (by simpa using shown)]
  rfl

theorem Placed.nothing_nested (placed : Placed all n (tree :: later)) (blank : tree.isBlank = true) :
    tree.nested = [] :=
  placed.childless tree (List.mem_of_getElem? (getElem?_within_cons.2 (.inl ⟨rfl, rfl⟩))) blank

theorem Placed.behind_blank (placed : Placed all n (tree :: later)) (blank : tree.isBlank = true) :
    Placed all (n + 1) later := by
  have behind := placed.behind
  rwa [placed.nothing_nested blank, within, List.length_nil, Nat.add_zero] at behind

/-- No blank line is marked. -/
theorem marked_blank (placed : Placed all n (tree :: later)) (blank : tree.isBlank = true) :
    marked source kind n (tree :: later) = marked source kind (n + 1) later := by
  rw [marked_cons_of_not (by rw [Line.skipSpace_eq_nil blank]; rfl), placed.nothing_nested blank]
  simp [marked_nil, within]

theorem marked_blanks (source : Text) {blanks : List LineTree}
    (blank : ∀ tree ∈ blanks, tree.isBlank = true) (placed : Placed all n (blanks ++ later)) :
    (∀ kind, marked source kind n (blanks ++ later) =
      marked source kind (n + blanks.length) later) ∧ Placed all (n + blanks.length) later ∧
      ∀ k tree, n ≤ k → k < n + blanks.length → all[k]? = some tree → tree.isBlank = true := by
  induction blanks generalizing n with
  | nil => exact ⟨fun kind => rfl, placed, fun k tree lower upper => by simp at upper; omega⟩
  | cons first blanks ih =>
    rw [List.forall_mem_cons] at blank
    obtain ⟨same, behind, between⟩ := ih blank.2 (placed.behind_blank blank.1)
    have number : n + 1 + blanks.length = n + (first :: blanks).length := by
      rw [List.length_cons]
      omega
    rw [number] at behind between
    refine ⟨fun kind => ?_, behind, fun k tree lower upper place => ?_⟩
    · rw [← number, ← same kind]
      exact marked_blank placed blank.1
    · obtain rfl | late := Nat.eq_or_lt_of_le lower
      · obtain rfl := Option.some.inj (placed.head.symm.trans place)
        exact blank.1
      · exact between k tree late upper place

theorem NestedTo.unique {j stop stop' : Nat} (nested : NestedTo lines j stop)
    (nested' : NestedTo lines j stop') : stop = stop' := by
  rcases Nat.lt_trichotomy stop stop' with less | same | more
  · have deep := nested'.deeper stop nested.behind less
    have shallow := nested.ends (less.trans_le nested'.bound)
    omega
  · exact same
  · have deep := nested.deeper stop' nested'.behind more
    have shallow := nested'.ends (more.trans_le nested.bound)
    omega

theorem placed_ofLines (lines : List Line) :
    Placed (within (ofLines lines)) 0 (ofLines lines) where
  located r tree place := by rwa [Nat.zero_add]
  ordered := .ofLines lines
  childless _ member := nested_eq_nil_of_blank member

/-- The line with a number is that of the tree with that number. -/
theorem getElem?_ofLines {line : Line} :
    lines[i]? = some line ↔ ∃ tree, (within (ofLines lines))[i]? = some tree ∧ tree.line = line := by
  have whole : (within (ofLines lines)).map LineTree.line = lines :=
    (map_line_within _).trans (forestLines_ofLines lines)
  conv_lhs => rw [← whole]
  rw [List.getElem?_map, Option.map_eq_some_iff]

/-- What is nested under a tree are the lines that are nested under its own. -/
theorem nestedTo_ofLines (place : (within (ofLines lines))[i]? = some tree) :
    NestedTo lines i (i + 1 + (within tree.nested).length) ∧
      (lines.take (i + 1 + (within tree.nested).length)).drop (i + 1) = tree.descendants := by
  obtain ⟨stop, bound, behind, taken, deeper, ends⟩ :=
    (Ordered.ofLines lines).exists_stop (indent_ofLines lines) place
  rw [forestLines_ofLines] at bound taken ends
  have length : tree.descendants.length = stop - (i + 1) := by
    rw [taken, List.length_drop, List.length_take, Nat.min_eq_left bound]
  have same : i + 1 + (within tree.nested).length = stop := by
    rw [length_within, ← descendants, length]
    omega
  rw [same]
  exact ⟨⟨behind, bound, deeper, ends⟩, taken.symm⟩

theorem free_iff : Free source (ofLines lines) i ↔ ¬ InText source lines i := by
  constructor
  · rintro free ⟨j, stop, line, place, holds, nested, after, before⟩
    obtain ⟨tree, at_tree, rfl⟩ := getElem?_ofLines.1 place
    obtain rfl := nested.unique (nestedTo_ofLines at_tree).1
    have past := free j tree at_tree holds after
    omega
  · intro shown j tree place holds after
    refine Nat.lt_of_not_le fun inside => shown ?_
    exact ⟨j, _, tree.line, getElem?_ofLines.2 ⟨tree, place, rfl⟩, holds,
      (nestedTo_ofLines place).1, after, by omega⟩

/-- The marked lines of a text by their numbers. -/
theorem mem_marked_ofLines : (i, tree) ∈ marked source kind 0 (ofLines lines) ↔
    (within (ofLines lines))[i]? = some tree ∧ Begins source kind lines i := by
  rw [mem_marked]
  constructor
  · rintro ⟨r, rfl, place, begins, free⟩
    rw [Nat.zero_add]
    exact ⟨place, ⟨tree.line, getElem?_ofLines.2 ⟨tree, place, rfl⟩, begins⟩, free_iff.1 free⟩
  · rintro ⟨place, ⟨line, found, begins⟩, shown⟩
    obtain ⟨same, place', rfl⟩ := getElem?_ofLines.1 found
    obtain rfl := Option.some.inj (place'.symm.trans place)
    exact ⟨i, (Nat.zero_add i).symm, place, begins, free_iff.2 shown⟩

end LineTree

end IndentMarkup
