import IndentMarkup.Proofs.Line.Margin
import Mathlib.Data.List.Chain

/-! The forest that the indents of lines make. Each line is nested under the nearest line before
it that is indented less, the lines stay in order, and what is nested under a line goes on to the
next one that is indented no deeper. -/
namespace IndentMarkup

namespace LineTree

/-- The indent that counts for the line with that number: its own, or if it is blank that of the
next line that is not. -/
def level (lines : List Line) (i : Nat) : Nat :=
  (((lines.drop i).find? (!·.isBlank)).map Line.indent).getD 0

/-- The number of the line that each line is nested under, in order. The lines are counted from `n`
on, and the forest itself is nested under the line `above`, if any. -/
def parents (above : Option Nat) (n : Nat) : List LineTree → List (Option Nat)
  | [] => []
  | ⟨_, _, nested⟩ :: later =>
    above :: (parents (some n) (n + 1) nested ++
      parents above (n + 1 + (forestLines nested).length) later)

/-- Of the lines before line `i` the parent is the last that is indented less. Without a parent,
none of them is. -/
structure IsNearest (level : Nat → Nat) (i : Nat) (parent : Option Nat) : Prop where
  smaller : ∀ j ∈ parent, j < i ∧ level j < level i
  between : ∀ k < i, (∀ j ∈ parent, j < k) → level i ≤ level k

/-- The forest nests each line under the nearest line before it that is indented less. -/
structure NearestForest (lines : List Line) (trees : List LineTree) : Prop where
  /-- From top to bottom, the trees are those of the lines. -/
  preorder : (within trees).map line = lines
  indents : ∀ i tree, (within trees)[i]? = some tree → tree.indent = level lines i
  parents : ∀ i < lines.length, ∃ parent, (parents none 0 trees)[i]? = some parent ∧
    IsNearest (level lines) i parent
  deeper : ∀ tree ∈ within trees, ∀ child ∈ tree.nested, tree.indent < child.indent
  siblings : (trees.map indent).IsChain (· ≥ ·) ∧
    ∀ tree ∈ within trees, (tree.nested.map indent).IsChain (· ≥ ·)
  /-- Below a tree are the lines from the next one up to the first that is no deeper. -/
  descendants : ∀ i tree, (within trees)[i]? = some tree → ∃ stop ≤ lines.length, i < stop ∧
    tree.descendants = (lines.take stop).drop (i + 1) ∧
    (∀ k, i < k → k < stop → level lines i < level lines k) ∧
    (stop < lines.length → level lines stop ≤ level lines i)

/-- What is nested is deeper, and no tree is deeper than the one before it. -/
inductive Ordered : List LineTree → Prop where
  | nil : Ordered []
  | cons {line : Line} {indent : Nat} {nested later : List LineTree}
      (deeper : ∀ child ∈ nested, indent < child.indent)
      (level : ∀ next ∈ later.head?, next.indent ≤ indent) (inside : Ordered nested)
      (behind : Ordered later) : Ordered (⟨line, indent, nested⟩ :: later)

namespace Ordered

variable {trees : List LineTree}

theorem takeWhile (ordered : Ordered trees) (p : LineTree → Bool) :
    Ordered (trees.takeWhile p) := by
  induction ordered with
  | nil => exact .nil
  | @cons line indent nested later deeper level inside behind _ ih =>
    rw [List.takeWhile_cons]
    split
    · refine .cons deeper (fun next head => level next ?_) inside ih
      cases later with
      | nil => contradiction
      | cons other more =>
        rw [List.takeWhile_cons] at head
        split at head
        · exact head
        · contradiction
    · exact .nil

theorem dropWhile (ordered : Ordered trees) (p : LineTree → Bool) :
    Ordered (trees.dropWhile p) := by
  induction ordered with
  | nil => exact .nil
  | cons deeper level inside behind _ ih =>
    rw [List.dropWhile_cons]
    split
    · exact ih
    · exact .cons deeper level inside behind

/-- A line in front takes the deeper trees, and the first that is left is not deeper. -/
theorem graft (ordered : Ordered trees) (line : Line) : Ordered (LineTree.graft line trees) := by
  refine .cons (fun child member => ?_) (fun next head => ?_) (ordered.takeWhile _)
    (ordered.dropWhile _)
  · simpa using List.mem_takeWhile_imp member
  · have stopped := List.head?_dropWhile_not (indentBefore line trees < ·.indent) trees
    rw [Option.mem_def.mp head] at stopped
    simpa using stopped

theorem ofLines (lines : List Line) : Ordered (ofLines lines) := by
  induction lines with
  | nil => exact .nil
  | cons line lines ih => exact ih.graft line

theorem isChain (ordered : Ordered trees) : (trees.map indent).IsChain (· ≥ ·) := by
  induction ordered with
  | nil => exact .nil
  | cons _ level _ _ _ ih => exact List.isChain_cons.mpr ⟨by simpa using level, ih⟩

/-- Deeper than the trees are, everything below them is too. -/
theorem within_deeper (ordered : Ordered trees) {width : Nat}
    (below : ∀ tree ∈ trees, width < tree.indent) : ∀ tree ∈ within trees, width < tree.indent := by
  induction ordered with
  | nil => simp [within]
  | cons deeper level inside behind ih ih' =>
    rw [List.forall_mem_cons] at below
    rw [within, List.forall_mem_cons, List.forall_mem_append]
    exact ⟨below.1, ih fun child member => below.1.trans (deeper child member), ih' below.2⟩

theorem nested (ordered : Ordered trees) :
    ∀ tree ∈ within trees, (∀ child ∈ tree.nested, tree.indent < child.indent) ∧
      Ordered tree.nested := by
  induction ordered with
  | nil => simp [within]
  | cons deeper level inside behind ih ih' =>
    rw [within, List.forall_mem_cons, List.forall_mem_append]
    exact ⟨⟨deeper, inside⟩, ih, ih'⟩

/-- Behind a tree stands what is below it, and then a tree that is no deeper. -/
theorem within_drop (ordered : Ordered trees) {i : Nat} {tree : LineTree}
    (found : (within trees)[i]? = some tree) :
    ∃ rest, (within trees).drop i = tree :: (within tree.nested ++ rest) ∧
      ∀ next ∈ rest.head?, next.indent ≤ tree.indent := by
  induction ordered generalizing i with
  | nil => simp [within] at found
  | @cons line indent nested later deeper level inside behind ih ih' =>
    have beside : ∀ next ∈ (within later).head?, next.indent ≤ indent := by
      cases later with
      | nil => simp [within]
      | cons tree more =>
        obtain ⟨_, _, _⟩ := tree
        simpa [within] using level
    rw [within] at found ⊢
    cases i with
    | zero =>
      obtain rfl := Option.some.inj found
      exact ⟨within later, rfl, beside⟩
    | succ i =>
      rw [List.getElem?_cons_succ] at found
      rw [List.drop_succ_cons]
      by_cases below : i < (within nested).length
      · rw [List.getElem?_append_left below] at found
        obtain ⟨rest, split, next⟩ := ih found
        refine ⟨rest ++ within later, ?_, fun first head => ?_⟩
        · rw [List.drop_append_of_le_length (Nat.le_of_lt below), split]
          simp
        · cases rest with
          | cons other rest => exact next first head
          | nil =>
            have own := inside.within_deeper deeper tree (List.mem_of_getElem? found)
            exact (beside first head).trans (Nat.le_of_lt own)
      · have past := Nat.le_of_not_lt below
        rw [List.getElem?_append_right past] at found
        obtain ⟨rest, split, next⟩ := ih' found
        refine ⟨rest, ?_, next⟩
        rw [List.drop_append, List.drop_eq_nil_of_le past, List.nil_append, split]

end Ordered

theorem length_within (trees : List LineTree) :
    (within trees).length = (forestLines trees).length := by
  rw [← map_line_within, List.length_map]

theorem length_parents (above : Option Nat) (n : Nat) (trees : List LineTree) :
    (parents above n trees).length = (within trees).length := by
  induction trees using forest_induction generalizing above n with
  | nil => simp [parents, within]
  | cons line indent nested later inside behind => simp [parents, within, inside, behind]

/-- The parents are the nearest lines that are indented less, if that holds of `above` and all that
stands between it and the forest. -/
theorem Ordered.isNearest {trees : List LineTree} (ordered : Ordered trees) {level : Nat → Nat}
    {n : Nat} {above : Option Nat}
    (own : ∀ i tree, (within trees)[i]? = some tree → tree.indent = level (n + i))
    (smaller : ∀ j ∈ above, j < n ∧ ∀ tree ∈ trees, level j < tree.indent)
    (between : ∀ k < n, (∀ j ∈ above, j < k) → ∀ tree ∈ trees.head?, tree.indent ≤ level k)
    {i : Nat} (inside : i < (within trees).length) :
    ∃ parent, (parents above n trees)[i]? = some parent ∧ IsNearest level (n + i) parent := by
  induction ordered generalizing n above i with
  | nil => simp [within] at inside
  | @cons line indent nested later deeper level_later below behind ih ih' =>
    rw [within] at own inside
    have first : indent = level n := own 0 _ rfl
    have own_nested (i : Nat) (tree : LineTree) (found : (within nested)[i]? = some tree) :
        tree.indent = level (n + 1 + i) := by
      rw [Nat.add_assoc, Nat.add_comm 1 i]
      refine own (i + 1) tree ?_
      rw [List.getElem?_cons_succ, List.getElem?_append_left (List.getElem?_eq_some_iff.mp found).1]
      exact found
    have own_later (i : Nat) (tree : LineTree) (found : (within later)[i]? = some tree) :
        tree.indent = level (n + 1 + (within nested).length + i) := by
      rw [Nat.add_assoc n, Nat.add_assoc n]
      refine own _ tree ?_
      rw [Nat.add_assoc, Nat.add_comm 1, List.getElem?_cons_succ, List.getElem?_append_right (by omega)]
      simpa using found
    rw [parents, ← length_within]
    cases i with
    | zero =>
      refine ⟨above, rfl, fun j member => ?_, fun k early past => ?_⟩
      · obtain ⟨early, less⟩ := smaller j member
        exact ⟨early, first ▸ less _ (.head _)⟩
      · exact first ▸ between k early past _ rfl
    | succ i =>
      have number : n + (i + 1) = n + 1 + i := by omega
      rw [List.getElem?_cons_succ, number]
      by_cases under : i < (within nested).length
      · rw [List.getElem?_append_left (by rwa [length_parents])]
        refine ih own_nested ?_ ?_ under
        · rintro _ ⟨rfl⟩
          exact ⟨Nat.lt_succ_self n, fun child member => first ▸ deeper child member⟩
        · intro k early past
          have late := past n rfl
          omega
      · obtain ⟨m, rfl⟩ := Nat.exists_eq_add_of_le (Nat.le_of_not_lt under)
        rw [List.getElem?_append_right (by rw [length_parents]; omega), length_parents,
          Nat.add_sub_cancel_left, ← Nat.add_assoc]
        refine ih' own_later (fun j member => ?_) (fun k early past next head => ?_) (by simpa using inside)
        · obtain ⟨early, less⟩ := smaller j member
          exact ⟨by omega, fun tree found => less tree (.tail _ found)⟩
        · -- what stands in front of the later trees is before the line, the line, or nested under it
          have shallow := level_later next head
          obtain before | rfl | inner : k < n ∨ k = n ∨ ∃ m, k = n + 1 + m := by
            rcases Nat.lt_trichotomy k n with before | same | behind
            · exact .inl before
            · exact .inr (.inl same)
            · exact .inr (.inr (Nat.exists_eq_add_of_le behind))
          · exact shallow.trans (between k before past _ rfl)
          · exact first ▸ shallow
          · obtain ⟨m, rfl⟩ := inner
            have bound : m < (within nested).length := by omega
            have some := List.getElem?_eq_getElem bound
            have deep := below.within_deeper deeper _ (List.mem_of_getElem? some)
            rw [own_nested m _ some] at deep
            omega

/-- What is nested under a tree ends at the first line that is no deeper. -/
theorem Ordered.exists_stop {trees : List LineTree} (ordered : Ordered trees) {level : Nat → Nat}
    (own : ∀ i tree, (within trees)[i]? = some tree → tree.indent = level i) {i : Nat}
    {tree : LineTree} (found : (within trees)[i]? = some tree) :
    ∃ stop ≤ (forestLines trees).length, i < stop ∧
      tree.descendants = ((forestLines trees).take stop).drop (i + 1) ∧
      (∀ k, i < k → k < stop → level i < level k) ∧
      (stop < (forestLines trees).length → level stop ≤ level i) := by
  obtain ⟨rest, split, next⟩ := ordered.within_drop found
  have behind : (within trees).drop (i + 1) = within tree.nested ++ rest := by
    rw [← List.tail_drop, split, List.tail_cons]
  have at_behind (m : Nat) : (within trees)[i + 1 + m]? = (within tree.nested ++ rest)[m]? := by
    rw [← behind, List.getElem?_drop]
  have whole : (forestLines trees).length = i + 1 + ((within tree.nested).length + rest.length) := by
    have bound := (List.getElem?_eq_some_iff.mp found).1
    have size := congrArg List.length behind
    rw [List.length_drop, List.length_append] at size
    rw [← length_within]
    omega
  refine ⟨i + 1 + (within tree.nested).length, by omega, by omega, ?_, fun k early late => ?_,
    fun more => ?_⟩
  · have taken : ((within trees).take (i + 1 + (within tree.nested).length)).drop (i + 1) =
        within tree.nested := by
      rw [← List.take_drop, behind, List.take_left]
    have lines := congrArg (List.map line) taken
    rw [List.map_drop, List.map_take, map_line_within, map_line_within] at lines
    exact lines.symm
  · obtain ⟨m, rfl⟩ := Nat.exists_eq_add_of_le early
    have under : m < (within tree.nested).length := by omega
    have inner := at_behind m
    rw [List.getElem?_append_left under, List.getElem?_eq_getElem under] at inner
    obtain ⟨deeper, inside⟩ := ordered.nested tree (List.mem_of_getElem? found)
    rw [← own i tree found, ← own _ _ inner]
    exact inside.within_deeper deeper _ (List.getElem_mem under)
  · have last := at_behind (within tree.nested).length
    rw [List.getElem?_append_right (Nat.le_refl _), Nat.sub_self, ← List.head?_eq_getElem?] at last
    cases rest with
    | nil =>
      simp only [List.length_nil] at whole
      omega
    | cons first rest =>
      rw [← own i tree found, ← own _ first last]
      exact next first rfl

/-- What the lines are indented by, blank lines included. -/
theorem indent_ofLines (lines : List Line) : ∀ i tree, (within (ofLines lines))[i]? = some tree →
    tree.indent = level lines i := by
  induction lines with
  | nil => simp [ofLines, within]
  | cons line lines ih =>
    intro i tree found
    obtain ⟨first, head, own, trees⟩ := within_graft line (ofLines lines)
    rw [ofLines_cons, trees] at found
    cases i with
    | zero =>
      obtain rfl := Option.some.inj found
      exact ofLines_head_indent (line :: lines) first head
    | succ i => exact ih i tree found

/-- Grouped by their indents, lines are nested under the nearest line before them that is indented
less. None is lost, repeated or moved. -/
theorem nearestForest_ofLines (lines : List Line) : NearestForest lines (ofLines lines) := by
  have ordered := Ordered.ofLines lines
  have whole : forestLines (ofLines lines) = lines := forestLines_ofLines lines
  have indents := indent_ofLines lines
  refine ⟨?_, indents, fun i inside => ?_, fun tree member => (ordered.nested tree member).1,
    ⟨ordered.isChain, fun tree member => (ordered.nested tree member).2.isChain⟩,
    fun i tree found => ?_⟩
  · rw [map_line_within, whole]
  · have own : ∀ i tree, (within (ofLines lines))[i]? = some tree →
        tree.indent = level lines (0 + i) := by
      simpa using indents
    have above : ∀ j ∈ (none : Option Nat),
        j < 0 ∧ ∀ tree ∈ ofLines lines, level lines j < tree.indent := nofun
    simpa using ordered.isNearest own above nofun (by rwa [length_within, whole])
  · have stop := ordered.exists_stop indents found
    rwa [whole] at stop

end LineTree

end IndentMarkup
