import IndentMarkup.Line.Tree
import Mathlib.Data.List.Forall2

/-! How lines nest. Lines at the margin stand beside all that comes before them, blank lines
neither open nor close anything, and of the indents only their order counts. -/
namespace IndentMarkup

namespace LineTree

theorem forest_induction {motive : List LineTree → Prop} (nil : motive [])
    (cons : ∀ line indent nested later, motive nested → motive later →
      motive (⟨line, indent, nested⟩ :: later)) (trees : List LineTree) : motive trees := by
  refine @LineTree.rec_1 (fun tree => ∀ later, motive later → motive (tree :: later)) motive
    ?_ nil ?_ trees
  · exact fun line indent nested inside later behind =>
      cons line indent nested later inside behind
  · exact fun tree later here behind => here later behind

/-- The trees of a forest at any depth, in the order of their lines. -/
def within : List LineTree → List LineTree
  | [] => []
  | ⟨line, indent, nested⟩ :: later =>
    ⟨line, indent, nested⟩ :: (within nested ++ within later)

mutual

def solidTree : LineTree → List LineTree
  | ⟨line, indent, nested⟩ => if line.isBlank then [] else [⟨line, indent, solid nested⟩]

/-- The forest without its blank lines. -/
def solid : List LineTree → List LineTree
  | [] => []
  | tree :: later => tree.solidTree ++ solid later

end

theorem solid_cons (line : Line) (indent : Nat) (nested later : List LineTree) :
    solid (⟨line, indent, nested⟩ :: later) =
      if line.isBlank then solid later else ⟨line, indent, solid nested⟩ :: solid later := by
  rw [solid, solidTree]
  split <;> rfl

theorem ofLines_cons (line : Line) (lines : List Line) :
    ofLines (line :: lines) = graft line (ofLines lines) :=
  rfl

theorem ofLines_append (first second : List Line) :
    ofLines (first ++ second) = first.foldr graft (ofLines second) :=
  List.foldr_append

/-- No tree is deeper than a first one at the margin. -/
theorem takeWhile_append_flush (trees : List LineTree) {later : List LineTree}
    (flush : ∀ tree ∈ later.head?, tree.indent = 0) (width : Nat) :
    (trees ++ later).takeWhile (width < ·.indent) = trees.takeWhile (width < ·.indent) ∧
      (trees ++ later).dropWhile (width < ·.indent) =
        trees.dropWhile (width < ·.indent) ++ later := by
  induction trees with
  | nil =>
    cases later with
    | nil => exact ⟨rfl, rfl⟩
    | cons tree more => simp [flush tree rfl]
  | cons tree trees ih =>
    by_cases deeper : width < tree.indent
    · simp [deeper, ih]
    · simp [deeper]

theorem graft_append_flush (line : Line) (trees : List LineTree) {later : List LineTree}
    (flush : ∀ tree ∈ later.head?, tree.indent = 0) :
    graft line (trees ++ later) = graft line trees ++ later := by
  have indent : indentBefore line (trees ++ later) = indentBefore line trees := by
    cases trees with
    | nil =>
      cases later with
      | nil => rfl
      | cons tree more => simp [indentBefore, flush tree rfl]
    | cons tree more => rfl
  obtain ⟨taken, left⟩ := takeWhile_append_flush trees flush (indentBefore line trees)
  rw [graft, graft, indent, taken, left, List.cons_append]

/-- Lines of which the first is at the margin are grouped by themselves. -/
theorem ofLines_append_flush (lines : List Line) {more : List Line}
    (flush : ∀ tree ∈ (ofLines more).head?, tree.indent = 0) :
    ofLines (lines ++ more) = ofLines lines ++ ofLines more := by
  rw [ofLines_append]
  induction lines with
  | nil => rfl
  | cons line lines ih => rw [List.foldr_cons, ih, graft_append_flush line _ flush, ofLines_cons]

/-- Every blank line is indented like the tree behind it. -/
def Settled : List LineTree → Prop
  | [] => True
  | tree :: later =>
    (tree.isBlank = true → tree.indent = (later.head?.map indent).getD 0) ∧ Settled later

theorem Settled.dropWhile {trees : List LineTree} (settled : Settled trees)
    (p : LineTree → Bool) : Settled (trees.dropWhile p) := by
  induction trees with
  | nil => exact settled
  | cons tree later ih =>
    rw [List.dropWhile_cons]
    split
    · exact ih settled.2
    · exact settled

/-- A blank line has no lines of its own. -/
theorem graft_blank {line : Line} (blank : line.isBlank = true) (later : List LineTree) :
    graft line later = ⟨line, (later.head?.map indent).getD 0, []⟩ :: later := by
  have indent : indentBefore line later = (later.head?.map indent).getD 0 := by
    rw [indentBefore, if_pos blank]
  rw [graft, indent]
  cases later <;> simp

theorem settled_ofLines (lines : List Line) : Settled (ofLines lines) := by
  induction lines with
  | nil => trivial
  | cons line lines ih =>
    rw [ofLines_cons]
    by_cases blank : line.isBlank = true
    · rw [graft_blank blank]
      exact ⟨fun _ => rfl, ih⟩
    · exact ⟨fun own => absurd own blank, ih.dropWhile _⟩

/-- The first line that is not blank is indented like the blank ones before it. -/
theorem Settled.head_solid {trees : List LineTree} (settled : Settled trees) :
    ∀ tree ∈ (solid trees).head?, some tree.indent = trees.head?.map indent := by
  induction trees with
  | nil => simp [solid]
  | cons tree later ih =>
    obtain ⟨line, indent, nested⟩ := tree
    rw [solid_cons]
    split
    next blank =>
      intro first head
      have same := ih settled.2 first head
      have own : indent = (later.head?.map LineTree.indent).getD 0 := settled.1 blank
      rw [own, ← same]
      simp
    next => simp

theorem Settled.solid_takeWhile {trees : List LineTree} (settled : Settled trees) (width : Nat) :
    solid (trees.takeWhile (width < ·.indent)) = (solid trees).takeWhile (width < ·.indent) ∧
      solid (trees.dropWhile (width < ·.indent)) =
        (solid trees).dropWhile (width < ·.indent) := by
  induction trees with
  | nil => simp [solid]
  | cons tree later ih =>
    obtain ⟨line, indent, nested⟩ := tree
    obtain ⟨taken, left⟩ := ih settled.2
    by_cases deeper : width < indent
    · by_cases blank : line.isBlank = true
      · simp [solid_cons, deeper, blank, taken, left]
      · simp [solid_cons, deeper, blank, taken, left]
    · have stays : ∀ tree ∈ (solid (⟨line, indent, nested⟩ :: later)).head?,
          ¬ width < tree.indent := by
        intro first head
        have same := settled.head_solid first head
        simp only [List.head?_cons, Option.map_some, Option.some.injEq] at same
        rwa [same]
      simp only [List.takeWhile_cons, List.dropWhile_cons, deeper, decide_false,
        Bool.false_eq_true, if_false]
      cases found : solid (⟨line, indent, nested⟩ :: later) with
      | nil => simp [solid]
      | cons first more =>
        have shallow := stays first (by rw [found]; rfl)
        simp [solid, shallow]

/-- Blank lines may be left out before or after the lines are grouped. -/
theorem ofLines_filter (lines : List Line) :
    ofLines (lines.filter (!·.isBlank)) = solid (ofLines lines) := by
  induction lines with
  | nil => simp [ofLines, solid]
  | cons line lines ih =>
    by_cases blank : line.isBlank = true
    · rw [List.filter_cons_of_neg (by simp [blank]), ih, ofLines_cons, graft_blank blank,
        solid_cons, if_pos blank]
    · have indent (later : List LineTree) : indentBefore line later = line.indent :=
        if_neg blank
      obtain ⟨taken, left⟩ := (settled_ofLines lines).solid_takeWhile line.indent
      rw [List.filter_cons_of_pos (by simp [blank]), ofLines_cons, ofLines_cons, ih, graft, graft,
        indent, indent, solid_cons, if_neg blank, taken, left]

theorem blank_of_solid_eq_nil {trees : List LineTree} (nothing : solid trees = []) :
    ∀ tree ∈ trees, tree.isBlank = true := by
  induction trees with
  | nil => simp
  | cons tree later ih =>
    obtain ⟨line, indent, nested⟩ := tree
    rw [solid_cons] at nothing
    split at nothing
    next blank =>
      intro tree member
      rcases List.mem_cons.mp member with rfl | member
      · exact blank
      · exact ih nothing tree member
    next => contradiction

theorem within_append (first second : List LineTree) :
    within (first ++ second) = within first ++ within second := by
  induction first with
  | nil => simp [within]
  | cons tree trees ih =>
    obtain ⟨line, indent, nested⟩ := tree
    simp [within, ih]

/-- The trees of a forest have the numbers of their lines. -/
theorem map_line_within (trees : List LineTree) :
    (within trees).map LineTree.line = forestLines trees := by
  induction trees using forest_induction with
  | nil => simp [within, forestLines]
  | cons line indent nested later inside behind =>
    simp [within, forestLines, lines, inside, behind]

theorem within_graft (line : Line) (trees : List LineTree) :
    ∃ tree, (graft line trees).head? = some tree ∧ tree.line = line ∧
      within (graft line trees) = tree :: within trees := by
  refine ⟨_, rfl, rfl, ?_⟩
  rw [graft, within, ← within_append, List.takeWhile_append_dropWhile]

/-- Blank lines are not deeper than all that stands behind them. -/
theorem Settled.takeWhile_eq_nil {trees : List LineTree} (settled : Settled trees) {width : Nat}
    (nothing : solid (trees.takeWhile (width < ·.indent)) = []) :
    trees.takeWhile (width < ·.indent) = [] := by
  induction trees with
  | nil => rfl
  | cons tree later ih =>
    by_cases deeper : width < tree.indent
    · rw [List.takeWhile_cons_of_pos (by simpa using deeper)] at nothing
      obtain ⟨line, indent, nested⟩ := tree
      have blank : line.isBlank = true := blank_of_solid_eq_nil nothing _ (.head _)
      rw [solid_cons, if_pos blank] at nothing
      have behind := ih settled.2 nothing
      have same : indent = (later.head?.map LineTree.indent).getD 0 := settled.1 blank
      cases later with
      | nil =>
        rw [same] at deeper
        exact absurd deeper (Nat.not_lt_zero width)
      | cons next more =>
        have deep : width < next.indent := by simpa [same] using deeper
        simp [deep] at behind
    · exact List.takeWhile_cons_of_neg (by simpa using deeper)

/-- So no line has just blank lines nested under it. -/
theorem nested_eq_nil_of_solid {lines : List Line} {tree : LineTree}
    (member : tree ∈ within (ofLines lines)) (nothing : solid tree.nested = []) :
    tree.nested = [] := by
  induction lines with
  | nil => simp [ofLines, within] at member
  | cons line lines ih =>
    rw [ofLines_cons, graft, within, ← within_append, List.takeWhile_append_dropWhile] at member
    rcases List.mem_cons.mp member with rfl | later
    · exact (settled_ofLines lines).takeWhile_eq_nil nothing
    · exact ih later

/-- No line is nested under a blank one. -/
theorem nested_eq_nil_of_blank {lines : List Line} {tree : LineTree}
    (member : tree ∈ within (ofLines lines)) (blank : tree.isBlank = true) :
    tree.nested = [] := by
  induction lines with
  | nil => simp [ofLines, within] at member
  | cons line lines ih =>
    obtain ⟨first, head, own, trees⟩ := within_graft line (ofLines lines)
    rw [ofLines_cons, trees] at member
    rcases List.mem_cons.mp member with rfl | later
    · have nothing : line.isBlank = true := own ▸ blank
      rw [graft_blank nothing, List.head?_cons] at head
      rw [← Option.some.inj head]
    · exact ih later

/-- Of the trees in front that are deeper, the first ones may be deeper still. -/
theorem takeWhile_takeWhile_deeper (trees : List LineTree) {width own : Nat} (deeper : width < own) :
    (trees.takeWhile (width < ·.indent)).takeWhile (own < ·.indent) =
        trees.takeWhile (own < ·.indent) ∧
      (trees.takeWhile (width < ·.indent)).dropWhile (own < ·.indent) =
        (trees.dropWhile (own < ·.indent)).takeWhile (width < ·.indent) := by
  induction trees with
  | nil => simp
  | cons tree later ih =>
    by_cases deep : own < tree.indent
    · have shallow : width < tree.indent := Nat.lt_trans deeper deep
      simp [deep, shallow, ih]
    · by_cases shallow : width < tree.indent <;> simp [deep, shallow]

theorem takeWhile_graft (line : Line) (trees : List LineTree) {width : Nat}
    (deeper : width < indentBefore line trees) :
    (graft line trees).takeWhile (width < ·.indent) =
      graft line (trees.takeWhile (width < ·.indent)) := by
  have same : indentBefore line (trees.takeWhile (width < ·.indent)) = indentBefore line trees := by
    cases trees with
    | nil => rfl
    | cons tree later =>
      by_cases blank : line.isBlank = true
      · have deep : width < tree.indent := by simpa [indentBefore, blank] using deeper
        simp [indentBefore, deep]
      · simp [indentBefore, blank]
  obtain ⟨inner, outer⟩ := takeWhile_takeWhile_deeper trees deeper
  rw [graft, graft, same, inner, outer, List.takeWhile_cons_of_pos (by simpa using deeper)]

/-- The deeper trees in front are grouped alike by themselves. -/
theorem ofLines_forestLines_takeWhile (lines : List Line) (width : Nat) :
    ofLines (forestLines ((ofLines lines).takeWhile (width < ·.indent))) =
      (ofLines lines).takeWhile (width < ·.indent) := by
  induction lines with
  | nil => rfl
  | cons line lines ih =>
    rw [ofLines_cons]
    by_cases deeper : width < indentBefore line (ofLines lines)
    · rw [takeWhile_graft line _ deeper, forestLines_graft, ofLines_cons, ih]
    · rw [graft, List.takeWhile_cons_of_neg (by simpa using deeper)]
      rfl

/-- What is nested under a line is grouped as if it stood alone. -/
theorem ofLines_descendants {lines : List Line} {tree : LineTree}
    (member : tree ∈ within (ofLines lines)) : ofLines tree.descendants = tree.nested := by
  induction lines with
  | nil => simp [ofLines, within] at member
  | cons line lines ih =>
    rw [ofLines_cons, graft, within, ← within_append, List.takeWhile_append_dropWhile] at member
    rcases List.mem_cons.mp member with rfl | later
    · exact ofLines_forestLines_takeWhile lines _
    · exact ih later

/-- The trees that are left without the blank lines have lost nothing but blank lines. -/
theorem exists_of_mem_solid {trees : List LineTree} {tree : LineTree}
    (member : tree ∈ within (solid trees)) :
    ∃ whole ∈ within trees, tree.line = whole.line ∧ tree.nested = solid whole.nested := by
  induction trees using forest_induction with
  | nil => simp [solid, within] at member
  | cons line indent nested later inside behind =>
    rw [within]
    rw [solid_cons] at member
    split at member
    · obtain ⟨whole, found, same⟩ := behind member
      exact ⟨whole, .tail _ (List.mem_append_right _ found), same⟩
    · rw [within, List.mem_cons, List.mem_append] at member
      rcases member with rfl | below | beside
      · exact ⟨_, .head _, rfl, rfl⟩
      · obtain ⟨whole, found, same⟩ := inside below
        exact ⟨whole, .tail _ (List.mem_append_left _ found), same⟩
      · obtain ⟨whole, found, same⟩ := behind beside
        exact ⟨whole, .tail _ (List.mem_append_right _ found), same⟩

/-- Two forests of one shape, whose lines and indents are related one by one. -/
inductive Parallel (R : Line → Line → Prop) (I : Nat → Nat → Prop) :
    List LineTree → List LineTree → Prop where
  | nil : Parallel R I [] []
  | cons {line line' : Line} {indent indent' : Nat} {nested nested' later later' : List LineTree}
      (same : R line line') (level : I indent indent') (inside : Parallel R I nested nested')
      (behind : Parallel R I later later') :
      Parallel R I (⟨line, indent, nested⟩ :: later) (⟨line', indent', nested'⟩ :: later')

/-- Related indents are ordered alike. -/
def SameOrder (I : Nat → Nat → Prop) : Prop :=
  ∀ ⦃m m' n n'⦄, I m m' → I n n' → (m < n ↔ m' < n')

namespace Parallel

variable {R : Line → Line → Prop} {I : Nat → Nat → Prop} {trees trees' : List LineTree}

theorem takeWhile (order : SameOrder I) {width width' : Nat} (level : I width width')
    (parallel : Parallel R I trees trees') :
    Parallel R I (trees.takeWhile (width < ·.indent)) (trees'.takeWhile (width' < ·.indent)) ∧
      Parallel R I (trees.dropWhile (width < ·.indent))
        (trees'.dropWhile (width' < ·.indent)) := by
  induction parallel with
  | nil => exact ⟨.nil, .nil⟩
  | @cons line line' indent indent' _ _ _ _ same own inside behind _ ih =>
    have deeper := order level own
    by_cases shallow : width < indent
    · simpa [shallow, ← deeper] using And.intro (Parallel.cons same own inside ih.1) ih.2
    · simpa [shallow, ← deeper] using And.intro Parallel.nil (Parallel.cons same own inside behind)

theorem indentBefore {line line' : Line} (blank : line.isBlank = line'.isBlank)
    (own : I (indentBefore line []) (LineTree.indentBefore line' []))
    (parallel : Parallel R I trees trees') :
    I (LineTree.indentBefore line trees) (LineTree.indentBefore line' trees') := by
  by_cases solid : line.isBlank = true
  · cases parallel with
    | nil => exact own
    | cons _ level => simpa [LineTree.indentBefore, ← blank, solid] using level
  · simpa [LineTree.indentBefore, ← blank, solid] using own

theorem graft (order : SameOrder I) {line line' : Line} (same : R line line')
    (blank : line.isBlank = line'.isBlank)
    (own : I (LineTree.indentBefore line []) (LineTree.indentBefore line' []))
    (parallel : Parallel R I trees trees') :
    Parallel R I (graft line trees) (LineTree.graft line' trees') := by
  have level := parallel.indentBefore blank own
  obtain ⟨inside, behind⟩ := parallel.takeWhile order level
  exact .cons same level inside behind

/-- Lines that are indented in the same order make forests of the same shape. -/
theorem ofLines (order : SameOrder I)
    (kept : ∀ ⦃line line'⦄, R line line' → line.isBlank = line'.isBlank ∧
      I (LineTree.indentBefore line []) (LineTree.indentBefore line' []))
    {lines lines' : List Line} (paired : List.Forall₂ R lines lines') :
    Parallel R I (ofLines lines) (LineTree.ofLines lines') := by
  induction paired with
  | nil => exact .nil
  | cons same _ ih => exact ih.graft order same (kept same).1 (kept same).2

/-- Every tree of the one has its like in the other. -/
theorem exists_of_mem (parallel : Parallel R I trees trees') {tree' : LineTree}
    (member : tree' ∈ within trees') :
    ∃ tree ∈ within trees, R tree.line tree'.line ∧ Parallel R I tree.nested tree'.nested := by
  induction parallel with
  | nil => simp [within] at member
  | cons same level below beside inside behind =>
    rw [within]
    rw [within, List.mem_cons, List.mem_append] at member
    rcases member with rfl | member | member
    · exact ⟨_, .head _, same, below⟩
    · obtain ⟨tree, found, like⟩ := inside member
      exact ⟨tree, .tail _ (List.mem_append_left _ found), like⟩
    · obtain ⟨tree, found, like⟩ := behind member
      exact ⟨tree, .tail _ (List.mem_append_right _ found), like⟩

theorem forestLines (parallel : Parallel R I trees trees') :
    List.Forall₂ R (forestLines trees) (LineTree.forestLines trees') := by
  induction parallel with
  | nil => exact .nil
  | cons same _ _ _ inside behind =>
    simp only [LineTree.forestLines, LineTree.lines, List.cons_append]
    exact .cons same (List.rel_append inside behind)

end Parallel

end LineTree

end IndentMarkup
