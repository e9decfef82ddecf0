import IndentMarkup.Proofs.Statement.WholeLine
import IndentMarkup.Proofs.Template.Body

/-! Blank lines that are taken out. They have no lines of their own and no line is nested elsewhere
without them, so the elements stay the same, unless a blank line is part of a text that some line
above it keeps. -/
namespace IndentMarkup

/-- The line begins a comment, or it ends in a block marker. -/
def Line.keepsText (line : Line) : Bool :=
  line.skipSpace.startsWithAny [.symbol .comment, .symbol .silentComment] || line.endsInBlock

/-- What holds text is a comment, or it stands in front of a block marker and of what is left. -/
def Statement.Marked (line : Line) (result : Statement × Line) : Prop :=
  result.1.holdsText = true →
    line.startsWithAny [.symbol .comment, .symbol .silentComment] = true ∨
      line.BehindMarker result.2

variable {source : Text} {whole line : Line}

theorem Statement.read_marked (source : Text) (line : Line) :
    Meets (fun _ => True) (Marked line) (read source line) := by
  refine (read_leaves source line).imp (fun _ _ => trivial) fun result leaves holds => ?_
  cases leaves with
  | tag leaves => exact .inr (leaves.text holds)
  | comment starts => exact .inl starts
  | piped | marker | condition => exact absurd holds Bool.false_ne_true

/-- So a line keeps text if its statement holds any. -/
theorem Line.keepsText_of_holdsText (holds : line.holdsText source = true) :
    line.keepsText = true := by
  rw [Line.keepsText, Bool.or_eq_true]
  have marked := Statement.read_marked source line.skipSpace
  unfold Line.holdsText Statement.ofLine at holds
  generalize Statement.read source line.skipSpace = result at marked holds
  cases marked with
  | error => contradiction
  | @ok value marked =>
    obtain ⟨statement, left⟩ := value
    cases left with
    | cons t left => contradiction
    | nil =>
      exact (marked holds).imp id fun behind => (behind.mono line.skipSpace_suffix).endsInBlock

namespace LineTree

/-- The second forest is the first one without some of its blank lines, which have the given
numbers when the lines are counted from `n` on. A line that keeps text loses none below it. -/
inductive Thinned (removed : Nat → Bool) : Nat → List LineTree → List LineTree → Prop where
  | nil (n : Nat) : Thinned removed n [] []
  | drop {n : Nat} {line : Line} {indent : Nat} {later later' : List LineTree}
      (gone : removed n = true) (blank : line.isBlank = true)
      (behind : Thinned removed (n + 1) later later') :
      Thinned removed n (⟨line, indent, []⟩ :: later) later'
  | cons {n : Nat} {line : Line} {indent : Nat} {nested nested' later later' : List LineTree}
      (inside : Thinned removed (n + 1) nested nested')
      (text : line.keepsText = true → nested = nested')
      (behind : Thinned removed (n + 1 + (forestLines nested).length) later later') :
      Thinned removed n (⟨line, indent, nested⟩ :: later) (⟨line, indent, nested'⟩ :: later')

theorem length_forestLines_cons (line : Line) (indent : Nat) (nested later : List LineTree) :
    (forestLines (⟨line, indent, nested⟩ :: later)).length =
      1 + (forestLines nested).length + (forestLines later).length := by
  simp only [forestLines, lines, List.length_append, List.length_cons]
  omega

/-- The two forests are thinned in each of the two parts that they are cut into. -/
def ThinnedApart (removed : Nat → Bool) (n : Nat) (deeper : LineTree → Bool)
    (trees trees' : List LineTree) : Prop :=
  Thinned removed n (trees.takeWhile deeper) (trees'.takeWhile deeper) ∧
    Thinned removed (n + (forestLines (trees.takeWhile deeper)).length) (trees.dropWhile deeper)
      (trees'.dropWhile deeper)

namespace Thinned

variable {removed : Nat → Bool} {n : Nat} {trees trees' : List LineTree}

/-- Where no line has such a number, nothing is missing. -/
theorem eq (thinned : Thinned removed n trees trees')
    (stay : ∀ i, n ≤ i → i < n + (forestLines trees).length → removed i = false) :
    trees = trees' := by
  induction thinned with
  | nil => rfl
  | @drop n line indent later later' gone =>
    have kept := stay n (Nat.le_refl n) (by rw [length_forestLines_cons]; omega)
    rw [gone] at kept
    contradiction
  | @cons n line indent nested nested' later later' inside text behind below beside =>
    rw [length_forestLines_cons] at stay
    rw [below fun i lower upper => stay i (by omega) (by omega),
      beside fun i lower upper => stay i (by omega) (by omega)]

/-- The lines in front of a blank one that is left out count as indented as before. -/
theorem head_indent (thinned : Thinned removed n trees trees') (settled : Settled trees) :
    (trees.head?.map indent).getD 0 = (trees'.head?.map indent).getD 0 := by
  induction thinned with
  | nil => rfl
  | drop gone blank behind ih => exact (settled.1 blank).trans (ih settled.2)
  | cons => rfl

theorem apart_of_shallow (thinned : Thinned removed n trees trees') (settled : Settled trees)
    {width : Nat} (shallow : ¬ width < (trees.head?.map indent).getD 0) :
    ThinnedApart removed n (width < ·.indent) trees trees' := by
  have none (trees : List LineTree) (shallow : ¬ width < (trees.head?.map indent).getD 0) :
      trees.takeWhile (width < ·.indent) = [] ∧ trees.dropWhile (width < ·.indent) = trees := by
    cases trees with
    | nil => exact ⟨rfl, rfl⟩
    | cons tree later =>
      have own : ¬ width < tree.indent := by simpa using shallow
      simp [own]
  obtain ⟨taken, left⟩ := none trees shallow
  obtain ⟨taken', left'⟩ := none trees' (thinned.head_indent settled ▸ shallow)
  rw [ThinnedApart, taken, left, taken', left']
  exact ⟨.nil n, thinned⟩

/-- A blank line is as deep as the line behind it, so it is taken if that line is. -/
theorem apart (thinned : Thinned removed n trees trees') (settled : Settled trees) (width : Nat) :
    ThinnedApart removed n (width < ·.indent) trees trees' := by
  induction thinned with
  | nil n => exact ⟨.nil n, .nil _⟩
  | @drop n line indent later later' gone blank behind ih =>
    by_cases deeper : width < indent
    · obtain ⟨taken, left⟩ := ih settled.2
      rw [ThinnedApart, List.takeWhile_cons_of_pos (by simpa using deeper),
        List.dropWhile_cons_of_pos (by simpa using deeper), length_forestLines_cons]
      exact ⟨.drop gone blank taken, by simpa [forestLines, Nat.add_assoc] using left⟩
    · exact (drop gone blank behind).apart_of_shallow settled (by simpa using deeper)
  | @cons n line indent nested nested' later later' inside text behind below beside =>
    by_cases deeper : width < indent
    · obtain ⟨taken, left⟩ := beside settled.2
      simp only [ThinnedApart, List.takeWhile_cons, List.dropWhile_cons, deeper, decide_true,
        if_true, length_forestLines_cons]
      exact ⟨.cons inside text taken, by simpa only [Nat.add_assoc] using left⟩
    · exact (cons inside text behind).apart_of_shallow settled (by simpa using deeper)

/-- A line is put in front of both forests. -/
theorem graft (thinned : Thinned removed (n + 1) trees trees') (settled : Settled trees)
    (line : Line)
    (free : line.keepsText = true → ∀ tree ∈ (LineTree.graft line trees).head?,
      ∀ i, n < i → i ≤ n + tree.descendants.length → removed i = false) :
    Thinned removed n (LineTree.graft line trees) (LineTree.graft line trees') := by
  have level : indentBefore line trees = indentBefore line trees' := by
    rw [indentBefore, indentBefore, thinned.head_indent settled]
  obtain ⟨taken, left⟩ := thinned.apart settled (indentBefore line trees)
  rw [LineTree.graft, LineTree.graft, ← level]
  refine .cons taken (fun keeps => taken.eq fun i lower upper => ?_) left
  exact free keeps _ rfl i (by omega) (Nat.le_of_lt_succ (by rwa [Nat.add_right_comm] at upper))

/-- The same line is the first that is not blank, so an `else` is found where it was. -/
theorem sameLevel (thinned : Thinned removed n trees trees') (indent : Nat) :
    SameLevel indent indent trees trees' := by
  induction thinned with
  | nil => nofun
  | drop gone blank behind ih => simpa [SameLevel, isBlank, blank] using ih
  | @cons n line own nested nested' later later' inside text behind below beside =>
    by_cases blank : line.isBlank = true
    · simpa [SameLevel, isBlank, blank] using beside
    · simp [SameLevel, isBlank, blank]

theorem similar (thinned : Thinned removed n trees trees') :
    Similar Eq source source trees trees' := by
  induction thinned with
  | nil => exact .nil
  | drop gone blank behind ih => exact .skipLeft blank ih
  | @cons n line indent nested nested' later later' inside text behind below beside =>
    by_cases blank : line.isBlank = true
    · exact .skipLeft blank (.skipRight blank beside)
    · have solid : line.isBlank = false := by simpa using blank
      refine .cons solid solid (.refl source _) below (fun holds => ?_) (behind.sameLevel indent)
        beside
      rw [text (Line.keepsText_of_holdsText holds)]

end Thinned

/-- The line with that number is nested under the tree, which is one of the forest. -/
def Above (trees : List LineTree) (i : Nat) (tree : LineTree) : Prop :=
  ∃ j, (within trees)[j]? = some tree ∧ j < i ∧ i ≤ j + tree.descendants.length

/-- The lines without those that have the given numbers. -/
def without (removed : Nat → Bool) (lines : List Line) : List Line :=
  (lines.zipIdx.filter (!removed ·.2)).map Prod.fst

/-- The lines with the given numbers are blank, and none of them is nested under a line that keeps
text. -/
structure Removable (removed : Nat → Bool) (lines : List Line) : Prop where
  blank : ∀ i line, lines[i]? = some line → removed i = true → line.isBlank = true
  free : ∀ i tree, removed i = true → Above (ofLines lines) i tree → tree.line.keepsText = false

theorem removable_iff (removed : Nat → Bool) (lines : List Line) : Removable removed lines ↔
    (lines.zipIdx.all (fun (line, i) => !removed i || line.isBlank) &&
      (within (ofLines lines)).zipIdx.all fun (tree, j) => !tree.line.keepsText ||
        (List.range tree.descendants.length).all fun k => !removed (j + 1 + k)) = true := by
  rw [Bool.and_eq_true, List.all_eq_true, List.all_eq_true]
  constructor
  · rintro ⟨blank, free⟩
    constructor
    · rintro ⟨line, i⟩ member
      have own := blank i line (List.mem_zipIdx_iff_getElem?.mp member)
      cases gone : removed i <;> simp_all
    · rintro ⟨tree, j⟩ member
      have found := List.mem_zipIdx_iff_getElem?.mp member
      simp only [Bool.or_eq_true, Bool.not_eq_true', List.all_eq_true, List.mem_range]
      refine or_iff_not_imp_left.mpr fun keeps k upper => Bool.eq_false_iff.mpr fun gone => ?_
      exact keeps (free (j + 1 + k) tree gone ⟨j, found, by omega, by omega⟩)
  · rintro ⟨blank, free⟩
    constructor
    · intro i line found gone
      simpa [gone] using blank ⟨line, i⟩ (List.mem_zipIdx_iff_getElem?.mpr found)
    · rintro i tree gone ⟨j, found, lower, upper⟩
      obtain ⟨k, rfl⟩ := Nat.exists_eq_add_of_le lower
      have stays := free ⟨tree, j⟩ (List.mem_zipIdx_iff_getElem?.mpr found)
      simp only [Bool.or_eq_true, Bool.not_eq_true', List.all_eq_true, List.mem_range] at stays
      refine stays.resolve_right fun kept => ?_
      exact Bool.false_ne_true ((kept k (by omega)).symm.trans gone)

theorem Removable.tail {removed : Nat → Bool} {n : Nat} {line : Line} {lines : List Line}
    (removable : Removable (fun i => removed (n + i)) (line :: lines)) :
    Removable (fun i => removed (n + 1 + i)) lines := by
  have shift (i : Nat) : n + 1 + i = n + (i + 1) := by omega
  obtain ⟨tree, -, -, trees⟩ := within_graft line (ofLines lines)
  constructor
  · intro i other found gone
    exact removable.blank (i + 1) other found (by rwa [shift] at gone)
  · rintro i other gone ⟨j, found, lower, upper⟩
    refine removable.free (i + 1) other (by rwa [shift] at gone) ⟨j + 1, ?_, by omega, by omega⟩
    rw [ofLines_cons, trees]
    exact found

theorem Removable.thinned {removed : Nat → Bool} {n : Nat} {lines : List Line}
    (removable : Removable (fun i => removed (n + i)) lines) :
    Thinned removed n (ofLines lines)
      (ofLines (((lines.zipIdx n).filter (!removed ·.2)).map Prod.fst)) := by
  induction lines generalizing n with
  | nil => exact .nil n
  | cons line lines ih =>
    have later := ih removable.tail
    rw [ofLines_cons, List.zipIdx_cons]
    cases gone : removed n with
    | true =>
      have nothing := removable.blank 0 line rfl gone
      rw [List.filter_cons_of_neg (by simp [gone]), graft_blank nothing]
      exact .drop gone nothing later
    | false =>
      rw [List.filter_cons_of_pos (by simp [gone]), List.map_cons, ofLines_cons]
      refine later.graft (settled_ofLines lines) line fun keeps tree head i lower upper => ?_
      obtain ⟨first, same, own, trees⟩ := within_graft line (ofLines lines)
      obtain rfl : first = tree := Option.some.inj (same.symm.trans head)
      obtain ⟨k, rfl⟩ := Nat.exists_eq_add_of_lt lower
      refine Bool.eq_false_iff.mpr fun taken => ?_
      have bare := removable.free (k + 1) first taken
        ⟨0, by rw [ofLines_cons, trees]; rfl, by omega, by omega⟩
      rw [own, keeps] at bare
      contradiction

/-- Blank lines can be taken out of the lines of a template, whichever they are and however many,
as long as none of them is nested under a line that keeps text: the elements are the same, and so
is the error. No line is nested under a blank one. -/
theorem elements_without_blanks (source : Text) (lines : List Line) :
    (∀ removed : Nat → Bool, Removable removed lines →
      elements source none (ofLines (without removed lines)) =
        elements source none (ofLines lines)) ∧
    ∀ tree ∈ within (ofLines lines), tree.isBlank = true → tree.nested = [] := by
  refine ⟨fun removed removable => ?_, fun tree => nested_eq_nil_of_blank⟩
  have whole : Removable (fun i => removed (0 + i)) lines := by simpa using removable
  have similar : Similar Eq source source (ofLines lines) (ofLines (without removed lines)) :=
    whole.thinned.similar
  exact (similar.elements_agree .closed).eq.symm

/-- Between an `if` and its `else` blank lines may go, but not in front of the text of a block. -/
theorem elements_without_blanks_else :
    elements "if a\n\n  p\n \nelse\n  b.\n\n    x\n".toList none
      (ofLines (without (fun i => i = 1 || i = 3)
        (Template.linesOf "if a\n\n  p\n \nelse\n  b.\n\n    x\n".toList))) =
      .ok [.conditional ['a'] [.tag { name := ['p'] } none []]
        [.tag { name := ['b'] } (some (.text ['\n', 'x'])) []]] := by
  have removable : Removable (fun i => i = 1 || i = 3)
      (Template.linesOf "if a\n\n  p\n \nelse\n  b.\n\n    x\n".toList) :=
    (removable_iff _ _).mpr (by cbv)
  rw [(elements_without_blanks _ _).1 _ removable]
  cbv

end LineTree

end IndentMarkup
