import IndentMarkup.Line.Tree
import Mathlib.Data.List.TakeWhile

/-!
# Grouping lines in place

The indents of all lines are taken first, from the last line to the first. Then the lines
are collected from one position that goes on through all of them: a line collects the
deeper ones behind it, and its siblings are collected from where those end.
-/

namespace IndentMarkup.LineTree

/-- The indent of the next line that is not blank, and the indents of all lines. -/
def groupingIndents : List Line → Nat × List Nat
  | [] => (0, [])
  | line :: later =>
    let (next, indents) := groupingIndents later
    let next := if line.isBlank then next else line.indent
    (next, next :: indents)

/-- Collects trees up to the first line that is not deeper than the baseline, and returns
where that is. -/
def collect (lines : List Line) (indents : List Nat) (pos : Nat) (baseline : Option Nat) :
    List LineTree × {stop : Nat // pos ≤ stop} :=
  if inside : pos < lines.length then
    let indent := indents.getD pos 0
    if baseline.any (indent ≤ ·) then ([], ⟨pos, Nat.le_refl pos⟩)
    else
      let (nested, ⟨behind, _⟩) := collect lines indents (pos + 1) (some indent)
      let (later, ⟨stop, _⟩) := collect lines indents behind baseline
      (⟨lines[pos], indent, nested⟩ :: later, ⟨stop, by omega⟩)
  else ([], ⟨pos, Nat.le_refl pos⟩)
termination_by lines.length - pos

def collectAll (lines : List Line) : List LineTree :=
  (collect lines (groupingIndents lines).2 0 none).1

theorem groupingIndents_eq (lines : List Line) :
    (groupingIndents lines).1 = ((ofLines lines).head?.map indent).getD 0 := by
  induction lines with
  | nil => rfl
  | cons line later ih =>
    have first : ofLines (line :: later) = graft line (ofLines later) := rfl
    simp only [groupingIndents, ih, first, graft, List.head?_cons, Option.map_some, Option.getD_some]
    rfl

theorem groupingIndents_drop (lines : List Line) (pos : Nat) :
    (groupingIndents lines).2.drop pos = (groupingIndents (lines.drop pos)).2 := by
  induction lines generalizing pos with
  | nil => simp [groupingIndents]
  | cons line later ih =>
    cases pos with
    | zero => rfl
    | succ pos => exact ih pos

/-- The indent that is looked up for a line is the one that counts in front of those behind it. -/
theorem groupingIndents_getD {lines : List Line} {pos : Nat} (inside : pos < lines.length) :
    (groupingIndents lines).2.getD pos 0 =
      indentBefore lines[pos] (ofLines (lines.drop (pos + 1))) := by
  have rest := groupingIndents_drop lines pos
  rw [List.drop_eq_getElem_cons inside] at rest
  have first : ((groupingIndents lines).2.drop pos).head? =
      some (indentBefore lines[pos] (ofLines (lines.drop (pos + 1)))) := by
    rw [rest, groupingIndents]
    simp only [groupingIndents_eq, List.head?_cons]
    rfl
  rw [List.head?_drop] at first
  simp [List.getD_eq_getElem?_getD, first]

/-- Nothing at the root is too shallow. -/
def isDeeper (baseline : Option Nat) (tree : LineTree) : Bool :=
  !baseline.any (tree.indent ≤ ·)

theorem isDeeper_some (width : Nat) :
    isDeeper (some width) = fun tree => decide (width < tree.indent) := by
  funext tree
  rw [isDeeper, Option.any_some, ← decide_not, decide_eq_decide, Nat.not_le]

/-- What is collected from a position are the trees there that are deeper than the baseline, and
the others are left. -/
theorem collect_eq (lines : List Line) (pos : Nat) (baseline : Option Nat) :
    (collect lines (groupingIndents lines).2 pos baseline).1 =
        (ofLines (lines.drop pos)).takeWhile (isDeeper baseline) ∧
      ofLines (lines.drop (collect lines (groupingIndents lines).2 pos baseline).2) =
        (ofLines (lines.drop pos)).dropWhile (isDeeper baseline) := by
  rw [collect]
  by_cases inside : pos < lines.length
  · have grafted : ofLines (lines.drop pos) = graft lines[pos] (ofLines (lines.drop (pos + 1))) := by
      rw [List.drop_eq_getElem_cons inside]
      rfl
    have indent := groupingIndents_getD inside
    rw [dif_pos inside, grafted, graft, indent]
    generalize width_eq : indentBefore lines[pos] (ofLines (lines.drop (pos + 1))) = width
    -- The trees that the line takes are those that are collected for it.
    have own := collect_eq lines (pos + 1) (some width)
    rw [isDeeper_some] at own
    by_cases stops : baseline.any (width ≤ ·) = true
    · rw [if_pos stops, List.takeWhile_cons_of_neg (by simpa [isDeeper] using stops),
        List.dropWhile_cons_of_neg (by simpa [isDeeper] using stops)]
      exact ⟨rfl, by rw [grafted, graft, width_eq]⟩
    · rw [if_neg stops]
      generalize collect lines (groupingIndents lines).2 (pos + 1) (some width) = inner at own
      obtain ⟨taken, behind, after⟩ := inner
      obtain ⟨own, left⟩ := own
      dsimp only at own left ⊢
      have rest := collect_eq lines behind baseline
      rw [left] at rest
      rw [List.takeWhile_cons_of_pos (by simpa [isDeeper] using stops),
        List.dropWhile_cons_of_pos (by simpa [isDeeper] using stops), own]
      exact ⟨congrArg _ rest.1, rest.2⟩
  · have ended : lines.drop pos = [] := List.drop_eq_nil_of_le (Nat.le_of_not_lt inside)
    rw [dif_neg inside, ended]
    exact ⟨rfl, rfl⟩
termination_by lines.length - pos

theorem collectAll_eq_ofLines (lines : List Line) : collectAll lines = ofLines lines := by
  rw [collectAll, (collect_eq lines 0 none).1, List.drop_zero]
  exact List.takeWhile_eq_self_iff.mpr fun _ _ => rfl

end IndentMarkup.LineTree
