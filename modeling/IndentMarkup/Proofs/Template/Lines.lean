import IndentMarkup.Proofs.Statement.Reading
import Mathlib.Data.List.Forall2

/-! The lines of a printed template as lines of tokens: there are as many, and each is
indented as it was printed and says what it said. -/
namespace IndentMarkup

variable {source text tail : Text} {p : Position}

/-- A line of tokens that is indented to the depth and says what was printed there. -/
def Layout.Reads (layout : Layout) (source : Text) (line : Line) :
    Nat × PrintedLine → Prop
  | (depth, printed) =>
    line.indent = depth * layout.step.length ∧ printed.ReadFrom source line

theorem Layout.length_indent (layout : Layout) (depth : Nat) :
    (layout.indent depth).length = depth * layout.step.length := by
  simp [indent]

theorem Layout.indent_blank (layout : Layout) (depth : Nat) :
    ∀ c ∈ layout.indent depth, isInlineBlank c = true := by
  intro c member
  simp only [indent, List.mem_flatten, List.mem_replicate] at member
  obtain ⟨step, ⟨-, rfl⟩, within⟩ := member
  exact (Bool.and_eq_true_iff.mp (List.all_eq_true.mp layout.blank c within)).1

theorem Line.indent_of_skipSpace {line : Line} (solid : line.skipSpace = line) :
    line.indent = 0 := by
  cases line with
  | nil => rfl
  | cons t rest =>
    have unspaced : t.kind ≠ .space := by
      intro space
      have shorter := length_skipSpace_le rest
      have same : skipSpace rest = t :: rest := by simpa [skipSpace, space] using solid
      rw [same, List.length_cons] at shorter
      omega
    simp [indent, unspaced]

/-- The blanks in front of a printed line are one token, or none at depth zero. -/
theorem Layout.exists_line (layout : Layout) {depth : Nat} {printed : PrintedLine}
    (printable : printed.Printable)
    (placed : p.Before source (layout.line (depth, printed) ++ tail)) (ended : LineEnd tail) :
    ∃ line, MakesLine p (layout.line (depth, printed)) tail line ∧
      layout.Reads source line (depth, printed) := by
  have solid := printed.head_solid layout printable tail
  rw [line, List.append_assoc] at placed
  obtain ⟨line, made, kept⟩ := printed.readsBack printable (placed.advance _) ended
  by_cases flush : layout.indent depth = []
  · refine ⟨line, ?_, ?_, kept⟩
    · simpa [Layout.line, flush] using made
    · rw [Line.indent_of_skipSpace (made.skipSpace solid), ← layout.length_indent, flush]
      rfl
  · have blank := StartsLine.blanks p flush (layout.indent_blank depth) solid
    refine ⟨_, blank.makesLine made, layout.length_indent depth, ?_⟩
    cases printed <;> exact kept

theorem Layout.exists_join_cons (layout : Layout) (line : Text) (more : List Text) :
    ∃ tail, layout.join (line :: more) = line ++ tail ∧ LineEnd tail ∧
      tail.drop 1 = layout.join more := by
  cases more with
  | nil => cases ends : layout.endsLastLine <;> simp [join, ends, LineEnd]
  | cons next more => exact ⟨'\n' :: layout.join (next :: more), rfl, rfl, rfl⟩

theorem Position.Before.behind_line (placed : p.Before source (text ++ tail)) :
    (p.advance (text ++ tail.take 1)).Before source (tail.drop 1) := by
  apply Before.advance
  rwa [List.append_assoc, List.take_append_drop]

theorem Layout.split_join (layout : Layout) {entries : List (Nat × PrintedLine)}
    (printable : ∀ entry ∈ entries, entry.2.Printable)
    (placed : p.Before source (layout.join (entries.map layout.line))) :
    List.Forall₂ (layout.Reads source)
      (Line.split (Token.listFrom p (layout.join (entries.map layout.line)))) entries := by
  induction entries generalizing p with
  | nil => simp [join, Line.split]
  | cons entry more ih =>
    obtain ⟨depth, printed⟩ := entry
    have own := printable _ (.head _)
    obtain ⟨tail, joined, ended, rest⟩ :=
      layout.exists_join_cons (layout.line (depth, printed)) (more.map layout.line)
    rw [List.map_cons, joined] at placed ⊢
    obtain ⟨line, made, reads⟩ := layout.exists_line own placed ended
    have nonempty : layout.line (depth, printed) ++ tail ≠ [] := by
      intro nothing
      obtain rfl : [] = line := by
        rw [← made.line, nothing]
        simp [Line.ofText, Line.cut]
      exact absurd reads.2.isBlank (by simp [Line.isBlank])
    have later := placed.behind_line
    rw [split_makesLine made nonempty]
    rw [rest] at later ⊢
    exact .cons reads (ih (fun entry member => printable entry (.tail _ member)) later)

end IndentMarkup
