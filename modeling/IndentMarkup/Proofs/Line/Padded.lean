import IndentMarkup.Proofs.Line.Pad
import IndentMarkup.Proofs.Line.Stripped

/-! The lines of a text that has margins in front of its lines. There are as many as in the text
without them, blank lines stay blank, and every line is indented by its margin. -/
namespace IndentMarkup

section Offsets

variable {α : Type} {length : α → Nat} {o : Nat} {entries : List α}

/-- The entries with the offsets at which they begin, the first at the one given. Behind each of
them stands a line feed. -/
def withOffsets (length : α → Nat) : Nat → List α → List (Nat × α)
  | _, [] => []
  | o, entry :: later => (o, entry) :: withOffsets length (o + length entry + 1) later

/-- What the entries take up, the line feeds behind them included. -/
def extent (length : α → Nat) : List α → Nat
  | [] => 0
  | entry :: later => length entry + 1 + extent length later

theorem withOffsets_append (first second : List α) :
    withOffsets length o (first ++ second) =
      withOffsets length o first ++ withOffsets length (o + extent length first) second := by
  induction first generalizing o with
  | nil => rfl
  | cons entry first ih =>
    rw [List.cons_append, withOffsets, withOffsets, ih, extent, ← Nat.add_assoc, ← Nat.add_assoc,
      List.cons_append]

theorem withOffsets_bounds : ∀ entry ∈ withOffsets length o entries,
    o ≤ entry.1 ∧ entry.1 + length entry.2 < o + extent length entries := by
  induction entries generalizing o with
  | nil => exact List.forall_mem_nil _
  | cons first later ih =>
    rw [withOffsets, extent, List.forall_mem_cons]
    refine ⟨by dsimp only; omega, fun entry member => ?_⟩
    have bounds := ih entry member
    omega

theorem map_withOffsets (entries : List α) :
    (withOffsets length o entries).map Prod.snd = entries := by
  induction entries generalizing o with
  | nil => rfl
  | cons entry later ih => rw [withOffsets, List.map_cons, ih]

end Offsets

variable {text run rest : Text}

/-- The blanks in front of a line are its first token. -/
theorem Line.ofText_blanks (p : Position) (nonempty : run ≠ [])
    (blank : ∀ c ∈ run, isInlineBlank c = true)
    (solid : ∀ c ∈ rest.head?, isInlineBlank c = false) :
    Line.ofText p (run ++ rest) = ⟨.space, run, p⟩ :: Line.ofText (p.advance run) rest :=
  Line.ofText_of_first (.of_blanks nonempty blank solid) rfl p

/-- Without blanks in front a line is empty, or it begins with another token. -/
theorem Line.ofText_solid (p : Position) (solid : ∀ c ∈ text.head?, isInlineBlank c = false) :
    ((Line.ofText p text).isBlank = true ↔ LineEnd text) ∧ (Line.ofText p text).indent = 0 := by
  by_cases ended : LineEnd text
  · rw [Line.ofText_lineEnd p ended]
    exact ⟨iff_of_true rfl ended, rfl⟩
  have nonempty : text ≠ [] := fun none => ended (none ▸ trivial)
  obtain ⟨found, first⟩ := Token.exists_first nonempty
  obtain ⟨c, left, rfl⟩ := List.exists_cons_of_ne_nil nonempty
  have unblank : IndentMarkup.isBlank c = false := by
    refine Bool.eq_false_iff.mpr fun blank => ?_
    exact absurd (isInlineBlank_of_isBlank blank ended) (by simp [solid c rfl])
  obtain ⟨u, behind, lines, split, unspaced⟩ := exists_solid_line p unblank left
  rw [Token.listFrom_of_first p first, Line.split_eq_cut_cons] at split
  have line : Line.ofText p (c :: left) = u :: behind := by
    rw [Line.ofText, Token.listFrom_of_first p first, (List.cons.inj split).1]
  rw [line, Line.isBlank, List.all_cons, Line.indent, if_neg unspaced]
  exact ⟨iff_of_false (by simp [unspaced]) ended, rfl⟩

/-- A line is blank if nothing follows the blanks in front, and those are its indent. -/
theorem Line.ofText_front (p : Position) (text : Text) :
    ((Line.ofText p text).isBlank = true ↔ LineEnd (text.dropWhile isInlineBlank)) ∧
      (Line.ofText p text).indent = (text.takeWhile isInlineBlank).length := by
  have blank : ∀ c ∈ text.takeWhile isInlineBlank, isInlineBlank c = true :=
    fun c member => List.mem_takeWhile_imp member
  have solid : ∀ c ∈ (text.dropWhile isInlineBlank).head?, isInlineBlank c = false := by
    intro c head
    have stopped := List.head?_dropWhile_not isInlineBlank text
    rw [Option.mem_def.mp head] at stopped
    simpa using stopped
  have whole : text.takeWhile isInlineBlank ++ text.dropWhile isInlineBlank = text :=
    List.takeWhile_append_dropWhile
  generalize text.takeWhile isInlineBlank = run at blank whole
  generalize text.dropWhile isInlineBlank = rest at solid whole
  subst whole
  by_cases flush : run = []
  · subst flush
    exact Line.ofText_solid p solid
  · rw [Line.ofText_blanks p flush blank solid, Line.isBlank, List.all_cons, Line.indent,
      if_pos rfl]
    exact ⟨(Line.ofText_solid (p.advance run) solid).1, rfl⟩

variable {source source' : Text} {margin : Nat → Text}

/-- The second line is the first one, which begins at the offset, with the margins in front and
behind its line feeds. -/
structure Line.Padded (margin : Nat → Text) (source source' : Text) (entry : Nat × Line)
    (line' : Line) : Prop where
  isBlank : line'.isBlank = entry.2.isBlank
  indent : line'.indent = (margin entry.1).length + entry.2.indent
  sourceText : line'.sourceText source' =
    margin entry.1 ++ (entry.2.sourceText source).pad margin entry.1
  startsWith : margin entry.1 = [] → ∀ kind, line'.startsWith kind = entry.2.startsWith kind

def Line.size (source : Text) (line : Line) : Nat :=
  (line.sourceText source).length

/-- The lines with the offsets at which they begin. -/
def Line.located (source : Text) (o : Nat) (lines : List Line) : List (Nat × Line) :=
  withOffsets (Line.size source) o lines

theorem LineEnd.congr {tail tail' : Text} (same : tail.head? = tail'.head?) :
    LineEnd tail ↔ LineEnd tail' := by
  cases tail <;> cases tail' <;> simp_all [LineEnd]

/-- With margins behind the line feeds only, a line begins with the same token. -/
theorem Line.startsWith_pad (blank : Text.BlankMargins margin) (p q : Position) (o : Nat)
    (text : Text) (kind : Token.Kind) :
    (Line.ofText q (text.pad margin o)).startsWith kind = (Line.ofText p text).startsWith kind := by
  by_cases ended : LineEnd text
  · have ended' : LineEnd (text.pad margin o) := (LineEnd.congr (Text.head?_pad ..)).mpr ended
    rw [Line.ofText_lineEnd p ended, Line.ofText_lineEnd q ended']
  have nonempty : text ≠ [] := fun none => ended (none ▸ trivial)
  obtain ⟨found, first⟩ := Token.exists_first nonempty
  cases inside : found.kind.endsLine with
  | false =>
    obtain ⟨value, kept⟩ := first.pad blank inside o
    rw [Line.ofText_of_first first inside, Line.ofText_of_first kept inside]
    rfl
  | true =>
    cases first with
    | @symbol s rest =>
      have ends : s = .newLine ∨ s = .block := by simpa [Token.Kind.endsLine] using inside
      rcases ends with rfl | rfl
      · exact absurd rfl ended
      · have block (p : Position) (rest : Text) :
            Line.ofText p (Symbol.block.literal ++ rest) = _ := Line.ofText_block p rest
        have feed : Text.pad margin o (Symbol.block.literal ++ rest) = Symbol.block.literal ++
            (margin (o + 2) ++ rest.pad margin (o + 2)) := rfl
        rw [feed, block, block]
        rfl
    | _ => contradiction

theorem BeginsLine.padded {p q : Position} {piece tail : Text} {line line' : Line}
    (blank : Text.BlankMargins margin) (begins : BeginsLine p piece tail line)
    (begins' : BeginsLine q (margin p.index ++ piece.pad margin p.index)
      (tail.pad margin (p.index + piece.length)) line')
    (placed : p.Before source (piece ++ tail))
    (placed' : q.Before source' (margin p.index ++ (piece ++ tail).pad margin p.index)) :
    Line.Padded margin source source' (p.index, line) line' := by
  have own := begins.made.line
  have own' := begins'.made.line
  rw [Text.pad_append, ← List.append_assoc] at placed'
  rw [List.append_assoc, ← Text.pad_append] at own'
  obtain ⟨ended, width⟩ := Line.ofText_front p (piece ++ tail)
  obtain ⟨ended', width'⟩ :=
    Line.ofText_front q (margin p.index ++ (piece ++ tail).pad margin p.index)
  rw [own] at ended width
  rw [own'] at ended' width'
  refine ⟨?_, ?_, ?_, fun flush kind => ?_⟩
  · rw [List.dropWhile_append_of_pos (blank p.index)] at ended'
    rw [Bool.eq_iff_iff, ended', ended]
    exact LineEnd.congr Text.head?_dropWhile_pad
  · rw [List.takeWhile_append_of_pos (blank p.index), Text.takeWhile_pad,
      List.length_append] at width'
    rw [width', width]
  · rw [begins'.sourceText placed', begins.sourceText placed]
  · rw [← own, ← own', flush]
    exact Line.startsWith_pad blank p q p.index (piece ++ tail) kind

theorem Text.EndsLine.behind_feed {rest : Text} (ended : rest.EndsLine) (line : Text) :
    EndsLine (line ++ '\n' :: rest) := by
  by_cases nothing : rest = []
  · rw [nothing]
    exact endsLine_feed line
  · rw [List.append_cons]
    exact ended.append nothing

/-- The lines of a text with margins are those of the text, each with its margin. -/
theorem padded_split (blank : Text.BlankMargins margin) {text : Text} {p q : Position}
    (placed : p.Before source text)
    (placed' : q.Before source' (margin p.index ++ text.pad margin p.index))
    (ended : text.EndsLine → margin (p.index + text.length) = []) :
    List.Forall₂ (Line.Padded margin source source')
      (Line.located source p.index (Line.split (Token.listFrom p text)))
      (Line.split (Token.listFrom q (margin p.index ++ text.pad margin p.index))) := by
  by_cases nonempty : text = []
  · subst nonempty
    have flush : margin p.index = [] := ended nofun
    rw [flush]
    simp [Text.pad, Line.split, Line.located, withOffsets]
  obtain ⟨piece, tail, line, whole, begins, padded⟩ := exists_padded_line blank p.index p text
  obtain ⟨line', begins'⟩ := padded _ q (blank p.index)
  rw [whole] at placed placed' nonempty ⊢
  have own := begins.padded blank begins' placed placed'
  have nonempty' : (margin p.index ++ piece.pad margin p.index) ++
      tail.pad margin (p.index + piece.length) ≠ [] := by
    rw [List.append_assoc, ← Text.pad_append]
    exact List.append_ne_nil_of_right_ne_nil _ (mt Text.pad_eq_nil_iff.mp nonempty)
  have size : line.size source = piece.length := congrArg List.length (begins.sourceText placed)
  rw [Text.pad_append, ← List.append_assoc] at placed' ⊢
  rw [split_makesLine begins.made nonempty, split_makesLine begins'.made nonempty', Line.located,
    withOffsets]
  refine .cons own ?_
  cases tail with
  | nil => simp [Text.pad, Line.split, withOffsets]
  | cons c rest =>
    obtain rfl : c = '\n' := begins.ended
    rw [Text.pad_feed] at placed' ⊢
    have index : (p.advance (piece ++ ['\n'])).index = p.index + piece.length + 1 := by
      rw [Position.index_advance, List.length_append, List.length_singleton, Nat.add_assoc]
    have length : text.length = piece.length + 1 + rest.length := by
      rw [whole, List.length_append, List.length_cons]
      omega
    rw [List.append_cons] at placed placed'
    rw [← index] at placed' ⊢
    rw [size, ← index]
    have later : Text.EndsLine rest →
        margin ((p.advance (piece ++ ['\n'])).index + rest.length) = [] := by
      intro ends
      have flush := ended (whole ▸ ends.behind_feed piece)
      rwa [length, ← Nat.add_assoc, ← Nat.add_assoc, ← index] at flush
    have shorter : rest.length < text.length := by omega
    exact padded_split blank (placed.advance _) (placed'.advance _) later
termination_by text.length

end IndentMarkup
